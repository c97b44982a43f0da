import PcieCosim.Endpoint.Steps
import PcieCosim.Lib.Store

/-!
# The Register File as a Store of Words

What reads of the registers return, as a function of the traffic alone.

The registers that only software writes, which are CONTROL, DIM_N, INT_ENABLE
and the two halves of each pointer register, are a store of 32-bit words: a
write gives a value to the word it covers, or to two of them if it is 8 bytes
wide, and a CONTROL write with RESET clears them all. The formulas that merge
half a pointer register into the other half are then just updates of one key,
and `word_bar0` says that a transaction does to the registers what its
operation does to the store. The device's own threads write none of these
words.

8-byte accesses belong to the pointer registers. The traffic considered here
makes no others.

## Main definitions

* `Registers.word`: What a register word holds.
* `Registers.setWord`: Assigning a register word.
* `Register.Stored`: The words that only software writes.
* `Payload.gives`: The value a write gives a word.
* `Label.op`: The operation on the store a step is.
* `Permitted`: The traffic considered.
* `Inert`: Transactions that do nothing.
* `RegisterFile`: What the registers are to software.

## Theorems

* `registers_ext`: The words and the request flag are all there is.
* `read_word`, `read_wide`: What reads return.
* `word_setMatrixPtr`: Updating a pointer register.
* `word_setWord`: Assigning a word assigns no other.
* `word_bar0`: A transaction is its operation on the store.
* `word_dispatch`: The compute thread leaves the store alone.
* `word_run`: After any run, the words are the contents of the store.
* `register_file`: The register file is a store of words.
-/

namespace PcieCosim

open Bytes Kernel Transition

/-- The 32-bit word a register holds. -/
def Registers.word (g : Registers) : Register → Word
  | .control => g.regControl
  | .status => g.regStatus
  | .dimN => g.regDimN
  | .matrixPtr m => lowWord (g.matrixPtr m)
  | .matrixPtrHigh m => highWord (g.matrixPtr m)
  | .intStatus => g.regIntStatus
  | .intEnable => g.regIntEnable

/-- The words that only software writes. -/
def Register.Stored : Register → Prop
  | .status => False
  | .intStatus => False
  | _ => True

/-- The value of a 4-byte write. -/
def Payload.value (t : Payload) : Word := BitVec.ofNat 32 (leNat t.data)

/-- The value of an 8-byte write. -/
def Payload.value64 (t : Payload) : BitVec 64 := BitVec.ofNat 64 (leNat t.data)

/-- The value an 8-byte write gives a word: half of what it carries. -/
def Payload.givesWide (t : Payload) : Register → Option Word
  | .matrixPtr m => if t.address = m.offset then some (lowWord t.value64) else none
  | .matrixPtrHigh m => if t.address = m.offset then some (highWord t.value64) else none
  | _ => none

/-- The value a transaction gives a word, if it is a write that covers it. -/
def Payload.gives (t : Payload) (r : Register) : Option Word :=
  if t.command = .write then
    if t.data.length = 4 then (if t.address = r.offset then some t.value else none)
    else if t.data.length = 8 then t.givesWide r
    else none
  else none

/-- The operation on the store that a step is. -/
def Label.op {δ : Type} : Label δ → Store.Op Register Word
  | .bar0 t => if t.Sets Ctrl.reset then .clear else .write t.gives
  | _ => .write (fun _ => none)

/-- An 8-byte read or write is at one of the pointer registers. -/
def Permitted (t : Payload) : Prop :=
  t.data.length = 8 → t.command ≠ .ignore → ∃ m : Operand, t.address = m.offset

/-- A step whose transaction, if it is one, is permitted. -/
def Label.Permitted {δ : Type} : Label δ → Prop
  | .bar0 t => PcieCosim.Permitted t
  | _ => True

/-- A transaction of another length than 4 or 8, one that is neither read nor
    write, or a write to STATUS or to an address that is no register's. -/
def Inert (t : Payload) : Prop :=
  (t.data.length ≠ 4 ∧ t.data.length ≠ 8) ∨ t.command = .ignore ∨
    (t.command = .write ∧
      (t.address = Register.status.offset ∨ ∀ r : Register, t.address ≠ r.offset))

/-- What a device in state `d` is to software that has performed `ops`. -/
structure RegisterFile (d : Device) (ops : List (Store.Op Register Word)) : Prop where
  /-- A read of a word returns the value it was last given since the last
      RESET, and 0 if it was given none. -/
  read : ∀ r : Register, r.Stored → ∀ t : Payload, t.command = .read → t.address = r.offset →
    t.data.length = 4 →
      (∀ v, Store.LastGiven r ops v →
        (d.bar0BTransport t).2.2 = { status := .ok, data := (word32 v).map some }) ∧
      ((∀ v, ¬ Store.LastGiven r ops v) →
        (d.bar0BTransport t).2.2 = { status := .ok, data := (word32 0).map some })
  /-- An 8-byte read of a pointer register returns its two halves. -/
  wide : ∀ (m : Operand) (t low high : Payload), t.command = .read → t.address = m.offset →
    t.data.length = 8 → low.command = .read → low.address = m.offset → low.data.length = 4 →
      high.command = .read → high.address = m.offset + 4 → high.data.length = 4 →
      (d.bar0BTransport t).2.2.status = .ok ∧
        (d.bar0BTransport t).2.2.data =
          (d.bar0BTransport low).2.2.data ++ (d.bar0BTransport high).2.2.data
  /-- INT_STATUS loses exactly the bits written as one, or all at a RESET. -/
  intStatus : ∀ t, Permitted t → (d.bar0BTransport t).1.regs.regIntStatus =
    if t.Sets Ctrl.reset then 0
    else if t.command = .write ∧ t.data.length = 4 ∧ t.address = Register.intStatus.offset then
      d.regs.regIntStatus &&& ~~~t.value
    else d.regs.regIntStatus
  /-- Transactions that do nothing. -/
  inert : ∀ t, Inert t → (d.bar0BTransport t).1 = d ∧
    (t.data.length ≠ 4 ∧ t.data.length ≠ 8 →
      (d.bar0BTransport t).2.2 = { status := .genericError, data := t.data.map some })

/-- The words and the request flag are the whole register file. -/
theorem registers_ext (g g' : Registers) (hword : ∀ r, g.word r = g'.word r)
    (hflag : g.computationRequested = g'.computationRequested) : g = g' := by
  have hptr : ∀ m, g.matrixPtr m = g'.matrixPtr m := fun m =>
    eq_of_halves _ _ (hword (.matrixPtr m)) (hword (.matrixPtrHigh m))
  rcases g with ⟨_, _, _, _, _, _, _, _, _⟩
  rcases g' with ⟨_, _, _, _, _, _, _, _, _⟩
  rw [Registers.mk.injEq]
  exact ⟨hword .control, hword .status, hword .dimN, hptr .a, hptr .b, hptr .c,
    hword .intStatus, hword .intEnable, hflag⟩

/-- An address selects the register whose offset it is. -/
theorem eq_offset_iff (addr : BitVec 64) (x : Option Register)
    (h : Register.decode addr = x) (r : Register) : addr = r.offset ↔ x = some r := by
  constructor
  · rintro rfl
    rw [← h, decode_offset]
  · rintro rfl
    exact (offset_of_decode addr r h).symm

/-- A 4-byte read returns the word. -/
theorem read_word (d : Device) (r : Register) (t : Payload) (hcmd : t.command = .read)
    (haddr : t.address = r.offset) (hlen : t.data.length = 4) :
    (d.bar0BTransport t).2.2 = { status := .ok, data := (word32 (d.regs.word r)).map some } := by
  have hcopy : ∀ v : Word, memcpy (word32 v) 4 = (word32 v).map some := fun v => memcpy_self _
  unfold Device.bar0BTransport
  rw [if_neg (by omega), hcmd]
  simp only [Device.handleMmioRead, haddr, decode_offset, hlen]
  cases r with
  | matrixPtr m => exact congrArg (Response.mk .ok) (hcopy (lowWord (d.regs.matrixPtr m)))
  | matrixPtrHigh m => exact congrArg (Response.mk .ok) (hcopy (highWord (d.regs.matrixPtr m)))
  | control => exact congrArg (Response.mk .ok) (hcopy _)
  | status => exact congrArg (Response.mk .ok) (hcopy _)
  | dimN => exact congrArg (Response.mk .ok) (hcopy _)
  | intStatus => exact congrArg (Response.mk .ok) (hcopy _)
  | intEnable => exact congrArg (Response.mk .ok) (hcopy _)

/-- An 8-byte read of a pointer register returns both its words. -/
theorem read_wide (d : Device) (m : Operand) (t : Payload) (hcmd : t.command = .read)
    (haddr : t.address = m.offset) (hlen : t.data.length = 8) :
    (d.bar0BTransport t).2.2 =
      { status := .ok
        data := (word32 (d.regs.word (.matrixPtr m))).map some ++
          (word32 (d.regs.word (.matrixPtrHigh m))).map some } := by
  have hdec : Register.decode t.address = some (.matrixPtr m) := by
    rw [haddr]
    exact decode_offset (.matrixPtr m)
  have hcopy : memcpy (word64 (d.regs.matrixPtr m)) 8 = (word64 (d.regs.matrixPtr m)).map some :=
    memcpy_self _
  unfold Device.bar0BTransport
  rw [if_neg (by omega), hcmd]
  simp only [Device.handleMmioRead, hdec, hlen, if_true]
  rw [hcopy, word64_eq_append, List.map_append]
  rfl

theorem matrixPtr_setMatrixPtr (r : Registers) (m m' : Operand) (v : BitVec 64) :
    (r.setMatrixPtr m v).matrixPtr m' = if m = m' then v else r.matrixPtr m' := by
  cases m <;> cases m' <;> rfl

theorem bar0_write (d : Device) (t : Payload) (hcmd : t.command = .write)
    (hlen : t.data.length = 4 ∨ t.data.length = 8) :
    (d.bar0BTransport t).1 = (d.handleMmioWrite t.address t.data).1 := by
  unfold Device.bar0BTransport
  rw [if_neg (by omega), hcmd]

/-- What a 4-byte write to a register does. -/
theorem bar0_write32 (d : Device) (r : Register) (v : Word) :
    (d.bar0BTransport (.write32 r.offset v)).1 =
      match r with
      | .control => (d.writeControl v).1
      | .status => d
      | .dimN => { d with regs := { d.regs with regDimN := v } }
      | .matrixPtr m => { d with regs := d.regs.setMatrixPtrLow m v }
      | .matrixPtrHigh m => { d with regs := d.regs.setMatrixPtrHigh m v }
      | .intStatus => d.clearIntStatus v
      | .intEnable => d.setIntEnable v := by
  have hlen : (word32 v).length = 4 := length_word32 v
  rw [bar0_write d _ rfl (Or.inl hlen)]
  change (d.handleMmioWrite r.offset (word32 v)).1 = _
  unfold Device.handleMmioWrite
  -- The value is the word written, the 8-byte value zero and not used.
  rw [decode_offset, if_pos hlen, ofNat_leNat_word32, if_neg (by omega)]
  cases r with
  | matrixPtr m => simp only [hlen, Nat.reduceEqDiff, if_false]
  | _ => rfl

/-- What an 8-byte write to a register does. Only the pointer registers take
    its value; the others are written with the 4-byte value, which is zero. -/
theorem bar0_write64 (d : Device) (r : Register) (v : BitVec 64) :
    (d.bar0BTransport (.write64 r.offset v)).1 =
      match r with
      | .control => (d.writeControl 0).1
      | .status => d
      | .dimN => { d with regs := { d.regs with regDimN := 0 } }
      | .matrixPtr m => { d with regs := d.regs.setMatrixPtr m v }
      | .matrixPtrHigh m => { d with regs := d.regs.setMatrixPtrHigh m 0 }
      | .intStatus => d.clearIntStatus 0
      | .intEnable => d.setIntEnable 0 := by
  have hlen : (word64 v).length = 8 := length_word64 v
  rw [bar0_write d _ rfl (Or.inr hlen)]
  change (d.handleMmioWrite r.offset (word64 v)).1 = _
  unfold Device.handleMmioWrite
  rw [decode_offset, if_neg (by omega), if_pos hlen, ofNat_leNat_word64]
  cases r with
  | matrixPtr m => simp only [hlen, if_true]
  | _ => rfl

/-- Updating a pointer register updates its two words. -/
theorem word_setMatrixPtr (g : Registers) (m : Operand) (v : BitVec 64) (r : Register) :
    (g.setMatrixPtr m v).word r =
      if r = .matrixPtr m then lowWord v
      else if r = .matrixPtrHigh m then highWord v else g.word r := by
  cases r with
  | matrixPtr m' =>
      simp only [Registers.word, matrixPtr_setMatrixPtr, Register.matrixPtr.injEq, reduceCtorEq,
        if_false, eq_comm]
      split <;> rfl
  | matrixPtrHigh m' =>
      simp only [Registers.word, matrixPtr_setMatrixPtr, Register.matrixPtrHigh.injEq,
        reduceCtorEq, if_false, eq_comm]
      split <;> rfl
  | _ => cases m <;> rfl

theorem word_setMatrixPtrLow (g : Registers) (m : Operand) (v : Word) (r : Register) :
    (g.setMatrixPtrLow m v).word r = if r = .matrixPtr m then v else g.word r := by
  rw [Registers.setMatrixPtrLow, word_setMatrixPtr, (halves_setLow _ v).1, (halves_setLow _ v).2]
  by_cases hr : r = .matrixPtrHigh m
  · simp only [hr, reduceCtorEq, if_false, if_true]
    rfl
  · rw [if_neg hr]

theorem word_setMatrixPtrHigh (g : Registers) (m : Operand) (v : Word) (r : Register) :
    (g.setMatrixPtrHigh m v).word r = if r = .matrixPtrHigh m then v else g.word r := by
  rw [Registers.setMatrixPtrHigh, word_setMatrixPtr, (halves_setHigh _ v).1,
    (halves_setHigh _ v).2]
  by_cases hr : r = .matrixPtr m
  · simp only [hr, reduceCtorEq, if_false, if_true]
    rfl
  · rw [if_neg hr]

theorem word_resetDevice (r : Register) (h : r.Stored) : Registers.resetDevice.word r = 0 := by
  cases r with
  | status => exact absurd h id
  | intStatus => exact absurd h id
  | matrixPtr m => cases m <;> rfl
  | matrixPtrHigh m => cases m <;> rfl
  | _ => rfl

/-- The request flag is in no word. -/
theorem word_computationRequested (g : Registers) (b : Bool) (r : Register) :
    { g with computationRequested := b }.word r = g.word r := by
  cases r with
  | matrixPtr m => cases m <;> rfl
  | matrixPtrHigh m => cases m <;> rfl
  | _ => rfl

/-- Assign one word. -/
def Registers.setWord (g : Registers) (v : Word) : Register → Registers
  | .control => { g with regControl := v }
  | .status => { g with regStatus := v }
  | .dimN => { g with regDimN := v }
  | .matrixPtr m => g.setMatrixPtrLow m v
  | .matrixPtrHigh m => g.setMatrixPtrHigh m v
  | .intStatus => { g with regIntStatus := v }
  | .intEnable => { g with regIntEnable := v }

/-- Assigning a word assigns no other. -/
theorem word_setWord (g : Registers) (v : Word) (x r : Register) :
    (g.setWord v x).word r = if r = x then v else g.word r := by
  cases x with
  | matrixPtr m => exact word_setMatrixPtrLow g m v r
  | matrixPtrHigh m => exact word_setMatrixPtrHigh g m v r
  | _ =>
      cases r with
      | matrixPtr m => cases m <;> rfl
      | matrixPtrHigh m => cases m <;> rfl
      | _ => rfl

/-- Accepting a START changes no word. -/
theorem word_controlStart (d : Device) (v : Word) (r : Register) :
    (d.controlStart v).1.regs.word r = d.regs.word r := by
  unfold Device.controlStart
  split
  · split
    · exact word_computationRequested d.regs true r
    · rfl
  · rfl

/-- A CONTROL write clears all words or sets its own. -/
theorem word_writeControl (d : Device) (v : Word) (r : Register) :
    (d.writeControl v).1.regs.word r =
      if Has v Ctrl.reset then Registers.resetDevice.word r
      else if r = .control then v else d.regs.word r := by
  simp only [Device.writeControl]
  rw [word_controlStart, Device.controlReset]
  by_cases hr : Has v Ctrl.reset
  · rw [if_pos hr, if_pos hr]
  · rw [if_neg hr, if_neg hr]
    exact word_setWord d.regs v .control r

/-- What a 4-byte write leaves in the word it is for: INT_STATUS only loses
    bits, and STATUS is not written. -/
def Registers.written (g : Registers) (v : Word) : Register → Word
  | .status => g.regStatus
  | .intStatus => g.regIntStatus &&& ~~~v
  | _ => v

/-- A 4-byte write to a register other than CONTROL assigns its word. -/
theorem regs_write32 (d : Device) (x : Register) (v : Word) (hx : x ≠ .control) :
    (d.bar0BTransport (.write32 x.offset v)).1.regs =
      d.regs.setWord (d.regs.written v x) x := by
  rw [bar0_write32]
  cases x with
  | control => exact absurd rfl hx
  | _ => rfl

/-- A write of 4 bytes is one of a word. -/
theorem eq_write32 (t : Payload) (hcmd : t.command = .write) (hlen : t.data.length = 4) :
    t = .write32 t.address t.value := by
  rcases t with ⟨cmd, addr, data⟩
  cases hcmd
  rw [Payload.write32, Payload.value, word32_ofNat_leNat data hlen]

/-- A write of 8 bytes is one of a 64-bit word. -/
theorem eq_write64 (t : Payload) (hcmd : t.command = .write) (hlen : t.data.length = 8) :
    t = .write64 t.address t.value64 := by
  rcases t with ⟨cmd, addr, data⟩
  cases hcmd
  rw [Payload.write64, Payload.value64, word64_ofNat_leNat data hlen]

/-- A write to an address that is no register's does nothing. -/
theorem bar0_write_none (d : Device) (t : Payload) (hcmd : t.command = .write)
    (h : Register.decode t.address = none) : (d.bar0BTransport t).1 = d := by
  unfold Device.bar0BTransport
  split
  · rfl
  · rw [hcmd]
    simp only [Device.handleMmioWrite, h]

/-- Nor does one to STATUS, which the write switch does not have. -/
theorem bar0_write_unmapped (d : Device) (t : Payload) (hcmd : t.command = .write)
    (h : t.address = Register.status.offset ∨ ∀ r : Register, t.address ≠ r.offset) :
    (d.bar0BTransport t).1 = d := by
  rcases h with haddr | hnone
  · unfold Device.bar0BTransport
    split
    · rfl
    · rw [hcmd]
      simp only [Device.handleMmioWrite, haddr, decode_offset]
  · refine bar0_write_none d t hcmd ?_
    rcases hdec : Register.decode t.address with _ | r
    · rfl
    · exact absurd (offset_of_decode _ _ hdec).symm (hnone r)

theorem sets_write32_iff (r : Register) (v bit : Word) :
    (Payload.write32 r.offset v).Sets bit ↔ r = .control ∧ Has v bit := by
  constructor
  · rintro ⟨-, haddr, -, hbit⟩
    have hr := (eq_offset_iff r.offset _ (decode_offset r) .control).mp haddr
    change Has (BitVec.ofNat 32 (leNat (word32 v))) bit at hbit
    rw [ofNat_leNat_word32] at hbit
    exact ⟨Option.some.inj hr, hbit⟩
  · rintro ⟨rfl, hbit⟩
    refine ⟨rfl, rfl, length_word32 v, ?_⟩
    change Has (BitVec.ofNat 32 (leNat (word32 v))) bit
    rw [ofNat_leNat_word32]
    exact hbit

/-- A 4-byte write to a register, on every word. -/
theorem word_write32 (d : Device) (x : Register) (v : Word) (r : Register) :
    (d.bar0BTransport (.write32 x.offset v)).1.regs.word r =
      if x = .control ∧ Has v Ctrl.reset then Registers.resetDevice.word r
      else if x = r then d.regs.written v r else d.regs.word r := by
  by_cases hx : x = .control
  · rw [hx, bar0_write32]
    simp only [true_and]
    rw [word_writeControl]
    refine if_congr Iff.rfl rfl ?_
    by_cases hr : Register.control = r
    · rw [if_pos hr.symm, if_pos hr, ← hr]
      rfl
    · rw [if_neg (Ne.symm hr), if_neg hr]
  · rw [if_neg (fun h => hx h.1), regs_write32 d x v hx, word_setWord]
    by_cases hr : x = r
    · rw [if_pos hr.symm, if_pos hr, hr]
    · rw [if_neg (Ne.symm hr), if_neg hr]

/-- Whatever is not a write of 4 or 8 bytes does nothing. -/
theorem bar0_idle (d : Device) (t : Payload)
    (h : t.command ≠ .write ∨ (t.data.length ≠ 4 ∧ t.data.length ≠ 8)) :
    (d.bar0BTransport t).1 = d := by
  unfold Device.bar0BTransport
  split
  · rfl
  · rename_i hlen
    cases hcmd : t.command with
    | read => rfl
    | ignore => rfl
    | write => exact absurd (h.resolve_left (fun hne => hne hcmd)) hlen

theorem gives_eq_none (t : Payload) (r : Register)
    (h : t.command ≠ .write ∨ (t.data.length ≠ 4 ∧ t.data.length ≠ 8)) : t.gives r = none := by
  unfold Payload.gives
  rcases h with hcmd | ⟨h4, h8⟩
  · rw [if_neg hcmd]
  · rw [if_neg h4, if_neg h8, ite_self]

theorem not_sets_of_idle (t : Payload) (bit : Word)
    (h : t.command ≠ .write ∨ (t.data.length ≠ 4 ∧ t.data.length ≠ 8)) : ¬ t.Sets bit := by
  rintro ⟨hcmd, -, hlen, -⟩
  exact h.elim (fun hne => hne hcmd) (fun hne => hne.1 hlen)

/-- What a transaction leaves in each word. -/
theorem word_bar0 (d : Device) (t : Payload) (hperm : Permitted t) (r : Register) :
    (d.bar0BTransport t).1.regs.word r =
      if t.Sets Ctrl.reset then Registers.resetDevice.word r
      else ((t.gives r).map (fun v => d.regs.written v r)).getD (d.regs.word r) := by
  by_cases hidle : t.command ≠ .write ∨ (t.data.length ≠ 4 ∧ t.data.length ≠ 8)
  · rw [bar0_idle d t hidle, gives_eq_none t r hidle, if_neg (not_sets_of_idle t _ hidle),
      Option.map_none, Option.getD_none]
  · rw [not_or, not_not] at hidle
    rcases hidle with ⟨hcmd, hlen⟩
    by_cases h4 : t.data.length = 4
    · have hgives : t.gives r = if t.address = r.offset then some t.value else none := by
        rw [Payload.gives, if_pos hcmd, if_pos h4]
      rw [hgives]
      rcases hdec : Register.decode t.address with _ | x
      -- No register at this address.
      · rw [bar0_write_none d t hcmd hdec, if_neg (not_sets_of_decode t _ hdec (by decide) _),
          if_neg (fun h => nomatch (eq_offset_iff _ _ hdec r).mp h), Option.map_none,
          Option.getD_none]
      · have haddr := offset_of_decode _ _ hdec
        have ht : t = .write32 x.offset t.value := by
          rw [haddr]
          exact eq_write32 t hcmd h4
        have hword := word_write32 d x t.value r
        have hsets := sets_write32_iff x t.value Ctrl.reset
        rw [← ht] at hword hsets
        rw [hword]
        simp only [hsets, ← haddr, eq_offset_iff x.offset _ (decode_offset x) r,
          Option.some.injEq]
        by_cases hx : x = r
        · rw [if_pos hx, if_pos hx, Option.map_some, Option.getD_some]
        · rw [if_neg hx, if_neg hx, Option.map_none, Option.getD_none]
    · have h8 : t.data.length = 8 := by omega
      rcases hperm h8 (by rw [hcmd]; decide) with ⟨m, haddr⟩
      have ht : t = .write64 (Register.matrixPtr m).offset t.value64 := by
        rw [show (Register.matrixPtr m).offset = t.address from haddr.symm]
        exact eq_write64 t hcmd h8
      have hbar := bar0_write64 d (.matrixPtr m) t.value64
      rw [← ht] at hbar
      have hgives : t.gives r = t.givesWide r := by
        rw [Payload.gives, if_pos hcmd, if_neg h4, if_pos h8]
      have hinj : ∀ m', t.address = Operand.offset m' ↔ m' = m := by
        intro m'
        rw [haddr]
        cases m <;> cases m' <;> decide
      rw [hbar, if_neg (fun h => h4 h.2.2.1), hgives]
      refine (word_setMatrixPtr d.regs m t.value64 r).trans ?_
      cases r with
      | matrixPtr m' =>
          simp only [Payload.givesWide, hinj, Register.matrixPtr.injEq, reduceCtorEq, if_false]
          split <;> rfl
      | matrixPtrHigh m' =>
          simp only [Payload.givesWide, hinj, Register.matrixPtrHigh.injEq, reduceCtorEq,
            if_false]
          split <;> rfl
      | _ => rfl

/-- On the words only software writes, it is its operation on the store. -/
theorem word_bar0_stored {δ : Type} (d : Device) (t : Payload) (hperm : Permitted t)
    (r : Register) (hr : r.Stored) :
    (d.bar0BTransport t).1.regs.word r =
      Store.apply 0 d.regs.word (Label.bar0 t : Label δ).op r := by
  have hwritten : ∀ v, d.regs.written v r = v := by
    intro v
    cases r with
    | status => exact absurd hr id
    | intStatus => exact absurd hr id
    | _ => rfl
  rw [word_bar0 d t hperm r, word_resetDevice r hr, Label.op]
  simp only [hwritten, Option.map_id']
  split <;> rfl

/-- The end of a job writes STATUS and INT_STATUS only. -/
theorem word_jobResult (success : Bool) (g : Registers) (r : Register) (hr : r.Stored) :
    (Device.jobResult success g).word r = g.word r := by
  cases r with
  | status => exact absurd hr id
  | intStatus => exact absurd hr id
  | matrixPtr m => cases success <;> cases m <;> rfl
  | matrixPtrHigh m => cases success <;> cases m <;> rfl
  | _ => cases success <;> rfl

/-- Its beginning writes STATUS only. -/
theorem word_jobStart (g : Registers) (r : Register) (hr : r.Stored) :
    (Device.jobStart g).word r = g.word r := by
  cases r with
  | status => exact absurd hr id
  | intStatus => exact absurd hr id
  | matrixPtr m => cases m <;> rfl
  | matrixPtrHigh m => cases m <;> rfl
  | _ => rfl

section

variable [FloatArith]

/-- The compute thread leaves the store alone. -/
theorem word_dispatch (target : DmaTarget) (d d' : Device) (es : List Event)
    (hd : Dispatch target d d' es) (r : Register) (hr : r.Stored) :
    d'.regs.word r = d.regs.word r := by
  cases hd with
  | refuse _ _ _ => exact (word_jobResult false _ r hr).trans (word_jobStart d.regs r hr)
  | readA _ _ _ _ _ _ => exact word_jobStart d.regs r hr
  | fail _ => exact word_jobResult false d.regs r hr
  | finish _ ok _ => exact word_jobResult ok d.regs r hr
  | _ => rfl

/-- Every step is its operation on the store. -/
theorem word_step (d d' : Device) (l : Label DmaTarget) (es : List Event) (hl : l.Permitted)
    (hstep : machine.step d l = some (d', es)) (r : Register) (hr : r.Stored) :
    d'.regs.word r = Store.apply 0 d.regs.word l.op r := by
  cases l with
  | bar0 t =>
      change some _ = some (d', es) at hstep
      simp only [Option.some.injEq, Prod.mk.injEq] at hstep
      rw [← hstep.1]
      exact word_bar0_stored d t hl r hr
  | compute target =>
      cases step_inv d d' _ es hstep with
      | compute _ _ _ _ hd => exact word_dispatch target d d' es hd r hr
  | control => cases step_inv d d' _ es hstep <;> rfl
  | update =>
      cases step_inv d d' _ es hstep
      rfl
  | timeout =>
      cases step_inv d d' _ es hstep
      rfl

/-- After any run of permitted traffic, the words are the contents of the
    store. -/
theorem word_run (ls : List (Label DmaTarget)) (hls : ∀ l ∈ ls, l.Permitted) (d : Device)
    (tr : List Event) (hrun : machine.run Device.constructed ls = some (d, tr)) (r : Register)
    (hr : r.Stored) : d.regs.word r = Store.contents 0 (ls.map Label.op) r := by
  have h := machine.run_relation (fun _ l => l.Permitted)
    (fun d ls _ => ∀ r : Register, r.Stored →
      d.regs.word r = Store.contents 0 (ls.map Label.op) r)
    (fun d ls tr l d' es h hl hstep r hr => by
      rw [word_step d d' l es hl hstep r hr, List.map_append, List.map_singleton,
        Store.contents_concat]
      cases l.op with
      | write f => rw [Store.apply_write, Store.apply_write, h r hr]
      | clear => rfl)
    Device.constructed [] [] (fun r hr => word_resetDevice r hr) ls
    (machine.along_of_forall_mem _ _ ls hls) d tr hrun
  exact h r hr

/-- After any interleaving of permitted traffic with the device's own steps,
    the registers are to software a store of words that a RESET clears, with
    INT_STATUS written by ones to clear. -/
theorem register_file (ls : List (Label DmaTarget)) (hls : ∀ l ∈ ls, l.Permitted) (d : Device)
    (tr : List Event) (hrun : machine.run Device.constructed ls = some (d, tr)) :
    RegisterFile d (ls.map Label.op) where
  read := by
    intro r hr t hcmd haddr hlen
    have hword := word_run ls hls d tr hrun r hr
    rw [read_word d r t hcmd haddr hlen, hword]
    refine ⟨fun v hv => ?_, fun hnone => ?_⟩
    · rw [Store.contents_of_lastGiven 0 r _ v hv]
    · rw [Store.contents_of_not_given 0 r _ hnone]
  wide := by
    intro m t low high hcmd haddr hlen hlow hlowAddr hlowLen hhigh hhighAddr hhighLen
    rw [read_wide d m t hcmd haddr hlen, read_word d (.matrixPtr m) low hlow hlowAddr hlowLen,
      read_word d (.matrixPtrHigh m) high hhigh hhighAddr hhighLen]
    exact ⟨rfl, rfl⟩
  intStatus := by
    intro t hperm
    have hword := word_bar0 d t hperm .intStatus
    refine hword.trans (if_congr Iff.rfl rfl ?_)
    unfold Payload.gives
    by_cases hcmd : t.command = .write
    · by_cases h4 : t.data.length = 4
      · by_cases haddr : t.address = Register.intStatus.offset
        · rw [if_pos hcmd, if_pos h4, if_pos haddr, if_pos ⟨hcmd, h4, haddr⟩]
          rfl
        · rw [if_pos hcmd, if_pos h4, if_neg haddr, if_neg (fun h => haddr h.2.2)]
          rfl
      -- Eight bytes are for the pointer registers.
      · simp only [if_pos hcmd, if_neg h4, Payload.givesWide, ite_self]
        rw [if_neg (fun h => h4 h.2.1)]
        rfl
    · rw [if_neg hcmd, if_neg (fun h => hcmd h.1)]
      rfl
  inert := by
    intro t ht
    refine ⟨?_, fun hlen => ?_⟩
    · rcases ht with hlen | hcmd | ⟨hcmd, haddr⟩
      · exact bar0_idle d t (Or.inr hlen)
      · exact bar0_idle d t (Or.inl (by rw [hcmd]; decide))
      · exact bar0_write_unmapped d t hcmd haddr
    · unfold Device.bar0BTransport
      rw [if_pos hlen]

end

/-- DIM_N, a pointer register whole, and its low half again. -/
def programOne : List (Label DmaTarget) :=
  [.compute acceptAll, .bar0 (.write32 Register.dimN.offset 5),
    .bar0 (.write64 (Operand.offset .a) 0x100000002),
    .bar0 (.write32 (Register.matrixPtr .a).offset 7)]

/-- The half that was not written again keeps what the 8-byte write gave
    it. -/
theorem register_file_one :
    ∃ d tr, (@machine float32Arith).run Device.constructed programOne = some (d, tr) ∧
      (d.bar0BTransport (.read32 (Register.matrixPtrHigh .a).offset)).2.2 =
        { status := .ok, data := (word32 1).map some } := by
  have hperm : ∀ l ∈ programOne, l.Permitted := by
    intro l hl
    simp only [programOne, List.mem_cons, List.not_mem_nil, or_false] at hl
    rcases hl with rfl | rfl | rfl | rfl
    · exact trivial
    · exact fun h => nomatch h
    · exact fun _ _ => ⟨.a, rfl⟩
    · exact fun h => nomatch h
  have hfile := @register_file float32Arith programOne hperm _ _ rfl
  refine ⟨_, _, rfl, (hfile.read (.matrixPtrHigh .a) trivial (.read32 _) rfl rfl rfl).1 1 ?_⟩
  refine ⟨(programOne.take 2).map Label.op,
    (Payload.write64 (Operand.offset .a) 0x100000002).gives,
    [.write (Payload.write32 (Register.matrixPtr .a).offset 7).gives], rfl, by decide, ?_⟩
  intro op hop
  rw [List.mem_singleton.mp hop]
  change (Payload.write32 (Register.matrixPtr .a).offset 7).gives (.matrixPtrHigh .a) = none
  decide

end PcieCosim
