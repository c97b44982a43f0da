import PcieCosim.Endpoint.RegisterFile

/-!
# Wide Writes and Narrow Ones

An 8-byte write compared with the two 4-byte writes of its halves.

`bar0_b_transport` takes writes of 8 bytes at every address, but only the
pointer registers read the 8-byte value. Every other register is then written
with a 4-byte value that is zero, and the word for the register four bytes up
goes nowhere. At an aligned address that matters for the pairs CONTROL and
STATUS, DIM_N and the hole above it, INT_STATUS and INT_ENABLE.

`WideSafe` says when a write to one of these pairs happens to do what its
halves would have done, and `wide_write_iff` that it does so only then.

## Main definitions

* `Device.writeWide`: The 8-byte write.
* `Device.writeNarrow`: The two 4-byte writes.
* `Unwritable`: The addresses a write to which is reported and ignored.
* `Carries`: A half of the value is not lost.
* `WideAgrees`: The 8-byte write is as good as the 4-byte ones.
* `Register.above`: The register four bytes up.
* `WideSafe`: When that is so.

## Theorems

* `aligned_offset`: The registers at aligned addresses.
* `decode_add_four`: What lies four bytes above an aligned address.
* `writeControl_zero_iff`: When a CONTROL write does no more than a zero one.
* `same_of_none`, `same_control_iff`, `same_dimN_iff`, `same_matrixPtr`,
  `same_intStatus_iff`: When the two ways of writing leave the same device.
* `wideAgrees_iff`: To agree, it is enough not to lose the high word.
* `wide_write_iff`: Wide writes agree with narrow ones when they are safe.
* `wide_write_zeroes_dimN`: Not all are.
-/

namespace PcieCosim

open Bytes Kernel Transition

/-- The device after the 8-byte write of `v` at `addr`. -/
def Device.writeWide (d : Device) (addr v : BitVec 64) : Device :=
  (d.bar0BTransport (.write64 addr v)).1

/-- The device after the 4-byte writes of the low word of `v` at `addr` and of
    its high word at `addr + 4`. -/
def Device.writeNarrow (d : Device) (addr v : BitVec 64) : Device :=
  ((d.bar0BTransport (.write32 addr (lowWord v))).1.bar0BTransport
    (.write32 (addr + 4) (highWord v))).1

/-- The default case of the write switch, which prints a warning. -/
def Unwritable (addr : BitVec 64) : Prop :=
  Register.decode addr = none ∨ Register.decode addr = some .status

instance (addr : BitVec 64) : Decidable (Unwritable addr) :=
  inferInstanceAs (Decidable (Register.decode addr = none ∨ Register.decode addr = some .status))

/-- The 8-byte write of `v` at `addr` does not silently lose the word `w` it
    carries for the address `part`: a register there ends as after the 4-byte
    write of `w`, and where there is none to take it, either the word is zero
    or the write is reported. -/
structure Carries (d : Device) (addr v part : BitVec 64) (w : Word) : Prop where
  taken : ∀ r : Register, r ≠ .status → r.offset = part →
    (d.writeWide addr v).regs.word r = (d.bar0BTransport (.write32 part w)).1.regs.word r
  reported : Unwritable part → w = 0 ∨ Unwritable addr

/-- The 8-byte write of `v` at `addr` agrees with the 4-byte writes of its
    halves, in the registers and in the events it leaves notified, and loses
    neither half. -/
structure WideAgrees (d : Device) (addr v : BitVec 64) : Prop where
  same : d.writeWide addr v = d.writeNarrow addr v
  low : Carries d addr v addr (lowWord v)
  high : Carries d addr v (addr + 4) (highWord v)

/-- The register four bytes up, for those at an aligned address. -/
def Register.above : Register → Option Register
  | .control => some .status
  | .matrixPtr m => some (.matrixPtrHigh m)
  | .intStatus => some .intEnable
  | _ => none

/-- When an 8-byte write at an aligned address does what its halves would. -/
def WideSafe (d : Device) (addr v : BitVec 64) : Prop :=
  match Register.decode addr with
  | some .control =>
      -- CONTROL becomes zero. Its low word was to do no more, as zero, or as a
      -- RESET of a device that is in the state RESET leaves, START included.
      highWord v = 0 ∧ (lowWord v = 0 ∨
        (Has (lowWord v) Ctrl.reset ∧
          { d.regs with regControl := 0 } =
            { Registers.resetDevice with
              computationRequested := decide (Has (lowWord v) Ctrl.start) } ∧
          (Has (lowWord v) Ctrl.start → d.computeThread.position.waitsForStart = true →
            d.computeThread.runnable = true)))
  | some .dimN => v = 0
  | some .intStatus =>
      -- No raised bit was to be cleared, and INT_ENABLE was to stay.
      d.regs.regIntStatus &&& lowWord v = 0 ∧ d.regs.regIntEnable = highWord v
  | _ => True

/-- The registers at aligned addresses. -/
theorem aligned_offset (r : Register) (h : r.offset.toNat % 8 = 0) :
    r = .control ∨ r = .dimN ∨ (∃ m, r = .matrixPtr m) ∨ r = .intStatus := by
  cases r with
  | control => exact Or.inl rfl
  | dimN => exact Or.inr (Or.inl rfl)
  | matrixPtr m => exact Or.inr (Or.inr (Or.inl ⟨m, rfl⟩))
  | intStatus => exact Or.inr (Or.inr (Or.inr rfl))
  | matrixPtrHigh m => cases m <;> exact absurd h (by decide)
  | status => exact absurd h (by decide)
  | intEnable => exact absurd h (by decide)

/-- A register four bytes above an aligned address has one below it. -/
theorem exists_below (r : Register) (addr : BitVec 64) (h : addr.toNat % 8 = 0)
    (hr : r.offset = addr + 4) : ∃ x : Register, x.offset = addr := by
  have haddr : addr = r.offset - 4 := by
    rw [hr, BitVec.add_sub_cancel]
  rw [haddr] at h ⊢
  cases r with
  | status => exact ⟨.control, rfl⟩
  | matrixPtrHigh m => exact ⟨.matrixPtr m, by cases m <;> rfl⟩
  | intEnable => exact ⟨.intStatus, rfl⟩
  | matrixPtr m => cases m <;> exact absurd h (by decide)
  | control => exact absurd h (by decide)
  | dimN => exact absurd h (by decide)
  | intStatus => exact absurd h (by decide)

/-- What lies four bytes above an aligned address. -/
theorem decode_add_four (addr : BitVec 64) (h : addr.toNat % 8 = 0) :
    Register.decode (addr + 4) = (Register.decode addr).bind Register.above := by
  cases hdec : Register.decode addr with
  | none =>
      cases hup : Register.decode (addr + 4) with
      | none => rfl
      | some r =>
          rcases exists_below r addr h (offset_of_decode _ _ hup) with ⟨x, rfl⟩
          rw [decode_offset] at hdec
          cases hdec
  | some x =>
      have hx := offset_of_decode _ _ hdec
      rw [← hx] at h ⊢
      rcases aligned_offset x h with rfl | rfl | ⟨m, rfl⟩ | rfl
      · rfl
      · rfl
      · cases m <;> rfl
      · rfl

/-- A write to STATUS or to no register does nothing. -/
theorem write_unwritable (d : Device) (t : Payload) (hcmd : t.command = .write)
    (h : Unwritable t.address) : (d.bar0BTransport t).1 = d := by
  rcases h with hnone | hstatus
  · exact bar0_write_none d t hcmd hnone
  · exact bar0_write_unmapped d t hcmd (Or.inl (offset_of_decode _ _ hstatus).symm)

/-- A CONTROL write of zero only clears CONTROL. -/
theorem writeControl_zero (d : Device) :
    (d.writeControl 0).1 = { d with regs := { d.regs with regControl := 0 } } := rfl

/-- When a CONTROL write does no more than a write of zero. -/
theorem writeControl_zero_iff (d : Device) (w : Word) :
    (d.writeControl 0).1 = (d.writeControl w).1 ↔
      w = 0 ∨ (Has w Ctrl.reset ∧
        { d.regs with regControl := 0 } =
          { Registers.resetDevice with computationRequested := decide (Has w Ctrl.start) } ∧
        (Has w Ctrl.start → d.computeThread.position.waitsForStart = true →
          d.computeThread.runnable = true)) := by
  rw [writeControl_zero]
  by_cases hr : Has w Ctrl.reset
  · have hw : w ≠ 0 := by
      rintro rfl
      exact hr rfl
    simp only [hr, true_and, hw, false_or, Device.writeControl, Device.controlReset, if_true]
    by_cases hs : Has w Ctrl.start
    -- RESET and START: the request is set on fresh registers and notified.
    · have hidle : Has Registers.resetDevice.regStatus Status.idle := by decide
      simp only [Device.controlStart, hs, hidle, if_true, decide_true, forall_const,
        ← Process.notify_eq_self_iff]
      constructor
      · intro h
        exact ⟨congrArg Device.regs h, (congrArg Device.computeThread h).symm⟩
      · rintro ⟨hregs, hthread⟩
        rw [hregs, Device.notifyStart]
        simp only [hthread]
    · simp only [Device.controlStart, hs, if_false, decide_false, false_implies, and_true]
      constructor
      · exact fun h => congrArg Device.regs h
      · intro h
        rw [h]
        rfl
  -- Without RESET, CONTROL keeps the word written.
  · simp only [hr, false_and, or_false]
    constructor
    · intro h
      have hword := congrArg (fun x : Device => x.regs.word .control) h
      rw [← writeControl_zero] at hword
      simp only [word_writeControl, hr, if_true, if_false] at hword
      rw [← hword]
      rfl
    · rintro rfl
      rfl

/-- Clearing bits by writing ones changes nothing if none of them is set. -/
theorem and_not_eq_self_iff (x w : Word) : x = x &&& ~~~w ↔ x &&& w = 0 := by
  have hsplit : x = (x &&& ~~~w) ||| (x &&& w) := by
    rw [← BitVec.and_or_distrib_left, BitVec.or_comm, BitVec.or_not_self, BitVec.and_allOnes]
  constructor
  · intro h
    rw [h, BitVec.and_assoc, BitVec.and_comm (~~~w), BitVec.and_not_self]
    exact BitVec.and_zero
  · intro h
    rw [h] at hsplit
    exact hsplit.trans BitVec.or_zero

/-- Of a write to no register, neither width does anything. -/
theorem same_of_none (d : Device) (addr v : BitVec 64) (h : Register.decode addr = none)
    (hup : Register.decode (addr + 4) = none) : d.writeWide addr v = d.writeNarrow addr v := by
  rw [Device.writeWide, Device.writeNarrow, bar0_write_none d (.write64 addr v) rfl h,
    bar0_write_none d (.write32 addr (lowWord v)) rfl h,
    bar0_write_none d (.write32 (addr + 4) (highWord v)) rfl hup]

theorem same_control_iff (d : Device) (v : BitVec 64) :
    d.writeWide Register.control.offset v = d.writeNarrow Register.control.offset v ↔
      (d.writeControl 0).1 = (d.writeControl (lowWord v)).1 := by
  rw [Device.writeWide, Device.writeNarrow, bar0_write64, bar0_write32,
    write_unwritable _ (.write32 (Register.control.offset + 4) (highWord v)) rfl (Or.inr rfl)]

theorem same_dimN_iff (d : Device) (v : BitVec 64) :
    d.writeWide Register.dimN.offset v = d.writeNarrow Register.dimN.offset v ↔
      lowWord v = 0 := by
  rw [Device.writeWide, Device.writeNarrow, bar0_write64, bar0_write32,
    write_unwritable _ (.write32 (Register.dimN.offset + 4) (highWord v)) rfl (Or.inl rfl)]
  constructor
  · exact fun h => (congrArg (fun x : Device => x.regs.regDimN) h).symm
  · intro h
    rw [h]

/-- The two merges of a pointer register put its value together again. -/
theorem same_matrixPtr (d : Device) (m : Operand) (v : BitVec 64) :
    d.writeWide (Register.matrixPtr m).offset v =
      d.writeNarrow (Register.matrixPtr m).offset v := by
  have hup : (Register.matrixPtr m).offset + 4 = (Register.matrixPtrHigh m).offset := rfl
  have hset : (d.regs.setMatrixPtrLow m (lowWord v)).setMatrixPtrHigh m (highWord v) =
      d.regs.setMatrixPtr m v := by
    refine registers_ext _ _ (fun r => ?_) (by cases m <;> rfl)
    rw [word_setMatrixPtrHigh, word_setMatrixPtrLow, word_setMatrixPtr]
    by_cases hr : r = .matrixPtrHigh m
    · simp only [hr, reduceCtorEq, if_false, if_true]
    · rw [if_neg hr, if_neg hr]
  rw [Device.writeWide, Device.writeNarrow, hup, bar0_write64, bar0_write32, bar0_write32]
  simp only [hset]

theorem same_intStatus_iff (d : Device) (v : BitVec 64) :
    d.writeWide Register.intStatus.offset v = d.writeNarrow Register.intStatus.offset v ↔
      d.regs.regIntStatus &&& lowWord v = 0 ∧ d.regs.regIntEnable = highWord v := by
  have hup : Register.intStatus.offset + 4 = Register.intEnable.offset := rfl
  have hzero : d.regs.regIntStatus &&& ~~~0 = d.regs.regIntStatus := BitVec.and_allOnes
  rw [Device.writeWide, Device.writeNarrow, hup, bar0_write64, bar0_write32, bar0_write32,
    ← and_not_eq_self_iff]
  simp only [Device.clearIntStatus, hzero]
  constructor
  · intro h
    exact ⟨congrArg (fun x : Device => x.regs.regIntStatus) h,
      congrArg (fun x : Device => x.regs.regIntEnable) h⟩
  -- The controller is notified by either, and twice is as good as once.
  · rintro ⟨hstatus, henable⟩
    rw [← hstatus, ← henable]
    rfl

/-- A register at an aligned address is not four bytes above another. -/
theorem ne_of_above (addr : BitVec 64) (h : addr.toNat % 8 = 0) (r x : Register)
    (hr : r.offset = addr + 4) (hx : x.offset.toNat % 8 = 0) : r ≠ x := by
  rintro rfl
  rw [hr] at hx
  bv_omega

/-- The write of the high word leaves the words at aligned addresses. -/
theorem word_write_above (d : Device) (addr : BitVec 64) (h : addr.toNat % 8 = 0) (w : Word)
    (r : Register) (hr : r.offset.toNat % 8 = 0) :
    (d.bar0BTransport (.write32 (addr + 4) w)).1.regs.word r = d.regs.word r := by
  cases hup : Register.decode (addr + 4) with
  | none => rw [bar0_write_none d (.write32 (addr + 4) w) rfl hup]
  | some y =>
      have hy := offset_of_decode _ _ hup
      have hcontrol := ne_of_above addr h y .control hy (by decide)
      rw [← hy, word_write32, if_neg (fun hc => hcontrol hc.1),
        if_neg (ne_of_above addr h y r hy hr)]

/-- The register above an aligned address takes the word written to it,
    whatever was there. -/
theorem word_write_self (d : Device) (addr : BitVec 64) (h : addr.toNat % 8 = 0) (w : Word)
    (r : Register) (hstatus : r ≠ .status) (hr : r.offset = addr + 4) :
    (d.bar0BTransport (.write32 (addr + 4) w)).1.regs.word r = w := by
  have hne := ne_of_above addr h r
  rw [← hr, word_write32, if_neg (fun hc => hne .control hr (by decide) hc.1), if_pos rfl]
  cases r with
  | status => exact absurd rfl hstatus
  | intStatus => exact absurd rfl (hne .intStatus hr (by decide))
  | _ => rfl

/-- A write that does what its halves would loses neither of them in a
    register. -/
theorem wideAgrees_of_same (d : Device) (addr v : BitVec 64) (h : addr.toNat % 8 = 0)
    (hsame : d.writeWide addr v = d.writeNarrow addr v)
    (hhigh : Unwritable (addr + 4) → highWord v = 0 ∨ Unwritable addr) : WideAgrees d addr v where
  same := hsame
  low :=
    { taken := by
        rintro r - rfl
        rw [hsame, Device.writeNarrow, word_write_above _ _ h _ r h]
      reported := Or.inr }
  high :=
    { taken := by
        intro r hstatus hr
        rw [hsame, Device.writeNarrow, word_write_self _ addr h _ r hstatus hr,
          word_write_self _ addr h _ r hstatus hr]
      reported := hhigh }

theorem wideAgrees_iff (d : Device) (addr v : BitVec 64) (h : addr.toNat % 8 = 0) :
    WideAgrees d addr v ↔ d.writeWide addr v = d.writeNarrow addr v ∧
      (Unwritable (addr + 4) → highWord v = 0 ∨ Unwritable addr) :=
  ⟨fun ha => ⟨ha.same, ha.high.reported⟩, fun ha => wideAgrees_of_same d addr v h ha.1 ha.2⟩

theorem status_write64 (d : Device) (addr v : BitVec 64) :
    (d.bar0BTransport (.write64 addr v)).2.2.status = .ok := by
  have hlen : (Payload.write64 addr v).data.length = 8 := length_word64 v
  unfold Device.bar0BTransport
  rw [if_neg (by omega)]
  rfl

/-- Wide writes agree with narrow ones when they are safe, and only then. -/
theorem wide_write_iff (d : Device) (addr v : BitVec 64) (h : addr.toNat % 8 = 0) :
    (d.bar0BTransport (.write64 addr v)).2.2.status = .ok ∧
      (WideAgrees d addr v ↔ WideSafe d addr v) := by
  refine ⟨status_write64 d addr v, ?_⟩
  rw [wideAgrees_iff d addr v h]
  have hup := decode_add_four addr h
  cases hdec : Register.decode addr with
  | none =>
      rw [hdec] at hup
      simp only [WideSafe, hdec, iff_true]
      exact ⟨same_of_none d addr v hdec hup, fun _ => Or.inr (Or.inl hdec)⟩
  | some x =>
      have haddr := offset_of_decode _ _ hdec
      subst haddr
      rcases aligned_offset x h with rfl | rfl | ⟨m, rfl⟩ | rfl
      -- CONTROL, with STATUS above it.
      · have hlost : Unwritable (Register.control.offset + 4) := Or.inr rfl
        have hwritable : ¬ Unwritable Register.control.offset := by decide
        simp only [hlost, hwritable, true_implies, or_false, same_control_iff,
          writeControl_zero_iff]
        exact and_comm
      -- DIM_N, with nothing above it.
      · have hlost : Unwritable (Register.dimN.offset + 4) := Or.inl rfl
        have hwritable : ¬ Unwritable Register.dimN.offset := by decide
        simp only [hlost, hwritable, true_implies, or_false, same_dimN_iff]
        constructor
        · exact fun hz => eq_of_halves v 0 hz.1 hz.2
        · rintro rfl
          exact ⟨rfl, rfl⟩
      · have hwritable : ¬ Unwritable ((Register.matrixPtr m).offset + 4) := by
          cases m <;> decide
        simp only [WideSafe, hdec, iff_true]
        exact ⟨same_matrixPtr d m v, fun hlost => absurd hlost hwritable⟩
      -- INT_STATUS, with INT_ENABLE above it.
      · have hwritable : ¬ Unwritable (Register.intStatus.offset + 4) := by decide
        simp only [hwritable, false_implies, and_true, same_intStatus_iff]
        rfl

/-- A pointer register is written whole. -/
theorem wide_write_matrixPtr :
    WideAgrees Device.initialized (Operand.offset .a) 0x100000002 :=
  (wide_write_iff Device.initialized (Operand.offset .a) 0x100000002 (by decide)).2.mpr trivial

/-- An 8-byte write of 5 to DIM_N of an initialized device is answered OK and
    leaves 0 there, where the 4-byte writes leave 5. -/
theorem wide_write_zeroes_dimN :
    ∃ d tr, (@machine float32Arith).run Device.constructed [.compute acceptAll] = some (d, tr) ∧
      (d.bar0BTransport (.write64 Register.dimN.offset 5)).2.2.status = .ok ∧
      (d.writeWide Register.dimN.offset 5).regs.regDimN = 0 ∧
      (d.writeNarrow Register.dimN.offset 5).regs.regDimN = 5 ∧
      ¬ WideAgrees d Register.dimN.offset 5 := by
  refine ⟨_, _, rfl, rfl, rfl, rfl, fun h => ?_⟩
  have hdim := congrArg (fun x : Device => x.regs.regDimN) h.same
  exact absurd hdim (by decide)

end PcieCosim
