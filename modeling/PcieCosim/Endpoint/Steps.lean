import PcieCosim.Endpoint.Machine

/-!
# What a Step Can Do

One inversion lemma for each kind of step of the endpoint.

The handlers branch on the address, the width and the bits of the value, and
the compute thread on where it was suspended. An invariant does not care about
most of that: what it needs is the short list of effects a step can have.
`Bar0Effect` is that list for a BAR0 transaction, `Dispatch` for a dispatch of
the compute thread, and `Step` for a step of the machine, guards included.
`step_inv` says the list is complete, and every later invariant is a case
analysis on it.

The effects of a BAR0 transaction are told apart by what the code reads the
transaction as. `Payload.Sets` is a 4-byte CONTROL write with a given bit; an
8-byte one reaches the handler with its 4-byte value zero and sets nothing.

## Main definitions

* `Payload.Sets`: A CONTROL write with the given bit set.
* `Label.NotSets`: Any other step.
* `Accepts`: A CONTROL write takes the START-accepting branch.
* `Bar0Effect`: The effects of a BAR0 transaction.
* `RowsLeft`: The thread resumes in the row loop.
* `Dispatch`: The effects of a dispatch of the compute thread.
* `Step`: The effects of a step.

## Theorems

* `check_eq_none_iff`, `check_eq_some`: What the dimension check passes.
* `has_of_has_and`: Masking a value adds no bit.
* `jobResult_status`, `jobResult_requested`: What the end of a job leaves.
* `bar0_effect`: The effects of a BAR0 transaction are complete.
* `bar0_read_frame`: A read has no effect.
* `compute_dispatch`: The effects of a dispatch are complete.
* `dispatch_not_started`: A dispatch accepts no START.
* `step_compute`: A runnable compute thread can be dispatched.
* `step_inv`: The effects of a step are complete.
-/

namespace PcieCosim

open Bytes Kernel Transition

theorem check_eq_none_iff (n : Word) : Dim.check n = none ↔ n.toNat = 0 ∨ 256 < n.toNat := by
  unfold Dim.check
  by_cases h : n = 0 ∨ n > 256
  · simp only [dif_pos h, true_iff]
    bv_omega
  · simp only [dif_neg h, reduceCtorEq, false_iff]
    bv_omega

theorem check_eq_some (n : Word) (k : Dim) (h : Dim.check n = some k) : k.val = n.toNat := by
  unfold Dim.check at h
  split at h
  · simp only [reduceCtorEq] at h
  · simp only [Option.some.injEq] at h
    rw [← h]

theorem has_of_has_and (x y bit : Word) (h : Has (x &&& y) bit) : Has x bit := by
  intro hx
  apply h
  rw [BitVec.and_assoc, BitVec.and_comm y bit, ← BitVec.and_assoc, hx]
  exact BitVec.zero_and

/-- BUSY carries no IDLE bit to clear. -/
theorem jobStart_status (r : Registers) : (Device.jobStart r).regStatus = Status.busy := by
  change Status.busy &&& ~~~Status.idle = Status.busy
  decide

theorem jobResult_status (success : Bool) (r : Registers) :
    (Device.jobResult success r).regStatus =
      if success then Status.idle ||| Status.done else Status.idle ||| Status.error := by
  cases success <;> rfl

theorem jobResult_requested (success : Bool) (r : Registers) :
    (Device.jobResult success r).computationRequested = r.computationRequested := by
  cases success <;> rfl

/-- A 4-byte CONTROL write whose value has the given bit. -/
def Payload.Sets (t : Payload) (bit : Word) : Prop :=
  t.command = .write ∧ t.address = Register.control.offset ∧ t.data.length = 4 ∧
    Has (BitVec.ofNat 32 (leNat t.data)) bit

instance (t : Payload) (bit : Word) : Decidable (t.Sets bit) :=
  inferInstanceAs (Decidable (t.command = .write ∧ t.address = Register.control.offset ∧
    t.data.length = 4 ∧ Has (BitVec.ofNat 32 (leNat t.data)) bit))

/-- The label is not a CONTROL write with the given bit. -/
def Label.NotSets {δ : Type} (bit : Word) : Label δ → Prop
  | .bar0 t => ¬ t.Sets bit
  | _ => True

instance {δ : Type} (bit : Word) : (l : Label δ) → Decidable (l.NotSets bit)
  | .bar0 t => inferInstanceAs (Decidable (¬ t.Sets bit))
  | .compute _ => isTrue trivial
  | .control => isTrue trivial
  | .update => isTrue trivial
  | .timeout => isTrue trivial

/-- The transaction takes the START-accepting branch: START is set while
    STATUS has IDLE, which a RESET in the same write makes sure of. -/
def Accepts (d : Device) (t : Payload) : Prop :=
  t.Sets Ctrl.start ∧ (t.Sets Ctrl.reset ∨ Has d.regs.regStatus Status.idle)

instance (d : Device) (t : Payload) : Decidable (Accepts d t) :=
  inferInstanceAs (Decidable (t.Sets Ctrl.start ∧
    (t.Sets Ctrl.reset ∨ Has d.regs.regStatus Status.idle)))

/-- The effects of a BAR0 transaction on the device and its messages. -/
inductive Bar0Effect (d : Device) (t : Payload) : Device → List Event → Prop where
  | quiet (h : ∀ bit, ¬ t.Sets bit) : Bar0Effect d t d []
  | program (h : ∀ bit, ¬ t.Sets bit) (n : Word) (x y z : BitVec 64) :
      Bar0Effect d t
        { d with regs := { d.regs with
            regDimN := n, regMatrixAPtr := x, regMatrixBPtr := y, regMatrixCPtr := z } } []
  | clear (h : ∀ bit, ¬ t.Sets bit) (v : Word) : Bar0Effect d t (d.clearIntStatus v) []
  | enable (h : ∀ bit, ¬ t.Sets bit) (v : Word) : Bar0Effect d t (d.setIntEnable v) []
  | control (hr : ¬ t.Sets Ctrl.reset) (hs : ¬ Accepts d t) (v : Word) :
      Bar0Effect d t { d with regs := { d.regs with regControl := v } } []
  | start (hr : ¬ t.Sets Ctrl.reset) (hs : Accepts d t) (v : Word) :
      Bar0Effect d t
        { d with regs := { d.regs with
            regControl := v, computationRequested := true } }.notifyStart
        [.computationStarted d.regs.params]
  | reset (hr : t.Sets Ctrl.reset) (hs : ¬ t.Sets Ctrl.start) :
      Bar0Effect d t { d with regs := Registers.resetDevice } [.deviceReset]
  | restart (hr : t.Sets Ctrl.reset) (hs : t.Sets Ctrl.start) :
      Bar0Effect d t
        { d with regs := { Registers.resetDevice with
            computationRequested := true } }.notifyStart
        [.deviceReset, .computationStarted Registers.resetDevice.params]

/-- A transaction that is not a CONTROL write sets no bit. -/
theorem not_sets_of_decode (t : Payload) (r : Option Register)
    (h : Register.decode t.address = r) (hne : r ≠ some .control) (bit : Word) :
    ¬ t.Sets bit := by
  rintro ⟨-, haddr, -, -⟩
  rw [haddr, decode_offset] at h
  exact hne h.symm

theorem setMatrixPtr_effect (d : Device) (t : Payload) (h : ∀ bit, ¬ t.Sets bit) (m : Operand)
    (v : BitVec 64) : Bar0Effect d t { d with regs := d.regs.setMatrixPtr m v } [] := by
  cases m with
  | a => exact Bar0Effect.program h d.regs.regDimN v d.regs.regMatrixBPtr d.regs.regMatrixCPtr
  | b => exact Bar0Effect.program h d.regs.regDimN d.regs.regMatrixAPtr v d.regs.regMatrixCPtr
  | c => exact Bar0Effect.program h d.regs.regDimN d.regs.regMatrixAPtr d.regs.regMatrixBPtr v

/-- The CONTROL case, by which of the two bits the value has. -/
theorem writeControl_effect (d : Device) (t : Payload) (v : Word)
    (hbit : ∀ bit, t.Sets bit ↔ Has v bit) :
    Bar0Effect d t (d.writeControl v).1 (d.writeControl v).2 := by
  by_cases hr : Has v Ctrl.reset
  · by_cases hs : Has v Ctrl.start
    -- RESET comes first and leaves IDLE, so START is always accepted.
    · have hidle : Has Registers.resetDevice.regStatus Status.idle := by decide
      have heq : d.writeControl v =
          ({ d with regs := { Registers.resetDevice with
              computationRequested := true } }.notifyStart,
            [.deviceReset, .computationStarted Registers.resetDevice.params]) := by
        simp only [Device.writeControl, Device.controlReset, Device.controlStart, if_pos hr,
          if_pos hs, if_pos hidle, List.cons_append, List.nil_append]
      rw [heq]
      exact Bar0Effect.restart ((hbit _).mpr hr) ((hbit _).mpr hs)
    · have heq : d.writeControl v =
          ({ d with regs := Registers.resetDevice }, [.deviceReset]) := by
        simp only [Device.writeControl, Device.controlReset, Device.controlStart, if_pos hr,
          if_neg hs, List.cons_append, List.nil_append]
      rw [heq]
      exact Bar0Effect.reset ((hbit _).mpr hr) (fun h => hs ((hbit _).mp h))
  · have hr' : ¬ t.Sets Ctrl.reset := fun h => hr ((hbit _).mp h)
    -- Without RESET it is STATUS as it is that decides.
    by_cases hacc : Has v Ctrl.start ∧ Has d.regs.regStatus Status.idle
    · have heq : d.writeControl v =
          ({ d with regs := { d.regs with
              regControl := v, computationRequested := true } }.notifyStart,
            [.computationStarted d.regs.params]) := by
        simp only [Device.writeControl, Device.controlReset, Device.controlStart, if_neg hr,
          if_pos hacc.1, if_pos hacc.2, List.nil_append]
        rfl
      rw [heq]
      exact Bar0Effect.start hr' ⟨(hbit _).mpr hacc.1, Or.inr hacc.2⟩ v
    · have heq : d.writeControl v = ({ d with regs := { d.regs with regControl := v } }, []) := by
        simp only [Device.writeControl, Device.controlReset, Device.controlStart, if_neg hr,
          List.nil_append]
        by_cases hs : Has v Ctrl.start
        · rw [if_pos hs, if_neg (fun hi => hacc ⟨hs, hi⟩)]
        · rw [if_neg hs]
      rw [heq]
      refine Bar0Effect.control hr' ?_ v
      rintro ⟨hs, hi⟩
      rcases hi with h | h
      · exact hr' h
      · exact hacc ⟨(hbit _).mp hs, h⟩

theorem handleMmioWrite_effect (d : Device) (t : Payload) (hcmd : t.command = .write) :
    Bar0Effect d t (d.handleMmioWrite t.address t.data).1
      (d.handleMmioWrite t.address t.data).2 := by
  unfold Device.handleMmioWrite
  rcases hdec : Register.decode t.address with _ | r
  · exact Bar0Effect.quiet (not_sets_of_decode t _ hdec (by decide))
  · cases r with
    | control =>
        refine writeControl_effect d t _ (fun bit => ?_)
        have haddr : t.address = Register.control.offset := (offset_of_decode _ _ hdec).symm
        -- An 8-byte write to CONTROL carries the value zero.
        by_cases hlen : t.data.length = 4
        · rw [if_pos hlen]
          exact ⟨fun h => h.2.2.2, fun h => ⟨hcmd, haddr, hlen, h⟩⟩
        · rw [if_neg hlen]
          refine ⟨fun h => absurd h.2.2.1 hlen, fun h => absurd ?_ h⟩
          exact BitVec.zero_and
    | status => exact Bar0Effect.quiet (not_sets_of_decode t _ hdec (by decide))
    | dimN =>
        exact Bar0Effect.program (not_sets_of_decode t _ hdec (by decide)) _
          d.regs.regMatrixAPtr d.regs.regMatrixBPtr d.regs.regMatrixCPtr
    | matrixPtr m =>
        have h := not_sets_of_decode t _ hdec (by simp only [ne_eq, Option.some.injEq,
          reduceCtorEq, not_false_eq_true])
        simp only
        split
        · exact setMatrixPtr_effect d t h m _
        · exact setMatrixPtr_effect d t h m _
    | matrixPtrHigh m =>
        have h := not_sets_of_decode t _ hdec (by simp only [ne_eq, Option.some.injEq,
          reduceCtorEq, not_false_eq_true])
        exact setMatrixPtr_effect d t h m _
    | intStatus => exact Bar0Effect.clear (not_sets_of_decode t _ hdec (by decide)) _
    | intEnable => exact Bar0Effect.enable (not_sets_of_decode t _ hdec (by decide)) _

theorem bar0_effect (d : Device) (t : Payload) :
    Bar0Effect d t (d.bar0BTransport t).1 (d.bar0BTransport t).2.1 := by
  unfold Device.bar0BTransport
  by_cases hlen : t.data.length ≠ 4 ∧ t.data.length ≠ 8
  · rw [if_pos hlen]
    exact Bar0Effect.quiet (fun bit h => hlen.1 h.2.2.1)
  · rw [if_neg hlen]
    cases hcmd : t.command with
    | read => exact Bar0Effect.quiet (fun bit h => nomatch hcmd.symm.trans h.1)
    | write => exact handleMmioWrite_effect d t hcmd
    | ignore => exact Bar0Effect.quiet (fun bit h => nomatch hcmd.symm.trans h.1)

/-- A read leaves the device alone and prints nothing. -/
theorem bar0_read_frame (d : Device) (t : Payload) (hcmd : t.command = .read) :
    (d.bar0BTransport t).1 = d ∧ (d.bar0BTransport t).2.1 = [] := by
  unfold Device.bar0BTransport
  rw [hcmd]
  split
  · exact ⟨rfl, rfl⟩
  · exact ⟨rfl, rfl⟩

/-- The thread resumes in the row loop, about to do row `i`. -/
inductive RowsLeft : Position → (n : Dim) → (a b c : FloatMatrix n.val) → Nat → Prop where
  | first (n : Dim) (a b : FloatMatrix n.val) :
      RowsLeft (.readB n a true b) n a b (.zero n.val) 0
  | next (n : Dim) (a b c : FloatMatrix n.val) (i : Nat) :
      RowsLeft (.row n a b c i) n a b c (i + 1)

/-- The thread resumes from a DMA read that was not answered OK. -/
inductive ReadFailed : Position → Prop where
  | a (n : Dim) (a : FloatMatrix n.val) : ReadFailed (.readA n false a)
  | b (n : Dim) (a b : FloatMatrix n.val) : ReadFailed (.readB n a false b)

theorem inJob_of_rowsLeft (p : Position) (n : Dim) (a b c : FloatMatrix n.val) (i : Nat)
    (h : RowsLeft p n a b c i) : p.inJob = true := by
  cases h with
  | first _ _ _ => rfl
  | next _ _ _ _ _ => rfl

theorem inJob_of_readFailed (p : Position) (h : ReadFailed p) : p.inJob = true := by
  cases h with
  | a n a => rfl
  | b n a b => rfl

/-- The effects of a dispatch of the compute thread. -/
inductive Dispatch [FloatArith] (target : DmaTarget) (d : Device) :
    Device → List Event → Prop where
  | enter (h : d.computeThread.position = .entry) :
      Dispatch target d (d.suspendAt .waitStart) []
  | spurious (h : d.computeThread.position = .waitStart)
      (hr : d.regs.computationRequested = false) :
      Dispatch target d (d.suspendAt .waitStart) []
  | refuse (h : d.computeThread.position = .waitStart)
      (hr : d.regs.computationRequested = true) (hn : Dim.check d.regs.regDimN = none) :
      Dispatch target d (Device.endJob false { d with regs := Device.jobStart d.regs }).1
        [.jobBegun, .jobEnded false]
  | readA (h : d.computeThread.position = .waitStart)
      (hr : d.regs.computationRequested = true) (n : Dim)
      (hn : Dim.check d.regs.regDimN = some n) (ok : Bool)
      (hok : ok = (target (d.readPayload .a n.val)).isResponseOk) :
      Dispatch target d
        ({ d with regs := Device.jobStart d.regs }.suspendAt
          (.readA n ok (.ofBuffer n.val (target (d.readPayload .a n.val)).data)))
        [.jobBegun, .dma .a (d.readPayload .a n.val) ok]
  | readB (n : Dim) (a : FloatMatrix n.val)
      (h : d.computeThread.position = .readA n true a) (ok : Bool)
      (hok : ok = (target (d.readPayload .b n.val)).isResponseOk) :
      Dispatch target d
        (d.suspendAt
          (.readB n a ok (.ofBuffer n.val (target (d.readPayload .b n.val)).data)))
        [.dma .b (d.readPayload .b n.val) ok]
  | row (n : Dim) (a b c : FloatMatrix n.val) (i : Nat)
      (h : RowsLeft d.computeThread.position n a b c i) (hi : i < n.val) :
      Dispatch target d (d.suspendAt (.row n a b (computeRow a b c i) i)) []
  | writeC (n : Dim) (a b c : FloatMatrix n.val) (i : Nat)
      (h : RowsLeft d.computeThread.position n a b c i) (hi : ¬ i < n.val) (ok : Bool)
      (hok : ok = (target (d.writePayload .c c)).isResponseOk) :
      Dispatch target d (d.suspendAt (.writeC n ok)) [.dma .c (d.writePayload .c c) ok]
  | fail (h : ReadFailed d.computeThread.position) :
      Dispatch target d (d.endJob false).1 [.jobEnded false]
  | finish (n : Dim) (ok : Bool) (h : d.computeThread.position = .writeC n ok) :
      Dispatch target d (d.endJob ok).1 [.jobEnded ok]

theorem nextRow_dispatch [FloatArith] (target : DmaTarget) (d : Device) (n : Dim)
    (a b c : FloatMatrix n.val) (i : Nat) (h : RowsLeft d.computeThread.position n a b c i) :
    Dispatch target d (d.nextRow target n a b c i).1 (d.nextRow target n a b c i).2 := by
  unfold Device.nextRow
  by_cases hi : i < n.val
  · rw [if_pos hi]
    exact Dispatch.row n a b c i h hi
  · rw [if_neg hi]
    exact Dispatch.writeC n a b c i h hi _ rfl

theorem compute_dispatch [FloatArith] (target : DmaTarget) (d : Device) :
    Dispatch target d (d.compute target).1 (d.compute target).2 := by
  unfold Device.compute
  cases hpos : d.computeThread.position with
  | entry => exact Dispatch.enter hpos
  | waitStart =>
      cases hr : d.regs.computationRequested with
      | false => exact Dispatch.spurious hpos hr
      | true =>
          simp only [if_true, Device.performMatrixMultiply]
          rcases hn : Dim.check d.regs.regDimN with _ | n
          · have hn' : Dim.check (Device.jobStart d.regs).regDimN = none := hn
            simp only [hn']
            exact Dispatch.refuse hpos hr hn
          · have hn' : Dim.check (Device.jobStart d.regs).regDimN = some n := hn
            simp only [hn']
            exact Dispatch.readA hpos hr n hn _ rfl
  | readA n ok a =>
      cases ok with
      | true => exact Dispatch.readB n a hpos _ rfl
      | false => exact Dispatch.fail (by rw [hpos]; exact ReadFailed.a n a)
  | readB n a ok b =>
      cases ok with
      | true => exact nextRow_dispatch target d n a b _ 0 (by rw [hpos]; exact RowsLeft.first n a b)
      | false => exact Dispatch.fail (by rw [hpos]; exact ReadFailed.b n a b)
  | row n a b c i =>
      exact nextRow_dispatch target d n a b c (i + 1) (by rw [hpos]; exact RowsLeft.next n a b c i)
  | writeC n ok => exact Dispatch.finish n ok hpos

/-- Only a BAR0 transaction accepts a START. -/
theorem dispatch_not_started [FloatArith] (target : DmaTarget) (d d' : Device) (es : List Event)
    (hd : Dispatch target d d' es) (p : Params) : .computationStarted p ∉ es := by
  intro hp
  cases hd <;> simp only [List.mem_cons, reduceCtorEq, List.not_mem_nil, or_self] at hp

theorem step_compute [FloatArith] (d : Device) (target : DmaTarget)
    (hr : d.computeThread.runnable = true) :
    machine.step d (.compute target) = some ((d.compute target).1, (d.compute target).2) := by
  change Device.step d (.compute target) = _
  rw [Device.step, if_pos hr]

/-- The effects of a step of the endpoint. -/
inductive Step [FloatArith] (d : Device) : Label DmaTarget → Device → List Event → Prop where
  | bar0 (t : Payload) (d' : Device) (es : List Event) (h : Bar0Effect d t d' es) :
      Step d (.bar0 t) d' (es ++ [.bar0 t (d.bar0BTransport t).2.2])
  | compute (target : DmaTarget) (d' : Device) (es : List Event)
      (hr : d.computeThread.runnable = true) (h : Dispatch target d d' es) :
      Step d (.compute target) d' es
  | enterController (hr : d.interruptController.runnable = true)
      (h : d.interruptController.position = .entry) :
      Step d .control { d with interruptController := suspend .waiting } []
  | control (hr : d.interruptController.runnable = true)
      (h : d.interruptController.position = .waiting) :
      Step d .control
        { d with
          interruptController := suspend .waiting
          interrupt := d.interrupt.write d.regs.irq } []
  | update (h : d.Evaluated) : Step d .update { d with interrupt := d.interrupt.update } []
  | timeout (h : d.Evaluated) (hsig : d.interrupt.Settled)
      (hpos : d.computeThread.position.inJob = true) :
      Step d .timeout { d with computeThread := d.computeThread.wake } []

theorem step_inv [FloatArith] (d d' : Device) (l : Label DmaTarget) (es : List Event)
    (h : machine.step d l = some (d', es)) : Step d l d' es := by
  change Device.step d l = some (d', es) at h
  cases l with
  | bar0 t =>
      simp only [Device.step, Option.some.injEq, Prod.mk.injEq] at h
      rcases h with ⟨rfl, rfl⟩
      exact Step.bar0 t _ _ (bar0_effect d t)
  | compute target =>
      simp only [Device.step] at h
      split at h
      · rename_i hr
        simp only [Option.some.injEq] at h
        have hd := compute_dispatch target d
        rw [h] at hd
        exact Step.compute target d' es hr hd
      · simp only [reduceCtorEq] at h
  | control =>
      simp only [Device.step] at h
      split at h
      · rename_i hr
        simp only [Option.some.injEq, Prod.mk.injEq] at h
        rcases h with ⟨rfl, rfl⟩
        cases hpos : d.interruptController.position with
        | entry =>
            have heq : d.control = { d with interruptController := suspend .waiting } := by
              simp only [Device.control, hpos]
            rw [heq]
            exact Step.enterController hr hpos
        | waiting =>
            have heq : d.control =
                { d with
                  interruptController := suspend .waiting
                  interrupt := d.interrupt.write d.regs.irq } := by
              simp only [Device.control, hpos]
            rw [heq]
            exact Step.control hr hpos
      · simp only [reduceCtorEq] at h
  | update =>
      simp only [Device.step] at h
      split at h
      · rename_i he
        simp only [Option.some.injEq, Prod.mk.injEq] at h
        rcases h with ⟨rfl, rfl⟩
        exact Step.update he
      · simp only [reduceCtorEq] at h
  | timeout =>
      simp only [Device.step] at h
      split at h
      · rename_i he
        simp only [Option.some.injEq, Prod.mk.injEq] at h
        rcases h with ⟨rfl, rfl⟩
        exact Step.timeout he.1 he.2.1 he.2.2
      · simp only [reduceCtorEq] at h

end PcieCosim
