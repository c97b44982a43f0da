import PcieCosim.Endpoint.Steps

/-!
# The Interrupt Line

The interrupt output is written by a thread of its own, which the device
notifies when it changes INT_STATUS or INT_ENABLE. The line tells the truth
as long as every change is followed by a run of that thread that writes it.

`Latched` is the invariant behind that: when the controller is not runnable,
the value it last wrote is the one the registers call for. Two kinds of steps
can break it. `reset_device` clears both registers and notifies nothing, so a
RESET while an enabled interrupt is raised leaves the line high. And the
controller's first dispatch, which only enters its body, consumes a
notification without writing: everything that happened up to then is merged
into it and lost. `latched_step_iff` says these are the only two.

## Main definitions

* `InterruptTruthful`: With no update outstanding the line is what the
  registers call for.
* `Latched`: The controller has caught up with the registers.
* `InterruptKept`: A step that loses no interrupt update.

## Theorems

* `latched_step_iff`: What a step has to meet to keep the controller caught
  up.
* `truthful_of_latched`: A controller that has caught up tells the truth.
* `interrupt_truthful`: The line tells the truth in every run whose steps
  lose no update.
* `interrupt_untruthful`: Runs that end with the line wrong.
-/

namespace PcieCosim

open Bytes Kernel Transition

/-- If no interrupt update is outstanding, the line is high exactly when an
    enabled interrupt is raised. -/
def InterruptTruthful (d : Device) : Prop :=
  d.interruptController.runnable = false → d.interrupt.Settled →
    d.interrupt.current = d.regs.irq

/-- The controller has caught up with the registers, unless it is runnable;
    before it has entered its body the line has never been high. -/
structure Latched (d : Device) : Prop where
  entry : d.interruptController.position = .entry →
    d.interrupt.current = false ∧ d.interrupt.next = false
  next : d.interruptController.runnable = false → d.interrupt.next = d.regs.irq

/-- No RESET while an enabled interrupt is raised and the controller is not
    about to run, and no first dispatch of the controller while an enabled
    interrupt is raised. A RESET outside this does no harm if what the controller
    wrote has yet to take effect and a write of INT_STATUS or INT_ENABLE in the
    same phase makes it run once more. -/
def InterruptKept (d : Device) : Label DmaTarget → Prop
  | .bar0 t => t.Sets Ctrl.reset → d.interruptController.runnable = false → d.regs.irq = false
  | .control => d.interruptController.position = .entry → d.regs.irq = false
  | _ => True

instance (d : Device) : (l : Label DmaTarget) → Decidable (InterruptKept d l)
  | .bar0 t =>
      inferInstanceAs (Decidable (t.Sets Ctrl.reset → d.interruptController.runnable = false → _))
  | .compute _ => isTrue trivial
  | .control => inferInstanceAs (Decidable (d.interruptController.position = .entry → _))
  | .update => isTrue trivial
  | .timeout => isTrue trivial

theorem truthful_of_latched (d : Device) (h : Latched d) : InterruptTruthful d := by
  intro hidle hsettled
  rw [hsettled]
  exact h.next hidle

theorem latched_constructed : Latched Device.constructed where
  entry := fun _ => ⟨rfl, rfl⟩
  next := fun _ => rfl

/-- A step that changes neither the interrupt registers nor the controller
    keeps it caught up. -/
theorem latched_frame (d d' : Device) (h : Latched d)
    (hirq : d'.regs.irq = d.regs.irq)
    (hctl : d'.interruptController = d.interruptController)
    (hsig : d'.interrupt = d.interrupt) : Latched d' where
  entry := by rw [hctl, hsig]; exact h.entry
  next := by rw [hctl, hsig, hirq]; exact h.next

/-- A notified controller has nothing to have caught up with. -/
theorem latched_of_notified (d d' : Device) (h : Latched d)
    (hpos : d'.interruptController.position = d.interruptController.position)
    (hnotified : d'.interruptController.runnable = true)
    (hsig : d'.interrupt = d.interrupt) : Latched d' where
  entry := by rw [hpos, hsig]; exact h.entry
  next := fun hidle => by rw [hnotified] at hidle; exact nomatch hidle

/-- A RESET notifies nothing, so the line must have been low. -/
theorem latched_reset_iff (d d' : Device) (h : Latched d) (hirq : d'.regs.irq = false)
    (hctl : d'.interruptController = d.interruptController)
    (hsig : d'.interrupt = d.interrupt) :
    Latched d' ↔ (d.interruptController.runnable = false → d.regs.irq = false) := by
  constructor
  · intro h' hidle
    have hnext := h'.next (by rw [hctl]; exact hidle)
    rw [hsig, hirq] at hnext
    rw [← h.next hidle]
    exact hnext
  · intro hlow
    refine ⟨by rw [hctl, hsig]; exact h.entry, fun hidle => ?_⟩
    rw [hctl] at hidle
    rw [hsig, hirq, h.next hidle]
    exact hlow hidle

theorem irq_resetDevice : Registers.resetDevice.irq = false := by decide

theorem latched_bar0_iff (d d' : Device) (t : Payload) (es : List Event) (h : Latched d)
    (he : Bar0Effect d t d' es) : Latched d' ↔ InterruptKept d (.bar0 t) := by
  cases he with
  | quiet hn => exact ⟨fun _ hr => absurd hr (hn _), fun _ => h⟩
  | program hn _ _ _ _ =>
      exact ⟨fun _ hr => absurd hr (hn _), fun _ => latched_frame d _ h rfl rfl rfl⟩
  | clear hn _ =>
      exact ⟨fun _ hr => absurd hr (hn _), fun _ => latched_of_notified d _ h rfl rfl rfl⟩
  | enable hn _ =>
      exact ⟨fun _ hr => absurd hr (hn _), fun _ => latched_of_notified d _ h rfl rfl rfl⟩
  | control hr _ _ => exact ⟨fun _ hr' => absurd hr' hr, fun _ => latched_frame d _ h rfl rfl rfl⟩
  | start hr _ _ => exact ⟨fun _ hr' => absurd hr' hr, fun _ => latched_frame d _ h rfl rfl rfl⟩
  -- `reset_device` clears the interrupt registers and notifies nobody.
  | reset hr _ =>
      have hiff := latched_reset_iff d { d with regs := Registers.resetDevice } h irq_resetDevice
        rfl rfl
      exact hiff.trans ⟨fun hlow _ => hlow, fun hkept => hkept hr⟩
  | restart hr _ =>
      have hiff := latched_reset_iff d
        { d with regs := { Registers.resetDevice with
            computationRequested := true } }.notifyStart h irq_resetDevice rfl rfl
      exact hiff.trans ⟨fun hlow _ => hlow, fun hkept => hkept hr⟩

theorem latched_dispatch [FloatArith] (target : DmaTarget) (d d' : Device) (es : List Event)
    (h : Latched d) (hd : Dispatch target d d' es) : Latched d' := by
  cases hd with
  -- Every end of a job calls `update_interrupt`.
  | refuse _ _ _ => exact latched_of_notified d _ h rfl rfl rfl
  | fail _ => exact latched_of_notified d _ h rfl rfl rfl
  | finish _ _ _ => exact latched_of_notified d _ h rfl rfl rfl
  | _ => exact latched_frame d _ h rfl rfl rfl

theorem latched_step_iff [FloatArith] (d : Device) (l : Label DmaTarget) (d' : Device)
    (es : List Event) (h : Latched d) (hstep : machine.step d l = some (d', es)) :
    Latched d' ↔ InterruptKept d l := by
  cases step_inv d d' l es hstep with
  | bar0 t _ es' he => exact latched_bar0_iff d d' t es' h he
  | compute target _ _ _ hd =>
      exact ⟨fun _ => trivial, fun _ => latched_dispatch target d d' es h hd⟩
  | enterController _ hpos =>
      -- The dispatch writes nothing, so what is on the line has to be right.
      constructor
      · intro h' _
        rw [← h'.next rfl]
        exact (h.entry hpos).2
      · intro hkept
        refine ⟨nofun, fun _ => ?_⟩
        exact ((h.entry hpos).2).trans (hkept hpos).symm
  | control _ hpos =>
      refine ⟨fun _ he => ?_, fun _ => ⟨nofun, fun _ => rfl⟩⟩
      rw [hpos] at he
      exact nomatch he
  | update _ =>
      -- A controller that has never run has written nothing to update.
      refine ⟨fun _ => trivial, fun _ => ⟨fun hpos => ?_, h.next⟩⟩
      exact ⟨(h.entry hpos).2, (h.entry hpos).2⟩
  | timeout _ _ _ => exact ⟨fun _ => trivial, fun _ => latched_frame d _ h rfl rfl rfl⟩

/-- In every run whose steps lose no interrupt update the line tells the truth
    in every state; and those runs are exactly the ones in which the
    controller, whenever it is not runnable, has last written what the
    registers call for. -/
theorem interrupt_truthful [FloatArith] (ls : List (Label DmaTarget)) (d : Device)
    (tr : List Event) (hrun : machine.run Device.constructed ls = some (d, tr)) :
    (machine.Along InterruptKept Device.constructed ls →
      machine.Throughout InterruptTruthful Device.constructed ls) ∧
    (machine.Throughout Latched Device.constructed ls ↔
      machine.Along InterruptKept Device.constructed ls) := by
  -- What is invariant is that the controller has caught up; the truth of the
  -- line follows from it and is itself not kept step by step.
  have hiff := machine.throughout_iff_along InterruptKept Latched
    (fun d l d' es h hstep => latched_step_iff d l d' es h hstep)
    Device.constructed latched_constructed ls d tr hrun
  refine ⟨fun hal => ?_, hiff⟩
  exact machine.throughout_mono Latched InterruptTruthful truthful_of_latched _ ls (hiff.mpr hal)

/-- The interrupt is enabled before the job, and the line tells the truth up
    to its acknowledge. -/
theorem interrupt_truthful_one :
    (@machine float32Arith).Throughout InterruptTruthful Device.constructed
      ([.compute acceptAll, .bar0 (.write32 Register.intEnable.offset 1), .control] ++
        startOne acceptAll ++ finishOne acceptAll ++
        [.control, .update, .bar0 (.write32 Register.intStatus.offset intDone), .control,
          .update]) :=
  (@interrupt_truthful float32Arith
    ([.compute acceptAll, .bar0 (.write32 Register.intEnable.offset 1), .control] ++
      startOne acceptAll ++ finishOne acceptAll ++
      [.control, .update, .bar0 (.write32 Register.intStatus.offset intDone), .control,
        .update]) _ _ rfl).1 (by decide)

/-- A RESET while the line is high leaves it high with nothing enabled, and an
    interrupt enabled just before a job ends, on a controller that has never
    run, leaves it low with the interrupt raised. -/
theorem interrupt_untruthful :
    (∃ d tr, (@machine float32Arith).run Device.constructed
        ([.compute acceptAll, .bar0 (.write32 Register.intEnable.offset 1), .control] ++
          startOne acceptAll ++ finishOne acceptAll ++
          [.control, .update, .bar0 (.write32 Register.control.offset Ctrl.reset)]) =
        some (d, tr) ∧
      d.interruptController.runnable = false ∧ d.interrupt.Settled ∧
      d.interrupt.current = true ∧ d.regs.irq = false) ∧
    (∃ d tr, (@machine float32Arith).run Device.constructed
        (.compute acceptAll :: startOne acceptAll ++ (finishOne acceptAll).dropLast ++
          [.bar0 (.write32 Register.intEnable.offset 1), .compute acceptAll, .control]) =
        some (d, tr) ∧
      d.interruptController.runnable = false ∧ d.interrupt.Settled ∧
      d.interrupt.current = false ∧ d.regs.irq = true) :=
  ⟨⟨_, _, rfl, rfl, rfl, rfl, rfl⟩, ⟨_, _, rfl, rfl, rfl, rfl, rfl⟩⟩

end PcieCosim
