import PcieCosim.Driver.Agreement
import PcieCosim.Endpoint.RegisterFile

/-!
# The Driver's Interrupt Handler on the Endpoint

`irq_handler` acknowledges an interrupt by reading IO_IRQ_STATUS and writing
what it read to IO_IRQ_ACK. On the endpoint the two offsets are not those of an
interrupt register: 0x24 is the high word of MATRIX_C_PTR, and nothing is at
0x64. The handler reads a part of a pointer and writes it nowhere, and the
interrupt it was called for is as pending afterwards as before.

What the endpoint does in the meantime cannot help either. Its own steps only
ever add to INT_STATUS and leave INT_ENABLE alone, which `Raised` says for a
whole run, so an interrupt that is raised stays raised until a BAR0 write takes
it back, and the handler makes none that does.

## Main definitions

* `IrqReturn`: What a handler returns to the kernel.
* `irqHandler`: The handler.
* `servicing`: The handler on the endpoint.
* `Ignored`: An access that leaves the endpoint alone.
* `Raised`: How INT_STATUS and INT_ENABLE can have changed.

## Theorems

* `irqHandler_meets`: The handler's accesses are ignored.
* `raised_step`: What a step does to the interrupt registers.
* `irq_of_raised`: A raised interrupt stays raised.
* `irq_handler_ineffective`: The handler acknowledges nothing.
* `irq_handler_unacknowledged`: A run in which it should have.
-/

namespace PcieCosim

open Bytes Interaction Transition

/-- `irqreturn_t`. -/
inductive IrqReturn where
  | none
  | handled
  deriving DecidableEq

/-- `IO_IRQ_STATUS`. -/
def ioIrqStatus : Nat := 0x24

/-- `IO_IRQ_ACK`. -/
def ioIrqAck : Nat := 0x64

/-- `irq_handler`, where `devi` is the integer at its `dev` argument. The
    message it prints is left out. -/
def irqHandler (major devi : Word) : Prog Access Word IrqReturn :=
  if devi = major then
    .call (.ioread32 ioIrqStatus) (fun irqStatus =>
      .call (.iowrite32 irqStatus ioIrqAck) (fun _ => .done .handled))
  else .done .none

/-- The handler on the endpoint, which goes on with its own steps in
    between. -/
def servicing [FloatArith] :
    Machine (Device × Prog Access Word IrqReturn) (AttachedLabel (Label DmaTarget)) Event :=
  attached machine (fun i : Access => .bar0 i.payload) answerOf (fun l => !l.isBar0)

/-- The access leaves the endpoint as it is. -/
def Ignored (i : Access) : Prop := ∀ d : Device, (d.bar0BTransport i.payload).1 = d

/-- What can have become of the interrupt registers of `d` in `d'`, after the
    events `tr`: INT_STATUS has bits added, and none if no job ended. -/
structure Raised (d d' : Device) (tr : List Event) : Prop where
  enable : d'.regs.regIntEnable = d.regs.regIntEnable
  status : ∃ added, d'.regs.regIntStatus = d.regs.regIntStatus ||| added
  unchanged : (∀ success, .jobEnded success ∉ tr) →
    d'.regs.regIntStatus = d.regs.regIntStatus

theorem raised_refl (d : Device) : Raised d d [] where
  enable := rfl
  status := ⟨0, (BitVec.or_zero).symm⟩
  unchanged := fun _ => rfl

theorem raised_trans (d d' d'' : Device) (tr tr' : List Event) (h : Raised d d' tr)
    (h' : Raised d' d'' tr') : Raised d d'' (tr ++ tr') where
  enable := h'.enable.trans h.enable
  status := by
    rcases h.status with ⟨x, hx⟩
    rcases h'.status with ⟨y, hy⟩
    exact ⟨x ||| y, by rw [hy, hx, BitVec.or_assoc]⟩
  unchanged := by
    intro hno
    rw [h'.unchanged (fun s hs => hno s (List.mem_append_right _ hs)),
      h.unchanged (fun s hs => hno s (List.mem_append_left _ hs))]

/-- A step that leaves the two registers alone. -/
theorem raised_frame (d d' : Device) (tr : List Event)
    (hstatus : d'.regs.regIntStatus = d.regs.regIntStatus)
    (henable : d'.regs.regIntEnable = d.regs.regIntEnable) : Raised d d' tr where
  enable := henable
  status := ⟨0, hstatus.trans (BitVec.or_zero).symm⟩
  unchanged := fun _ => hstatus

/-- A raised interrupt stays raised. -/
theorem irq_of_raised (d d' : Device) (tr : List Event) (h : Raised d d' tr)
    (hirq : d.regs.irq = true) : d'.regs.irq = true := by
  rcases h.status with ⟨added, hadded⟩
  simp only [Registers.irq, bne_iff_ne, ne_eq] at hirq ⊢
  rw [hadded, h.enable]
  intro hzero
  refine hirq (BitVec.eq_of_getLsbD_eq (fun i hi => ?_))
  -- A bit of the old conjunction is one of the new.
  have hbit := congrArg (fun v => v.getLsbD i) hzero
  simp only [BitVec.getLsbD_and, BitVec.getLsbD_or] at hbit ⊢
  grind

theorem ignored_read (offset : Nat) : Ignored (.ioread32 offset) :=
  fun d => (bar0_read_frame d _ rfl).1

/-- A write to an offset the endpoint does not decode is ignored. -/
theorem ignored_write (v : Word) (offset : Nat) (hlow : 0x30 ≤ offset) (hhigh : offset < 0x100) :
    Ignored (.iowrite32 v offset) :=
  fun d => bar0_write_none d _ rfl (decode_beyond offset hlow hhigh)

/-- For its own device, the handler makes accesses that the endpoint ignores
    and returns IRQ_HANDLED. -/
theorem irqHandler_meets (major : Word) :
    (irqHandler major major).Meets Ignored (fun _ _ => True) (fun r => r = .handled) := by
  rw [irqHandler, if_pos rfl]
  exact ⟨ignored_read _, fun v _ => ⟨ignored_write v _ (by decide) (by decide), fun _ _ => rfl⟩⟩

section

variable [FloatArith]

/-- A dispatch adds to INT_STATUS only where a job ends. -/
theorem raised_dispatch (target : DmaTarget) (d d' : Device) (es : List Event)
    (hd : Dispatch target d d' es) : Raised d d' es := by
  cases hd with
  | finish n ok _ =>
      cases ok with
      | true =>
          refine ⟨rfl, ⟨intDone, rfl⟩, fun hno => absurd ?_ (hno true)⟩
          exact List.mem_cons_self
      | false => exact raised_frame _ _ _ rfl rfl
  | _ => exact raised_frame _ _ _ rfl rfl

/-- Whatever the endpoint does by itself, and an access it ignores. -/
theorem raised_step (d d' : Device) (l : Label DmaTarget) (es : List Event)
    (hl : (!l.isBar0) = true ∨ ∃ i, Ignored i ∧ l = .bar0 i.payload)
    (hstep : machine.step d l = some (d', es)) : Raised d d' es := by
  rcases hl with hown | ⟨i, hi, rfl⟩
  · cases step_inv d d' l es hstep with
    | bar0 t _ _ _ => exact nomatch hown
    | compute target _ _ _ hd => exact raised_dispatch target d d' es hd
    | enterController _ _ => exact raised_frame _ _ _ rfl rfl
    | control _ _ => exact raised_frame _ _ _ rfl rfl
    | update _ => exact raised_frame _ _ _ rfl rfl
    | timeout _ _ _ => exact raised_frame _ _ _ rfl rfl
  · change some _ = some (d', es) at hstep
    simp only [Option.some.injEq, Prod.mk.injEq] at hstep
    rw [hi d] at hstep
    rw [← hstep.1]
    exact raised_frame _ _ _ rfl rfl

/-- A run of the handler is one that can only have raised interrupts. -/
theorem servicing_run (major : Word) (ls : List (AttachedLabel (Label DmaTarget)))
    (d d' : Device) (prog : Prog Access Word IrqReturn) (tr : List Event)
    (hrun : servicing.run (d, irqHandler major major) ls = some ((d', prog), tr)) :
    prog.Meets Ignored (fun _ _ => True) (fun r => r = .handled) ∧ Raised d d' tr := by
  rcases attached_run machine (fun i : Access => .bar0 i.payload) answerOf (fun l => !l.isBar0)
    Ignored (fun _ _ => True) _ (fun _ _ _ _ _ => trivial) ls d d' _ prog tr
    (irqHandler_meets major) hrun with ⟨hmeets, ls', hrun', hls'⟩
  refine ⟨hmeets, ?_⟩
  have h := machine.run_history
    (fun _ l => (!l.isBar0) = true ∨ ∃ i : Access, Ignored i ∧ l = .bar0 i.payload)
    (fun x tr => Raised d x tr)
    (fun x tr l x' es h hl hstep => raised_trans d x x' tr es h (raised_step x x' l es hl hstep))
    d [] (raised_refl d) ls' (machine.along_of_forall_mem _ d ls' hls') d' tr hrun'
  exact h

/-- With an interrupt pending, the handler can always be brought to its end and
    then reports IRQ_HANDLED, but at any moment of its run and whatever else
    the endpoint has done the interrupt is still pending. Unless a job has
    ended, INT_STATUS is what it was. The endpoint ignores both accesses of the
    handler. -/
theorem irq_handler_ineffective (major : Word) (ls : List (AttachedLabel (Label DmaTarget)))
    (d d' : Device) (prog : Prog Access Word IrqReturn) (tr : List Event)
    (hirq : d.regs.irq = true)
    (hrun : servicing.run (d, irqHandler major major) ls = some ((d', prog), tr)) :
    (∃ ls' d'' ret tr', servicing.run (d', prog) ls' = some ((d'', .done ret), tr')) ∧
      (∀ ret, prog = .done ret → ret = .handled) ∧
      d'.regs.irq = true ∧
      ((∀ success, .jobEnded success ∉ tr) → d'.regs.regIntStatus = d.regs.regIntStatus) ∧
      Ignored (.ioread32 ioIrqStatus) ∧ ∀ v, Ignored (.iowrite32 v ioIrqAck) := by
  rcases servicing_run major ls d d' prog tr hrun with ⟨hmeets, hraised⟩
  refine ⟨?_, ?_, irq_of_raised d d' tr hraised hirq, hraised.unchanged, ignored_read _,
    fun v => ignored_write v _ (by decide) (by decide)⟩
  · exact attached_completes machine (fun i : Access => .bar0 i.payload) answerOf
      (fun l => !l.isBar0) (fun _ _ => ⟨_, _, rfl⟩) prog d'
  · rintro ret rfl
    exact hmeets

end

/-- A job of dimension one with its interrupt enabled. -/
def completeOne : List (Label DmaTarget) :=
  [.compute acceptAll, .bar0 (.write32 Register.intEnable.offset intDone), .control] ++
    startOne acceptAll ++ finishOne acceptAll

/-- The interrupt of a job is pending after the handler, with the endpoint's
    interrupt controller running between the two accesses. -/
theorem irq_handler_ineffective_one :
    ∃ d tr d' tr', (@machine float32Arith).run Device.constructed completeOne = some (d, tr) ∧
      (@servicing float32Arith).run (d, irqHandler 240 240) [.access, .device .control, .access] =
        some ((d', .done .handled), tr') ∧
      d'.regs.irq = true := by
  have hruns : ∃ d tr d' tr',
      (@machine float32Arith).run Device.constructed completeOne = some (d, tr) ∧
      d.regs.irq = true ∧
      (@servicing float32Arith).run (d, irqHandler 240 240) [.access, .device .control, .access] =
        some ((d', .done .handled), tr') := ⟨_, _, _, _, rfl, rfl, rfl⟩
  rcases hruns with ⟨d, tr, d', tr', hjob, hirq, hrun⟩
  exact ⟨d, tr, d', tr', hjob, hrun,
    (@irq_handler_ineffective float32Arith 240 _ d d' _ tr' hirq hrun).2.2.1⟩

/-- A job completes with its interrupt enabled, the handler runs with nothing
    in between, and the interrupt is as pending as before. -/
theorem irq_handler_unacknowledged :
    ∃ d tr d' tr', (@machine float32Arith).run Device.constructed completeOne = some (d, tr) ∧
      d.regs.regIntStatus &&& d.regs.regIntEnable ≠ 0 ∧
      (@servicing float32Arith).run (d, irqHandler 240 240) [.access, .access] =
        some ((d', .done .handled), tr') ∧
      (∀ success, .jobEnded success ∉ tr') ∧
      d'.regs.regIntStatus &&& d'.regs.regIntEnable ≠ 0 := by
  refine ⟨_, _, _, _, rfl, by decide, rfl, fun success hmem => ?_, by decide⟩
  rcases List.mem_cons.mp hmem with h | h
  · exact nomatch h
  · exact nomatch List.mem_singleton.mp h

end PcieCosim
