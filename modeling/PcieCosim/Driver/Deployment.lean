import PcieCosim.Driver.Binding
import PcieCosim.Driver.IrqHandler
import PcieCosim.Lib.Shared

/-!
# The Driver and the Endpoint in Use

What the driver does to the BAR until it is removed, on the endpoint from
power-up.

Three entry points of the driver access the BAR: `dev_ioctl`, which any number
of processes may be in at once, `irq_handler`, and `pci_probe`, whose last act
is to write 0xAB to offset 0. On the endpoint that is CONTROL with RESET and
START set, so a probe does start a job. But no entry point ever writes DIM_N,
which a RESET clears, so the job has dimension 0 and is refused before its
first transaction.

All three go through the global `mmio`, which is NULL until a probe assigns it
what `pci_iomap` returns, and again NULL if that failed, which nothing checks.
The device node is there before the assignment, so `dev_ioctl` can find it
NULL. An access through NULL does not reach the endpoint, and what it is
answered with, if anything, is not determined. `pci_remove` makes no access. It
unmaps the BAR and leaves `mmio` as it is; the model stops short of it.

`Idling` is the invariant: DIM_N is 0, no job is in flight, INT_STATUS is 0 and
the interrupt line low, and STATUS reports at most an error. It holds whatever
calls are made, in whatever order and with whatever overlap, so on this
endpoint no call of the driver ever leads to a DMA transaction or an
interrupt.

## Main definitions

* `DriverStep`: An access through `mmio` or its assignment.
* `Mapped`, `mapped`: The endpoint behind `mmio`.
* `Entry`, `EntryReturn`: Calls of the driver's entry points.
* `Answers.assigned`: What a probe assigns to `mmio`.
* `Entry.body`: What calls do to `mmio` and the BAR.
* `Entry.expected`: What they return.
* `deployed`: The driver in use on the endpoint.
* `Access.Tame`: An access that leaves DIM_N zero.
* `Idling`: What holds throughout.

## Theorems

* `mapped_step_inv`: What a step of the endpoint behind `mmio` can be.
* `pciProbe_mmio`, `pciProbe_accesses`: What a probe assigns and writes.
* `tame_write`: Writes elsewhere are tame.
* `entry_tame`, `entry_meets`: What calls of entry points do and return.
* `idling_step`: Every step keeps the invariant.
* `deployment_idles`: The endpoint never works for this driver.
-/

namespace PcieCosim

open Bytes Interaction Kernel Transition

/-- What an entry point does that others see: it makes an access through `mmio`,
    or assigns `mmio`. -/
inductive DriverStep where
  | access (i : Access)
  | assign (p : Pointer)

/-- The endpoint and the driver's `mmio`, which points to its BAR unless it is
    NULL. What accesses through NULL are answered with, one after the other, is
    anything. -/
structure Mapped where
  device : Device
  mmio : Pointer
  garbage : Nat → Word

/-- The steps of the endpoint behind `mmio`. -/
inductive MappedLabel where
  | driver (x : DriverStep)
  | endpoint (l : Label DmaTarget)

/-- The events of the endpoint, and the accesses that do not reach it. -/
inductive MappedEvent where
  | endpoint (e : Event)
  | stray (i : Access) (v : Word)

/-- The event is one of the endpoint. -/
def MappedEvent.Reaches : MappedEvent → Prop
  | .endpoint _ => True
  | .stray _ _ => False

/-- The endpoint behind `mmio`. -/
def mapped [FloatArith] : Machine Mapped MappedLabel MappedEvent where
  step s
    | .driver (.access i) =>
        if s.mmio = 0 then
          some ({ s with garbage := fun n => s.garbage (n + 1) }, [.stray i (s.garbage 0)])
        else
          (machine.step s.device (.bar0 i.payload)).map
            (fun y => ({ s with device := y.1 }, y.2.map .endpoint))
    | .driver (.assign p) => some ({ s with mmio := p }, [])
    | .endpoint l =>
        (machine.step s.device l).map (fun y => ({ s with device := y.1 }, y.2.map .endpoint))

/-- The steps the endpoint takes by itself. -/
def MappedLabel.own : MappedLabel → Bool
  | .driver _ => false
  | .endpoint l => !l.isBar0

/-- The event of the endpoint, if it is one. -/
def MappedEvent.event? : MappedEvent → Option Event
  | .endpoint e => some e
  | .stray _ _ => none

/-- The word an access through `mmio` comes back with. -/
def wordOf (es : List MappedEvent) : Word :=
  match es.head? with
  | some (.stray _ v) => v
  | _ => answerOf (es.filterMap MappedEvent.event?)

theorem wordOf_endpoint (es : List Event) : wordOf (es.map .endpoint) = answerOf es := by
  have hevents : (es.map MappedEvent.endpoint).filterMap MappedEvent.event? = es := by
    rw [List.filterMap_map]
    exact List.filterMap_some
  cases es with
  | nil => rfl
  | cons e es => exact congrArg answerOf hevents

/-- What a step of the endpoint behind `mmio` can be. -/
inductive MappedStep [FloatArith] (s : Mapped) :
    MappedLabel → Mapped → List MappedEvent → Prop where
  | stray (i : Access) (h : s.mmio = 0) :
      MappedStep s (.driver (.access i)) { s with garbage := fun n => s.garbage (n + 1) }
        [.stray i (s.garbage 0)]
  | access (i : Access) (d' : Device) (es : List Event)
      (hstep : machine.step s.device (.bar0 i.payload) = some (d', es)) :
      MappedStep s (.driver (.access i)) { s with device := d' } (es.map .endpoint)
  | assign (p : Pointer) : MappedStep s (.driver (.assign p)) { s with mmio := p } []
  | endpoint (l : Label DmaTarget) (d' : Device) (es : List Event)
      (hstep : machine.step s.device l = some (d', es)) :
      MappedStep s (.endpoint l) { s with device := d' } (es.map .endpoint)

theorem mapped_step_inv [FloatArith] (s s' : Mapped) (l : MappedLabel) (es : List MappedEvent)
    (h : mapped.step s l = some (s', es)) : MappedStep s l s' es := by
  cases l with
  | driver x =>
      cases x with
      | access i =>
          by_cases hnull : s.mmio = 0
          · simp only [mapped, if_pos hnull, Option.some.injEq, Prod.mk.injEq] at h
            rcases h with ⟨rfl, rfl⟩
            exact MappedStep.stray i hnull
          · simp only [mapped, if_neg hnull] at h
            rcases Option.map_eq_some_iff.mp h with ⟨⟨d', es'⟩, hstep, heq⟩
            simp only [Prod.mk.injEq] at heq
            rcases heq with ⟨rfl, rfl⟩
            exact MappedStep.access i d' es' hstep
      | assign p =>
          simp only [mapped, Option.some.injEq, Prod.mk.injEq] at h
          rcases h with ⟨rfl, rfl⟩
          exact MappedStep.assign p
  | endpoint l =>
      simp only [mapped] at h
      rcases Option.map_eq_some_iff.mp h with ⟨⟨d', es'⟩, hstep, heq⟩
      simp only [Prod.mk.injEq] at heq
      rcases heq with ⟨rfl, rfl⟩
      exact MappedStep.endpoint l d' es' hstep

/-- A call of an entry point that accesses the BAR. -/
inductive Entry where
  | devIoctl (c : Call)
  | irqHandler (major devi : Word)
  | pciProbe (a : Answers) (g : Globals Unit)

/-- What a call returns. -/
inductive EntryReturn where
  | devIoctl (r : Result)
  | irqHandler (r : IrqReturn)
  | pciProbe (ret : Int)

/-- What a probe assigns to `mmio`, if it gets to `pci_iomap`. -/
def Answers.assigned (a : Answers) : Option Pointer :=
  if a.enables && a.pciRequestRegion then some a.pciIomap else none

/-- What a call does to `mmio` and the BAR, and what it returns. -/
def Entry.body : Entry → Prog DriverStep Word EntryReturn
  | .devIoctl c =>
      ((PcieCosim.devIoctl c).relabel .access).bind (fun r => .done (.devIoctl r))
  | .irqHandler major devi =>
      ((PcieCosim.irqHandler major devi).relabel .access).bind (fun r => .done (.irqHandler r))
  | .pciProbe a g =>
      (forEach id (a.assigned.toList.map .assign ++
        (PcieCosim.pciProbe () a g).accesses.map .access)).bind
        (fun _ => .done (.pciProbe (PcieCosim.pciProbe () a g).ret))

/-- What a call returns on the endpoint. -/
def Entry.expected : Entry → EntryReturn
  | .devIoctl c => .devIoctl (endpointReturn c)
  | .irqHandler major devi => .irqHandler (if devi = major then .handled else .none)
  | .pciProbe a _ => .pciProbe (if a.succeeds then 0 else 1)

/-- The driver in use by clients `κ`, on the endpoint. -/
def deployed [FloatArith] (κ : Type) [DecidableEq κ] :
    Machine (Pool Mapped κ Entry DriverStep Word EntryReturn) (SharedLabel κ Entry MappedLabel)
      (SharedEvent κ Entry EntryReturn MappedEvent) :=
  shared mapped .driver wordOf MappedLabel.own Entry.body

/-- The endpoint at power-up, the module just loaded and nobody using it. -/
def unused (κ : Type) (garbage : Nat → Word) :
    Pool Mapped κ Entry DriverStep Word EntryReturn :=
  { shared := { device := .constructed, mmio := 0, garbage := garbage }, client := fun _ => none }

/-- The access leaves DIM_N zero. -/
def Access.Tame (i : Access) : Prop :=
  ∀ d : Device, d.regs.regDimN = 0 → (d.bar0BTransport i.payload).1.regs.regDimN = 0

theorem tame_read (offset : Nat) : (Access.ioread32 offset).Tame := by
  intro d h
  rw [ignored_read offset d]
  exact h

/-- A write to any other offset is tame; to CONTROL, because a RESET clears
    DIM_N. -/
theorem tame_write (v : Word) (offset : Nat) (hne : offset ≠ 0x08) (hhigh : offset < 0x100) :
    (Access.iowrite32 v offset).Tame := by
  intro d h
  rw [Access.payload]
  cases hdec : Register.decode (BitVec.ofNat 64 offset) with
  | none =>
      rw [bar0_write_none d _ rfl hdec]
      exact h
  | some x =>
      have haddr := offset_of_decode _ x hdec
      have hx : x ≠ .dimN := by
        rintro rfl
        have hnat := congrArg BitVec.toNat haddr
        rw [BitVec.toNat_ofNat] at hnat
        change 8 = _ at hnat
        omega
      have hword := word_write32 d x v .dimN
      rw [if_neg hx, haddr] at hword
      refine Eq.trans hword ?_
      split
      · rfl
      · exact h

/-- The assignment is that of the probe. -/
theorem pciProbe_mmio {κ : Type} (dev : κ) (a : Answers) (g : Globals κ) :
    (pciProbe dev a g).globals.mmio = a.assigned.getD g.mmio := by
  unfold Answers.assigned
  cases h : a.enables with
  | false => exact (pciProbe_of_not_enables dev a g h).2.2
  | true =>
      rcases isSome_of_enables a h with ⟨n, halloc⟩
      rw [(pciProbe_of_enables dev a g n halloc h).2.2]
      unfold probeBar probeIrq probeChecks
      cases a.pciRequestRegion with
      | false => rfl
      | true =>
          cases a.requestIrq with
          | false => rfl
          | true => cases a.resourceMem <;> rfl

/-- What a probe writes to the BAR. -/
theorem pciProbe_accesses {κ : Type} (dev : κ) (a : Answers) (g : Globals κ) :
    ∀ i ∈ (pciProbe dev a g).accesses, i = .iowrite32 0xAB 0 := by
  have hbar : ∀ g : Globals κ, ∀ i ∈ (probeBar dev a g).accesses, i = .iowrite32 0xAB 0 := by
    intro g i hi
    unfold probeBar probeIrq probeChecks at hi
    cases hreg : a.pciRequestRegion with
    | false => simp only [hreg] at hi; exact absurd hi List.not_mem_nil
    | true =>
        cases hirq : a.requestIrq with
        | false => simp only [hreg, hirq] at hi; exact absurd hi List.not_mem_nil
        | true =>
            cases hmem : a.resourceMem with
            | false => simp only [hreg, hirq, hmem] at hi; exact absurd hi List.not_mem_nil
            | true => simp only [hreg, hirq, hmem] at hi; exact List.mem_singleton.mp hi
  intro i hi
  unfold pciProbe at hi
  cases halloc : a.allocChrdevRegion with
  | none => simp only [halloc] at hi; exact absurd hi List.not_mem_nil
  | some n =>
      unfold probeCdev probeClass probeDevice probePci at hi
      -- Each failure has its label, and none of the labels accesses the BAR.
      cases hcdev : a.cdevAdd with
      | false => simp only [halloc, hcdev] at hi; exact absurd hi List.not_mem_nil
      | true =>
          cases hcls : isErr a.classCreate with
          | true => simp only [halloc, hcdev, hcls] at hi; exact absurd hi List.not_mem_nil
          | false =>
              cases hdev : isErr a.deviceCreate with
              | true =>
                  simp only [halloc, hcdev, hcls, hdev] at hi
                  exact absurd hi List.not_mem_nil
              | false =>
                  cases hen : a.pciEnableDevice with
                  | false =>
                      simp only [halloc, hcdev, hcls, hdev, hen] at hi
                      exact absurd hi List.not_mem_nil
                  | true =>
                      simp only [halloc, hcdev, hcls, hdev, hen] at hi
                      exact hbar _ i hi

section

variable (rely : Access → Word → Prop)

theorem setMatrix_tame (s : Side) (c : Call) :
    (setMatrix s.base c).Meets Access.Tame rely (fun _ => True) := by
  have hbase : 0x10 ≤ s.base ∧ s.base ≤ 0x50 := by
    cases s <;> decide
  unfold setMatrix
  cases c.fault with
  | true => exact trivial
  | false =>
      refine meets_bind _ _ _ _ _ _ (meets_forEach _ _ _ _ (fun x _ => ?_)) (fun _ _ => trivial)
      have hb := cellOffset_bounds s.base x
      exact tame_write _ _ (by omega) (by omega)

theorem devIoctl_tame (c : Call) :
    (devIoctl c).Meets Access.Tame rely (fun _ => True) := by
  rcases hx : c.ioctl with _ | x
  · rw [devIoctl, hx]
    exact trivial
  · rcases ioctl_cases x with rfl | rfl | ⟨s, rfl⟩
    · rw [devIoctl, hx]
      simp only [setOpcode]
      cases c.fault with
      | true => exact trivial
      | false => exact ⟨tame_write _ _ (by decide) (by decide), fun _ _ => trivial⟩
    · rw [devIoctl, hx]
      refine meets_bind _ _ _ _ _ _ (meets_collect_any _ _ _ _ _ (fun x _ => tame_read _) _)
        (fun kbuf _ => ?_)
      unfold copyResult
      cases c.fault <;> exact trivial
    · rw [devIoctl_side c s hx]
      exact setMatrix_tame rely s c

theorem irqHandler_tame (major devi : Word) :
    (irqHandler major devi).Meets Access.Tame rely
      (fun r => r = if devi = major then .handled else .none) := by
  unfold irqHandler
  by_cases hdev : devi = major
  · rw [if_pos hdev, if_pos hdev]
    exact ⟨tame_read _, fun v _ => ⟨tame_write v _ (by decide) (by decide), fun _ _ => rfl⟩⟩
  · rw [if_neg hdev, if_neg hdev]
    exact rfl

end

/-- A tame access, or an assignment. -/
def DriverStep.Tame : DriverStep → Prop
  | .access i => i.Tame
  | .assign _ => True

/-- The answer to an access that reaches the endpoint. -/
def DriverStep.Filled : DriverStep → Word → Prop
  | .access i, v => PcieCosim.Filled i v
  | .assign _, _ => True

/-- What a probe does and returns, however its accesses are answered. -/
theorem probe_tame (rely : DriverStep → Word → Prop) (a : Answers) (g : Globals Unit) :
    (Entry.pciProbe a g).body.Meets DriverStep.Tame rely
      (fun r => r = (Entry.pciProbe a g).expected) := by
  refine meets_bind _ _ _ _ _ _ (meets_forEach _ _ _ _ (fun x hx => ?_)) (fun _ _ => ?_)
  · rcases List.mem_append.mp hx with hx | hx
    · rcases List.mem_map.mp hx with ⟨p, -, rfl⟩
      exact trivial
    · rcases List.mem_map.mp hx with ⟨i, hi, rfl⟩
      rw [pciProbe_accesses () a g i hi]
      exact tame_write _ _ (by decide) (by decide)
  · exact congrArg EntryReturn.pciProbe (pciProbe_ret () a g)

/-- What calls of entry points do, however their accesses are answered. -/
theorem entry_tame (x : Entry) :
    x.body.Meets DriverStep.Tame (fun _ _ => True) (fun _ => True) := by
  cases x with
  | devIoctl c =>
      exact meets_bind _ _ _ _ _ _ (meets_relabel _ _ _ _ _ (devIoctl_tame _ c))
        (fun _ _ => trivial)
  | irqHandler major devi =>
      exact meets_bind _ _ _ _ _ _ (meets_relabel _ _ _ _ _ (irqHandler_tame _ major devi))
        (fun _ _ => trivial)
  | pciProbe a g =>
      exact meets_mono _ _ _ _ _ (fun _ h => h) (fun _ _ => trivial) _ (probe_tame _ a g)

/-- What they return, if their accesses reach the endpoint. -/
theorem entry_meets (x : Entry) :
    x.body.Meets DriverStep.Tame DriverStep.Filled (fun r => r = x.expected) := by
  cases x with
  | devIoctl c =>
      refine meets_bind _ _ _ _ (fun r => r = endpointReturn c) _ ?_ (fun r hr => ?_)
      · exact meets_relabel _ _ _ _ _ (meets_mono _ _ _ _ _ (fun i hi => hi.2) (fun r hr => hr.1)
          _ (meets_and _ _ _ _ _ _ (devIoctl_meets c) (devIoctl_tame _ c)))
      · exact congrArg EntryReturn.devIoctl hr
  | irqHandler major devi =>
      exact meets_bind _ _ _ _ _ _ (meets_relabel _ _ _ _ _ (irqHandler_tame _ major devi))
        (fun r hr => congrArg EntryReturn.irqHandler hr)
  | pciProbe a g => exact probe_tame _ a g

/-- The endpoint has no dimension and no work. -/
structure Idling (d : Device) : Prop where
  dimN : d.regs.regDimN = 0
  outside : d.computeThread.position.inJob = false
  status : d.regs.regStatus = Status.idle ∨ d.regs.regStatus = Status.idle ||| Status.error
  intStatus : d.regs.regIntStatus = 0
  line : d.interrupt = { current := false, next := false }

/-- An event an idling endpoint may show. -/
def IdlingEvent : Event → Prop
  | .dma _ _ _ => False
  | .jobEnded success => success = false
  | _ => True

theorem idling_constructed : Idling .constructed :=
  ⟨rfl, rfl, Or.inl rfl, rfl, rfl⟩

theorem idling_bar0 (d d' : Device) (t : Payload) (es : List Event) (h : Idling d)
    (hdim : d'.regs.regDimN = 0) (he : Bar0Effect d t d' es) :
    Idling d' ∧ ∀ e ∈ es, IdlingEvent e := by
  cases he with
  | start _ _ v =>
      refine ⟨⟨hdim, ?_, h.status, h.intStatus, h.line⟩, fun e he => ?_⟩
      · exact (congrArg Position.inJob (Process.notify_position _ _)).trans h.outside
      · rw [List.mem_singleton.mp he]
        exact trivial
  | reset _ _ =>
      refine ⟨⟨rfl, h.outside, Or.inl rfl, rfl, h.line⟩, fun e he => ?_⟩
      rw [List.mem_singleton.mp he]
      exact trivial
  | restart _ _ =>
      refine ⟨⟨rfl, ?_, Or.inl rfl, rfl, h.line⟩, fun e he => ?_⟩
      · exact (congrArg Position.inJob (Process.notify_position _ _)).trans h.outside
      · simp only [List.mem_cons, List.not_mem_nil, or_false] at he
        rcases he with rfl | rfl <;> exact trivial
  | clear _ v =>
      refine ⟨⟨hdim, h.outside, h.status, ?_, h.line⟩, fun e he => absurd he List.not_mem_nil⟩
      change d.regs.regIntStatus &&& ~~~v = 0
      rw [h.intStatus]
      exact BitVec.zero_and
  | _ =>
      exact ⟨⟨hdim, h.outside, h.status, h.intStatus, h.line⟩,
        fun e he => absurd he List.not_mem_nil⟩

section

variable [FloatArith]

/-- The compute thread can only refuse. -/
theorem idling_dispatch (target : DmaTarget) (d d' : Device) (es : List Event) (h : Idling d)
    (hd : Dispatch target d d' es) : Idling d' ∧ ∀ e ∈ es, IdlingEvent e := by
  have hjob : d.computeThread.position.inJob ≠ true := by
    rw [h.outside]
    exact Bool.false_ne_true
  cases hd with
  | enter _ =>
      exact ⟨⟨h.dimN, rfl, h.status, h.intStatus, h.line⟩,
        fun e he => absurd he List.not_mem_nil⟩
  | spurious _ _ =>
      exact ⟨⟨h.dimN, rfl, h.status, h.intStatus, h.line⟩,
        fun e he => absurd he List.not_mem_nil⟩
  | refuse _ _ _ =>
      refine ⟨⟨h.dimN, rfl, Or.inr rfl, h.intStatus, h.line⟩, fun e he => ?_⟩
      simp only [List.mem_cons, List.not_mem_nil, or_false] at he
      rcases he with rfl | rfl
      · exact trivial
      · exact rfl
  -- Dimension zero is not accepted.
  | readA _ _ n hn _ _ =>
      rw [h.dimN] at hn
      simp only [check_eq_none_iff 0 |>.mpr (Or.inl rfl), reduceCtorEq] at hn
  | readB n a hpos _ _ => exact absurd (by rw [hpos]; rfl) hjob
  | row n a b c i hrows _ => exact absurd (inJob_of_rowsLeft _ n a b c i hrows) hjob
  | writeC n a b c i hrows _ _ _ => exact absurd (inJob_of_rowsLeft _ n a b c i hrows) hjob
  | fail hfail => exact absurd (inJob_of_readFailed _ hfail) hjob
  | finish n ok hpos => exact absurd (by rw [hpos]; rfl) hjob

theorem idling_step (d d' : Device) (l : Label DmaTarget) (es : List Event) (h : Idling d)
    (hl : (!l.isBar0) = true ∨ ∃ i : Access, i.Tame ∧ l = .bar0 i.payload)
    (hstep : machine.step d l = some (d', es)) : Idling d' ∧ ∀ e ∈ es, IdlingEvent e := by
  have hirq : d.regs.irq = false := by
    simp [Registers.irq, h.intStatus]
  have hnone : ∀ e ∈ ([] : List Event), IdlingEvent e := fun e he => absurd he List.not_mem_nil
  rcases hl with hown | ⟨i, htame, rfl⟩
  · cases step_inv d d' l es hstep with
    | bar0 t _ _ _ => exact absurd hown Bool.false_ne_true
    | compute target _ _ _ hd => exact idling_dispatch target d d' es h hd
    | enterController _ _ => exact ⟨⟨h.dimN, h.outside, h.status, h.intStatus, h.line⟩, hnone⟩
    | control _ _ =>
        refine ⟨⟨h.dimN, h.outside, h.status, h.intStatus, ?_⟩, hnone⟩
        change d.interrupt.write d.regs.irq = _
        rw [hirq, h.line]
        rfl
    | update _ =>
        refine ⟨⟨h.dimN, h.outside, h.status, h.intStatus, ?_⟩, hnone⟩
        change d.interrupt.update = _
        rw [h.line]
        rfl
    | timeout _ _ hpos =>
        rw [h.outside] at hpos
        exact absurd hpos Bool.false_ne_true
  · have hd' : (d.bar0BTransport i.payload).1 = d' := by
      change some _ = some (d', es) at hstep
      simp only [Option.some.injEq, Prod.mk.injEq] at hstep
      exact hstep.1
    have hdim := htame d h.dimN
    rw [hd'] at hdim
    cases step_inv d d' _ es hstep with
    | bar0 t _ es₀ he =>
        rcases idling_bar0 d d' _ es₀ h hdim he with ⟨hidle, hes⟩
        refine ⟨hidle, fun e he => ?_⟩
        rcases List.mem_append.mp he with he | he
        · exact hes e he
        · rw [List.mem_singleton.mp he]
          exact trivial

/-- An access that reaches the endpoint is answered by it. -/
theorem mapped_filled (s s' : Mapped) (x : DriverStep) (es : List MappedEvent)
    (hstep : mapped.step s (.driver x) = some (s', es)) (hes : ∀ e ∈ es, e.Reaches) :
    x.Filled (wordOf es) := by
  have hinv := mapped_step_inv s s' _ es hstep
  cases x with
  | access i =>
      cases hinv with
      | stray _ _ => exact absurd (hes _ List.mem_cons_self) id
      | access _ d' es' hstep' =>
          change Filled i _
          rw [wordOf_endpoint]
          exact answers_filler s.device d' i es' hstep'
  | assign p => exact trivial

/-- An event an idling endpoint behind `mmio` may show. -/
def IdlingMapped : MappedEvent → Prop
  | .endpoint e => IdlingEvent e
  | .stray _ _ => True

theorem idling_mapped (s s' : Mapped) (l : MappedLabel) (es : List MappedEvent)
    (h : Idling s.device) (hl : l.own = true ∨ ∃ x : DriverStep, x.Tame ∧ l = .driver x)
    (hstep : mapped.step s l = some (s', es)) :
    Idling s'.device ∧ ∀ e ∈ es, IdlingMapped e := by
  -- A step of the endpoint, whoever makes it.
  have hdevice : ∀ l₀ d' es₀, (!l₀.isBar0) = true ∨
        (∃ i : Access, i.Tame ∧ l₀ = .bar0 i.payload) →
      machine.step s.device l₀ = some (d', es₀) →
      Idling d' ∧ ∀ e ∈ es₀.map MappedEvent.endpoint, IdlingMapped e := by
    intro l₀ d' es₀ hl₀ hstep₀
    rcases idling_step s.device d' l₀ es₀ h hl₀ hstep₀ with ⟨hidle, hes⟩
    refine ⟨hidle, fun e he => ?_⟩
    rcases List.mem_map.mp he with ⟨e₀, he₀, rfl⟩
    exact hes e₀ he₀
  cases mapped_step_inv s s' l es hstep with
  | stray i _ =>
      refine ⟨h, fun e he => ?_⟩
      rw [List.mem_singleton.mp he]
      exact trivial
  | access i d' es₀ hstep₀ =>
      refine hdevice _ d' es₀ (Or.inr ⟨i, ?_, rfl⟩) hstep₀
      rcases hl with hown | ⟨x, htame, heq⟩
      · exact absurd hown Bool.false_ne_true
      · rw [MappedLabel.driver.injEq] at heq
        rw [← heq] at htame
        exact htame
  | assign p => exact ⟨h, fun e he => absurd he List.not_mem_nil⟩
  | endpoint l₀ d' es₀ hstep₀ =>
      refine hdevice l₀ d' es₀ (Or.inl ?_) hstep₀
      rcases hl with hown | ⟨x, -, heq⟩
      · exact hown
      · simp only [reduceCtorEq] at heq

/-- The driver in use on the endpoint from power-up, by any number of clients
    whose calls of `dev_ioctl`, `irq_handler` and `pci_probe` overlap in any
    way, with the endpoint's own steps in between and any host memory. Whether
    or not their accesses find `mmio` mapped, no DMA transaction is ever issued,
    no job succeeds, the interrupt line stays low, DIM_N stays zero and STATUS
    is IDLE, with ERROR or without. If no access goes through a NULL `mmio`,
    every call returns what it returns alone, which for GET_RESULT is a matrix
    of fillers. -/
theorem deployment_idles (κ : Type) [DecidableEq κ] (garbage : Nat → Word)
    (ls : List (SharedLabel κ Entry MappedLabel))
    (P : Pool Mapped κ Entry DriverStep Word EntryReturn)
    (tr : List (SharedEvent κ Entry EntryReturn MappedEvent))
    (hrun : (deployed κ).run (unused κ garbage) ls = some (P, tr)) :
    (∀ m t ok, .device (.endpoint (.dma m t ok)) ∉ tr) ∧
      .device (.endpoint (.jobEnded true)) ∉ tr ∧
      P.shared.device.interrupt.current = false ∧ P.shared.device.regs.regDimN = 0 ∧
      (P.shared.device.regs.regStatus = Status.idle ∨
        P.shared.device.regs.regStatus = Status.idle ||| Status.error) ∧
      ((∀ i v, .device (.stray i v) ∉ tr) →
        ∀ r, .returned r ∈ tr → r.ret = r.call.expected) := by
  have hany : ∀ e, .device e ∈ tr → (fun _ : MappedEvent => True) e := fun _ _ => trivial
  have htame := shared_run entry_tame (fun _ _ _ _ _ _ => trivial) (unused κ garbage) P
    (fun _ => rfl) ls tr hrun hany
  rcases htame.machine with ⟨ls', hrun', hls'⟩
  have hinv := mapped.run_history
    (fun _ l => l.own = true ∨ ∃ x : DriverStep, x.Tame ∧ l = .driver x)
    (fun s tr => Idling s.device ∧ ∀ e ∈ tr, IdlingMapped e)
    (fun s tr l s' es hJ hl hstep => by
      rcases idling_mapped s s' l es hJ.1 hl hstep with ⟨hidle, hes⟩
      refine ⟨hidle, fun e he => ?_⟩
      rcases List.mem_append.mp he with he | he
      · exact hJ.2 e he
      · exact hes e he)
    _ [] ⟨idling_constructed, fun e he => absurd he List.not_mem_nil⟩ ls'
    (mapped.along_of_forall_mem _ _ ls' hls') _ _ hrun'
  rcases hinv with ⟨hidle, hevents⟩
  refine ⟨fun m t ok hmem => ?_, fun hmem => ?_, ?_, hidle.dimN, hidle.status,
    fun hreach => ?_⟩
  · exact hevents _ ((mem_deviceEvents _ tr).mpr hmem)
  · exact absurd (hevents _ ((mem_deviceEvents _ tr).mpr hmem)).symm Bool.false_ne_true
  · rw [hidle.line]
  · refine (shared_run entry_meets (fun s x s' es => mapped_filled s s' x es) (unused κ garbage) P
      (fun _ => rfl) ls tr hrun (fun e he => ?_)).returned
    cases e with
    | endpoint _ => exact trivial
    | stray i v => exact absurd he (hreach i v)

end

/-- A probe maps the BAR and starts a job, which is refused while a process gets
    the result. -/
def probeAndRead : List (SharedLabel Bool Entry MappedLabel) :=
  [.device (.endpoint (.compute acceptAll)), .enter true (.pciProbe .granted (.zero Unit)),
    .access true, .access true,
    .enter false (.devIoctl (Ioctl.callWith .getResult (fun _ _ => 0))), .access false,
    .leave true, .device (.endpoint (.compute acceptAll))] ++
    List.replicate 15 (.access false) ++ [.leave false]

/-- No access of the trace is stray. -/
theorem not_stray_of_all (tr : List (SharedEvent Bool Entry EntryReturn MappedEvent))
    (h : (deviceEvents tr).all (fun e => e.event?.isSome) = true) (i : Access) (v : Word) :
    .device (.stray i v) ∉ tr :=
  fun hmem => absurd (List.all_eq_true.mp h _ ((mem_deviceEvents _ tr).mpr hmem))
    Bool.false_ne_true

/-- The job of the probe is refused without a DMA transaction, and the calls
    return what they should. -/
theorem deployment_idles_probe :
    ∃ P tr, (@deployed float32Arith Bool _).run (unused Bool (fun _ => 7)) probeAndRead =
        some (P, tr) ∧
      P.shared.device.regs.regStatus = Status.idle ||| Status.error ∧
      (∀ m t ok, .device (.endpoint (.dma m t ok)) ∉ tr) ∧
      ∀ r, .returned r ∈ tr → r.ret = r.call.expected := by
  have hrun : ∃ P tr, (@deployed float32Arith Bool _).run (unused Bool (fun _ => 7))
      probeAndRead = some (P, tr) ∧
      P.shared.device.regs.regStatus = Status.idle ||| Status.error ∧
      (deviceEvents tr).all (fun e => e.event?.isSome) = true := ⟨_, _, rfl, rfl, rfl⟩
  rcases hrun with ⟨P, tr, hrun, hstatus, hall⟩
  rcases @deployment_idles float32Arith Bool _ (fun _ => 7) probeAndRead P tr hrun with
    ⟨hdma, -, -, -, -, hreturned⟩
  exact ⟨P, tr, hrun, hstatus, hdma, hreturned (not_stray_of_all tr hall)⟩

end PcieCosim
