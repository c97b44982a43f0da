import PcieCosim.Endpoint.Reset
import PcieCosim.Endpoint.Sessions
import PcieCosim.Endpoint.Timed

/-!
# Recovering the Endpoint

How a host brings the endpoint to a known state, whatever state it is in.

A RESET alone does not: a job in flight goes on under it, writes memory and
STATUS, and a START in the meantime may get lost. STATUS says IDLE all the
while, so a host cannot see the job either. But no job takes longer than the
largest one, and without a START no new one begins. So a host that resets the
endpoint, waits for that long without starting anything, and resets it again
has a quiet endpoint that is ready for jobs.

The argument is on the trace. If a job were still running after the wait, the
clock would give it a beginning. It is not after the RESET, since nothing was
requested then, and not before it, since then the job would be overdue.

## Main definitions

* `jobTime`: The time of the longest job.
* `Event.OfJob`: An event of a job.
* `Unrequested`: What a step does while nothing is requested.
* `Timed.Reached`: A state of a run from the start, with its trace.
* `Recorded`: The endpoint with its trace.
* `Draining`: The endpoint since a RESET without a START.

## Theorems

* `elapsed_le_jobTime`: No wait of a job ends later.
* `unrequested_step`: Without START and request no job begins.
* `draining_due`: A job that is running still is due in time.
* `draining_step`: Every step without START goes on draining.
* `reset_recovers`: RESET, wait, RESET.
-/

namespace PcieCosim

open Bytes Kernel Transition

/-- The time of the longest job on `host_memory`: one of dimension 256 that
    succeeds. -/
def jobTime : Nat := 210 + 2 * 256 * 256

/-- The label is not a CONTROL write with the given bit. -/
def TimedLabel.NotSets (bit : Word) : TimedLabel → Prop
  | .step l => l.NotSets bit
  | .elapse _ => True

instance (bit : Word) : (l : TimedLabel) → Decidable (l.NotSets bit)
  | .step l => inferInstanceAs (Decidable (l.NotSets bit))
  | .elapse _ => isTrue trivial

/-- The event is one of a job: its beginning, a DMA transaction or its end. -/
def Event.OfJob : Event → Prop
  | .jobBegun => True
  | .dma _ _ _ => True
  | .jobEnded _ => True
  | _ => False

/-- No wait of a job ends later than the longest job. -/
theorem elapsed_le_jobTime (pos : Position) (h : pos.RowInside) : pos.elapsed ≤ jobTime := by
  have hdelay : ∀ ok, dmaDelay ok ≤ 70 := by decide
  have hsquare : ∀ n : Dim, n.val * 2 * n.val ≤ 2 * 256 * 256 := by
    intro n
    calc n.val * 2 * n.val ≤ 256 * 2 * 256 :=
          Nat.mul_le_mul (Nat.mul_le_mul_right 2 n.le) n.le
      _ = 2 * 256 * 256 := rfl
  unfold jobTime
  cases pos with
  | entry => exact Nat.zero_le _
  | waitStart => exact Nat.zero_le _
  | readA n ok a =>
      have hok := hdelay ok
      simp only [Position.elapsed]
      omega
  | readB n a ok b =>
      have hok := hdelay ok
      simp only [Position.elapsed]
      omega
  | row n a b c i =>
      have hrows : n.val * 2 * (i + 1) ≤ n.val * 2 * n.val := Nat.mul_le_mul_left _ h
      have hn := hsquare n
      simp only [Position.elapsed]
      omega
  | writeC n ok =>
      have hok := hdelay ok
      have hn := hsquare n
      simp only [Position.elapsed]
      omega

/-- What a step can do to the compute thread while nothing is requested: leave
    it, suspend it, or wake it inside a job. -/
inductive ThreadMove (d d' : Device) : Prop where
  | stay (h : d'.computeThread = d.computeThread)
  | suspend (hr : d'.computeThread.runnable = false) (hpos : d'.computeThread.position ≠ .entry)
  | wake (hjob : d'.computeThread.position.inJob = true)

/-- A step while nothing is requested, with its events. -/
structure Unrequested (d d' : Device) (es : List Event) : Prop where
  requested : d'.regs.computationRequested = false
  thread : ThreadMove d d'
  begun : .jobBegun ∉ es
  ofJob : ∀ e ∈ es, e.OfJob →
    d.computeThread.runnable = true ∧ d.computeThread.position.inJob = true

theorem unrequested_bar0 (d d' : Device) (t : Payload) (es : List Event)
    (hreq : d.regs.computationRequested = false) (hs : ¬ t.Sets Ctrl.start)
    (he : Bar0Effect d t d' es) :
    d'.regs.computationRequested = false ∧ d'.computeThread = d.computeThread ∧
      ∀ e ∈ es, ¬ e.OfJob := by
  have hnil : ∀ e ∈ ([] : List Event), ¬ e.OfJob := fun e he => absurd he List.not_mem_nil
  cases he with
  | start _ hacc _ => exact absurd hacc.1 hs
  | restart _ hs' => exact absurd hs' hs
  | reset _ _ =>
      refine ⟨rfl, rfl, fun e he => ?_⟩
      rw [List.mem_singleton.mp he]
      exact id
  | _ => exact ⟨hreq, rfl, hnil⟩

theorem unrequested_dispatch [FloatArith] (target : DmaTarget) (d d' : Device) (es : List Event)
    (hreq : d.regs.computationRequested = false) (hr : d.computeThread.runnable = true)
    (hd : Dispatch target d d' es) : Unrequested d d' es := by
  have hno : ¬ d.regs.computationRequested = true := by
    rw [hreq]
    exact Bool.false_ne_true
  have hnil : ∀ e ∈ ([] : List Event), e.OfJob →
      d.computeThread.runnable = true ∧ d.computeThread.position.inJob = true :=
    fun e he => absurd he List.not_mem_nil
  cases hd with
  | enter h => exact ⟨hreq, .suspend rfl Position.noConfusion, List.not_mem_nil, hnil⟩
  -- Woken by a START that a RESET has withdrawn.
  | spurious h _ => exact ⟨hreq, .suspend rfl Position.noConfusion, List.not_mem_nil, hnil⟩
  | refuse _ hyes _ => exact absurd hyes hno
  | readA _ hyes _ _ _ _ => exact absurd hyes hno
  | readB n a hpos ok _ =>
      refine ⟨hreq, .suspend rfl Position.noConfusion, ?_, fun _ _ _ => ⟨hr, by rw [hpos]; rfl⟩⟩
      simp only [List.mem_singleton, reduceCtorEq, not_false_eq_true]
  | row n a b c i hrows _ =>
      exact ⟨hreq, .suspend rfl Position.noConfusion, List.not_mem_nil, hnil⟩
  | writeC n a b c i hrows _ ok _ =>
      refine ⟨hreq, .suspend rfl Position.noConfusion, ?_,
        fun _ _ _ => ⟨hr, inJob_of_rowsLeft _ n a b c i hrows⟩⟩
      simp only [List.mem_singleton, reduceCtorEq, not_false_eq_true]
  | fail hfail =>
      refine ⟨hreq, .suspend rfl Position.noConfusion, ?_,
        fun _ _ _ => ⟨hr, inJob_of_readFailed _ hfail⟩⟩
      simp only [List.mem_singleton, reduceCtorEq, not_false_eq_true]
  | finish n ok hpos =>
      refine ⟨(jobResult_requested ok d.regs).trans hreq, .suspend rfl Position.noConfusion, ?_,
        fun _ _ _ => ⟨hr, by rw [hpos]; rfl⟩⟩
      simp only [List.mem_singleton, reduceCtorEq, not_false_eq_true]

/-- Without START and request no job begins, and only a job that is running has
    events. -/
theorem unrequested_step [FloatArith] (d d' : Device) (l : Label DmaTarget) (es : List Event)
    (hreq : d.regs.computationRequested = false) (hl : l.NotSets Ctrl.start)
    (hstep : Step d l d' es) : Unrequested d d' es := by
  have hnil : ∀ e ∈ ([] : List Event), e.OfJob →
      d.computeThread.runnable = true ∧ d.computeThread.position.inJob = true :=
    fun e he => absurd he List.not_mem_nil
  cases hstep with
  | bar0 t _ es' he =>
      rcases unrequested_bar0 d d' t es' hreq hl he with ⟨hreq', hthread, hquiet⟩
      have hall : ∀ e ∈ es' ++ [.bar0 t (d.bar0BTransport t).2.2], ¬ e.OfJob := by
        intro e he
        rcases List.mem_append.mp he with he | he
        · exact hquiet e he
        · rw [List.mem_singleton.mp he]
          exact id
      exact ⟨hreq', .stay hthread, fun hmem => hall _ hmem trivial,
        fun e he hjob => absurd hjob (hall e he)⟩
  | compute target _ _ hr hd => exact unrequested_dispatch target d d' es hreq hr hd
  | timeout _ _ hpos => exact ⟨hreq, .wake hpos, List.not_mem_nil, hnil⟩
  | _ => exact ⟨hreq, .stay rfl, List.not_mem_nil, hnil⟩

/-- The state is reached, with its trace, from the start of the simulation. -/
def Timed.Reached [FloatArith] (mem : List Byte) (s : Timed) (tr : List (Nat × Event)) : Prop :=
  ∃ ls, timed.run (Timed.start mem) ls = some (s, tr)

theorem reached_step [FloatArith] (mem : List Byte) (s : Timed) (tr : List (Nat × Event))
    (l : TimedLabel) (s' : Timed) (es : List (Nat × Event)) (h : Timed.Reached mem s tr)
    (hstep : timed.step s l = some (s', es)) : Timed.Reached mem s' (tr ++ es) := by
  rcases h with ⟨ls, hrun⟩
  exact ⟨ls ++ [l], timed.run_append _ s s' ls [l] tr es hrun
    ((Machine.run_singleton_iff timed s l s' es).mpr hstep)⟩

/-- The endpoint since a RESET at `t₀`, before which its trace was `tr₀`. -/
structure Draining [FloatArith] (mem : List Byte) (t₀ : Nat) (tr₀ : List (Nat × Event))
    (s : Timed) (tr : List (Nat × Event)) : Prop where
  reached : Timed.Reached mem s tr
  requested : s.device.regs.computationRequested = false
  entry : s.device.computeThread.position = .entry → s.device.computeThread.runnable = true
  since : ∃ more, tr = tr₀ ++ more ∧ ∀ e ∈ more, e.2 ≠ .jobBegun ∧
    (e.2.OfJob → e.1 ≤ t₀ + jobTime)
  settled : t₀ < s.now → s.device.computeThread.position.inJob = false →
    s.device.computeThread.runnable = false

/-- A job that is running still is due in time: it began before the RESET. -/
theorem draining_due [FloatArith] (mem : List Byte) (t₀ : Nat) (tr₀ : List (Nat × Event))
    (s : Timed) (tr : List (Nat × Event)) (hpast : ∀ e ∈ tr₀, e.1 ≤ t₀)
    (h : Draining mem t₀ tr₀ s tr)
    (hjob : s.device.computeThread.position.inJob = true) :
    s.due ≤ t₀ + jobTime ∧ s.now ≤ s.due ∧
      (s.device.computeThread.runnable = true → s.now = s.due) := by
  -- The clock gives the job a beginning in the trace, and none is after the RESET.
  rcases h.reached with ⟨ls, hrun⟩
  rcases (clocked_run ls s tr hrun).running hjob with
    ⟨t, -, htime, -, -, -, pre, mid, -, -, htr, -, -⟩
  have hbegun : t ≤ t₀ := by
    have hmem : (t, Event.jobBegun) ∈ tr := by
      rw [htr]
      exact List.mem_append_right _ List.mem_cons_self
    rcases h.since with ⟨more, hmore, hall⟩
    rw [hmore] at hmem
    rcases List.mem_append.mp hmem with hmem | hmem
    · exact hpast _ hmem
    · exact absurd rfl (hall _ hmem).1
  have hle := elapsed_le_jobTime _ htime.inside
  refine ⟨?_, htime.notLate, htime.woken⟩
  rw [htime.due]
  omega

/-- Every step without START goes on draining. -/
theorem draining_step [FloatArith] (mem : List Byte) (t₀ : Nat) (tr₀ : List (Nat × Event))
    (hpast : ∀ e ∈ tr₀, e.1 ≤ t₀) (s : Timed) (tr : List (Nat × Event)) (l : TimedLabel)
    (s' : Timed) (es' : List (Nat × Event)) (h : Draining mem t₀ tr₀ s tr)
    (hl : l.NotSets Ctrl.start) (hstep : timed.step s l = some (s', es')) :
    Draining mem t₀ tr₀ s' (tr ++ es') := by
  have hreach := reached_step mem s tr l s' es' h.reached hstep
  cases l with
  | elapse dt =>
      rcases (timed_elapse_iff s s' dt es').mp hstep with ⟨hmay, rfl, rfl⟩
      rw [List.append_nil] at hreach ⊢
      -- Time passes only when no process is runnable.
      exact ⟨hreach, h.requested, h.entry, h.since, fun _ _ => hmay.1.1⟩
  | step l =>
      rcases (timed_step_iff s s' l es').mp hstep with ⟨a, es, hsys, -, -, rfl, rfl⟩
      have hl' : (l.map (fun _ => boundedTarget s.memory)).NotSets Ctrl.start := by
        cases l with
        | bar0 t => exact hl
        | _ => exact trivial
      have hun := unrequested_step _ _ _ es h.requested hl' (system_step_inv _ _ _ _ hsys).1
      refine ⟨hreach, hun.requested, fun hentry => ?_, ?_, fun hlate hout => ?_⟩
      · cases hun.thread with
        | stay hstay =>
            rw [hstay] at hentry ⊢
            exact h.entry hentry
        | suspend _ hpos => exact absurd hentry hpos
        | wake hjob =>
            rw [hentry] at hjob
            exact absurd hjob Bool.false_ne_true
      · rcases h.since with ⟨more, rfl, hall⟩
        refine ⟨more ++ es.map (fun e => (s.now, e)), List.append_assoc _ _ _, fun e he => ?_⟩
        rcases List.mem_append.mp he with he | he
        · exact hall e he
        · rcases List.mem_map.mp he with ⟨e', he', rfl⟩
          refine ⟨fun hbegun => hun.begun (hbegun ▸ he'), fun hjob => ?_⟩
          -- The thread was inside a job, and woken, so it is now that it was due.
          rcases hun.ofJob e' he' hjob with ⟨hr, hin⟩
          rcases draining_due mem t₀ tr₀ s _ hpast h hin with ⟨hdue, -, hwoken⟩
          exact (hwoken hr).trans_le hdue
      · cases hun.thread with
        | stay hstay =>
            rw [hstay] at hout ⊢
            exact h.settled hlate hout
        | suspend hr _ => exact hr
        | wake hjob =>
            rw [hout] at hjob
            exact absurd hjob Bool.false_ne_true

/-- What is in the trace has happened. -/
theorem past_step [FloatArith] (s : Timed) (tr : List (Nat × Event)) (l : TimedLabel) (s' : Timed)
    (es' : List (Nat × Event)) (h : ∀ e ∈ tr, e.1 ≤ s.now)
    (hstep : timed.step s l = some (s', es')) : ∀ e ∈ tr ++ es', e.1 ≤ s'.now := by
  cases l with
  | elapse dt =>
      rcases (timed_elapse_iff s s' dt es').mp hstep with ⟨-, rfl, rfl⟩
      rw [List.append_nil]
      exact fun e he => Nat.le_add_right_of_le (h e he)
  | step l =>
      rcases (timed_step_iff s s' l es').mp hstep with ⟨a, es, -, -, -, rfl, rfl⟩
      intro e he
      rcases List.mem_append.mp he with he | he
      · exact h e he
      · rcases List.mem_map.mp he with ⟨e', -, rfl⟩
        exact Nat.le_refl _

/-- A thread that has not been initialized is about to be. -/
def EntryRunnable (d : Device) : Prop :=
  d.computeThread.position = .entry → d.computeThread.runnable = true

theorem entryRunnable_step [FloatArith] (d d' : Device) (l : Label DmaTarget) (es : List Event)
    (h : EntryRunnable d) (hstep : Step d l d' es) : EntryRunnable d' := by
  have hnotify : EntryRunnable d.notifyStart := by
    intro hpos
    exact Process.runnable_notify_of_runnable _ _
      (h ((Process.notify_position _ _).symm.trans hpos))
  cases hstep with
  | bar0 t _ es' he =>
      cases he with
      | start _ _ _ => exact hnotify
      | restart _ _ => exact hnotify
      | _ => exact h
  | compute target _ _ _ hd =>
      intro hpos
      cases hd <;> exact Position.noConfusion hpos
  | timeout _ _ _ => exact fun _ => rfl
  | _ => exact h

/-- Every state of the endpoint, with its trace. -/
structure Recorded [FloatArith] (mem : List Byte) (s : Timed) (tr : List (Nat × Event)) :
    Prop where
  reached : Timed.Reached mem s tr
  past : ∀ e ∈ tr, e.1 ≤ s.now
  entry : EntryRunnable s.device

theorem recorded_step [FloatArith] (mem : List Byte) (s : Timed) (tr : List (Nat × Event))
    (l : TimedLabel) (s' : Timed) (es' : List (Nat × Event)) (h : Recorded mem s tr)
    (hstep : timed.step s l = some (s', es')) : Recorded mem s' (tr ++ es') := by
  refine ⟨reached_step mem s tr l s' es' h.reached hstep, past_step s tr l s' es' h.past hstep, ?_⟩
  cases l with
  | elapse dt =>
      rcases (timed_elapse_iff s s' dt es').mp hstep with ⟨-, rfl, -⟩
      exact h.entry
  | step l =>
      rcases (timed_step_iff s s' l es').mp hstep with ⟨a, es, hsys, -, -, rfl, -⟩
      exact entryRunnable_step _ _ _ es h.entry (system_step_inv _ _ _ _ hsys).1

/-- The RESET. -/
theorem draining_reset [FloatArith] (mem : List Byte) (s s' : Timed)
    (tr₀ es' : List (Nat × Event)) (t : Payload) (h : Recorded mem s tr₀)
    (hr : t.Sets Ctrl.reset) (hs : ¬ t.Sets Ctrl.start)
    (hstep : timed.step s (.step (.bar0 t)) = some (s', es')) :
    Draining mem s.now tr₀ s' (tr₀ ++ es') := by
  have hrec := recorded_step mem s tr₀ _ s' es' h hstep
  rcases (timed_step_iff s s' _ es').mp hstep with ⟨a, es, hsys, -, -, rfl, rfl⟩
  rcases bar0_reset s.device t hr hs with ⟨hdev, hevents⟩
  have hbar0 := (machine_step s.toAttached a _ es hsys).1
  change Device.step s.device (.bar0 t) = some (a.device, es) at hbar0
  simp only [Device.step, hdev, hevents, Option.some.injEq, Prod.mk.injEq] at hbar0
  rcases hbar0 with ⟨hfst, rfl⟩
  refine ⟨hrec.reached, ?_, hrec.entry, ⟨_, rfl, fun e he => ?_⟩, fun hlt => ?_⟩
  · change a.device.regs.computationRequested = false
    rw [← hfst]
    rfl
  · -- Neither of the two events is one of a job.
    simp only [List.cons_append, List.nil_append, List.map_cons, List.map_nil, List.mem_cons,
      List.not_mem_nil, or_false] at he
    rcases he with rfl | rfl
    · exact ⟨Event.noConfusion, False.elim⟩
    · exact ⟨Event.noConfusion, False.elim⟩
  · exact absurd hlt (Nat.lt_irrefl _)

/-- A host that resets the endpoint, starts nothing for longer than the longest
    job takes, and resets it again has a quiet endpoint that is ready for jobs,
    whatever happened before and however the kernel dispatches. A job in flight
    at the first RESET is over in the meantime, and no other begins. The
    endpoint is attached to `host_memory`, whose 20 ns are in the time of the
    longest job; runs in which its guard wraps and lets a copy outside the
    memory through have no step there and are not among these. -/
theorem reset_recovers [FloatArith] (mem : List Byte) (ls₀ ls : List TimedLabel) (s s' : Timed)
    (tr₀ tr : List (Nat × Event)) (rst : Payload)
    (hreach : timed.run (Timed.start mem) ls₀ = some (s, tr₀)) (hr : rst.Sets Ctrl.reset)
    (hs : ¬ rst.Sets Ctrl.start) (hls : ∀ l ∈ ls, l.NotSets Ctrl.start)
    (hrun : timed.run s (.step (.bar0 rst) :: ls) = some (s', tr))
    (hwait : s.now + jobTime < s'.now) :
    Parked s'.device ∧
      (∀ e ∈ tr, e.2 ≠ .jobBegun ∧ (e.2.OfJob → e.1 ≤ s.now + jobTime)) ∧
      ∀ again : Payload, again.Sets Ctrl.reset → ¬ again.Sets Ctrl.start →
        Ready (s'.device.bar0BTransport again).1 ∧
          Quiesced (s'.device.bar0BTransport again).1 := by
  have hrec := timed.run_trace (Recorded mem)
    (fun s tr l s' es h hstep => recorded_step mem s tr l s' es h hstep) (Timed.start mem)
    ⟨⟨[], rfl⟩, fun e he => absurd he List.not_mem_nil, fun _ => rfl⟩ ls₀ s tr₀ hreach
  rcases (timed.run_cons_iff s _ ls s' tr).mp hrun with ⟨s₁, es, more, hstep, hrest, rfl⟩
  have hdrain := timed.run_history _ (Draining mem s.now tr₀)
    (fun s tr l s' es h hl hstep => draining_step mem _ tr₀ hrec.past s tr l s' es h hl hstep)
    s₁ (tr₀ ++ es) (draining_reset mem s s₁ tr₀ es rst hrec hr hs hstep) ls
    (timed.along_of_forall_mem _ s₁ ls hls) s' more hrest
  -- A job that is still running would be overdue.
  have hout : s'.device.computeThread.position.inJob = false := by
    by_contra hne
    have hdue := draining_due mem _ tr₀ s' _ hrec.past hdrain (Bool.eq_true_of_not_eq_false hne)
    omega
  -- Time has passed since the RESET, so the thread has been dispatched.
  have hrunnable := hdrain.settled (by omega) hout
  have hparked : Parked s'.device := by
    refine ⟨?_, hrunnable⟩
    cases hpos : s'.device.computeThread.position with
    | entry => exact absurd (hrunnable.symm.trans (hdrain.entry hpos)) Bool.false_ne_true
    | waitStart => rfl
    | _ => rw [hpos] at hout; exact absurd hout.symm Bool.false_ne_true
  refine ⟨hparked, ?_, fun again hr' hs' => ?_⟩
  · rcases hdrain.since with ⟨rest, hsplit, hall⟩
    rw [List.append_assoc, List.append_cancel_left_eq] at hsplit
    rw [hsplit]
    exact hall
  · have hidle : Has Registers.resetDevice.regStatus Status.idle := by decide
    rw [(bar0_reset s'.device again hr' hs').1]
    exact ⟨⟨hparked, hidle⟩, quiesced_of_quiet _ ⟨rfl, rfl, rfl, hout⟩⟩

/-- A job of dimension one up to its first wait. -/
def timedStarted : List TimedLabel :=
  [.step (.compute ())] ++ oneProgram.map .step ++
    [.step (.bar0 (.write32 Register.control.offset Ctrl.start)), .step (.compute ())]

/-- The rest of that job and a wait. -/
def timedDrained : List TimedLabel :=
  [.elapse 70, .step .timeout, .step (.compute ()), .elapse 70, .step .timeout,
    .step (.compute ()), .elapse 2, .step .timeout, .step (.compute ()), .elapse 70,
    .step .timeout, .step (.compute ()), .step .control, .elapse 140000]

/-- The endpoint is reset with a job in its first wait, and is ready after 140
    microseconds. -/
theorem reset_recovers_one :
    ∃ s tr₀ s' tr, (@timed float32Arith).run (Timed.start (List.replicate 12 0)) timedStarted =
        some (s, tr₀) ∧
      s.device.computeThread.position.inJob = true ∧
      (@timed float32Arith).run s
          (.step (.bar0 (.write32 Register.control.offset Ctrl.reset)) :: timedDrained) =
        some (s', tr) ∧
      Ready (s'.device.bar0BTransport (.write32 Register.control.offset Ctrl.reset)).1 := by
  have hruns : ∃ s tr₀ s' tr,
      (@timed float32Arith).run (Timed.start (List.replicate 12 0)) timedStarted =
        some (s, tr₀) ∧
      s.device.computeThread.position.inJob = true ∧
      (@timed float32Arith).run s
          (.step (.bar0 (.write32 Register.control.offset Ctrl.reset)) :: timedDrained) =
        some (s', tr) ∧ s.now + jobTime < s'.now :=
    ⟨_, _, _, _, rfl, rfl, rfl, by decide⟩
  rcases hruns with ⟨s, tr₀, s', tr, hreach, hjob, hrun, hwait⟩
  have hquiet : ∀ l ∈ timedDrained, l.NotSets Ctrl.start := by decide
  exact ⟨s, tr₀, s', tr, hreach, hjob, hrun, ((@reset_recovers float32Arith _ _ timedDrained s s'
    tr₀ tr _ hreach (by decide) (by decide) hquiet hrun hwait).2.2 _ (by decide) (by decide)).1⟩

end PcieCosim
