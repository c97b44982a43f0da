import PcieCosim.Endpoint.Discipline
import PcieCosim.Endpoint.Handshake
import PcieCosim.Endpoint.Reset

/-!
# Polling STATUS

A host that has written START polls STATUS for DONE or ERROR. The compute
thread clears the previous outcome when it begins the job, which is when it is
dispatched and not when START is accepted, so between the two the outcome of
the previous job can still be read.

`Fresh` is what the host relies on, as a property of the trace: a STATUS read
that shows DONE or ERROR after an accepted START comes after the end of a job
begun since. In a run without RESET, `polling_fresh_iff` says that it holds
exactly if no STATUS read falls between an accepted START and the dispatch it
waits for while STATUS still shows an outcome.

## Main definitions

* `EndedIn`: A job begins and ends in a piece of trace.
* `Fresh`: Every outcome read after a START is of a job begun since.
* `ReadsStatus`: A STATUS read the device answers.
* `PollKept`: A step that reads no stale outcome.
* `Polled`: The relation of device and trace the argument carries.

## Theorems

* `fresh_append_of_not_read`: Other events cannot break freshness.
* `fresh_append_read`: What a STATUS read has to meet.
* `not_fresh_append`: When an outcome is stale.
* `polled_step`: A step without RESET keeps the relation.
* `fresh_step_iff`: What a step has to meet to keep the trace fresh.
* `polling_fresh_iff`: STATUS is fresh exactly if no stale outcome is read.
* `polling_stale`: A run that reads one.
-/

namespace PcieCosim

open Bytes Kernel Transition

/-- STATUS shows the outcome of a job. -/
def ShowsOutcome (v : Word) : Prop := Has v Status.done ∨ Has v Status.error

instance (v : Word) : Decidable (ShowsOutcome v) :=
  inferInstanceAs (Decidable (Has v Status.done ∨ Has v Status.error))

/-- A job begins and later ends in the given piece of trace. -/
def EndedIn (tr : List Event) : Prop :=
  ∃ m₁ m₂ m₃ s, tr = m₁ ++ .jobBegun :: (m₂ ++ .jobEnded s :: m₃)

/-- A STATUS read that shows an outcome after an accepted START comes after
    the end of a job that began after that START. -/
def Fresh (tr : List Event) : Prop :=
  ∀ pre p mid t r post v, tr = (pre ++ .computationStarted p :: mid) ++ .bar0 t r :: post →
    ReadsOk .status t r → r.word = some v → ShowsOutcome v → EndedIn mid

/-- A STATUS read that the device answers. -/
def ReadsStatus (t : Payload) : Prop :=
  t.command = .read ∧ t.address = Register.status.offset ∧
    (t.data.length = 4 ∨ t.data.length = 8)

instance (t : Payload) : Decidable (ReadsStatus t) :=
  inferInstanceAs (Decidable (t.command = .read ∧ t.address = Register.status.offset ∧
    (t.data.length = 4 ∨ t.data.length = 8)))

/-- No STATUS read while a request is pending and STATUS still shows the
    outcome of an earlier job. -/
def PollKept (d : Device) : Label DmaTarget → Prop
  | .bar0 t =>
      ReadsStatus t → d.regs.computationRequested = true → ¬ ShowsOutcome d.regs.regStatus
  | _ => True

instance (d : Device) : (l : Label DmaTarget) → Decidable (PollKept d l)
  | .bar0 t =>
      inferInstanceAs (Decidable (ReadsStatus t → d.regs.computationRequested = true → _))
  | .compute _ => isTrue trivial
  | .control => isTrue trivial
  | .update => isTrue trivial
  | .timeout => isTrue trivial

theorem endedIn_append (tr es : List Event) (h : EndedIn tr) : EndedIn (tr ++ es) := by
  rcases h with ⟨m₁, m₂, m₃, s, rfl⟩
  refine ⟨m₁, m₂, m₃ ++ es, s, ?_⟩
  simp only [List.append_assoc, List.cons_append]

/-- A job that has begun ends when its end is shown. -/
theorem endedIn_of_begun (tr es : List Event) (s : Bool) (hbegun : .jobBegun ∈ tr)
    (hended : .jobEnded s ∈ es) : EndedIn (tr ++ es) := by
  rcases List.append_of_mem hbegun with ⟨m₁, m₂, rfl⟩
  rcases List.append_of_mem hended with ⟨e₁, e₂, rfl⟩
  refine ⟨m₁, m₂ ++ e₁, e₂, s, ?_⟩
  simp only [List.append_assoc, List.cons_append]

theorem begun_of_endedIn (tr : List Event) (h : EndedIn tr) : .jobBegun ∈ tr := by
  rcases h with ⟨m₁, m₂, m₃, s, rfl⟩
  exact List.mem_append_right _ List.mem_cons_self

theorem fresh_of_append (tr es : List Event) (h : Fresh (tr ++ es)) : Fresh tr := by
  intro pre p mid t r post v hsplit
  refine h pre p mid t r (post ++ es) v ?_
  rw [hsplit, List.append_assoc, List.cons_append]

/-- Only an answered STATUS read can break freshness. -/
theorem fresh_append_of_not_read (tr es : List Event)
    (hno : ∀ t r, .bar0 t r ∈ es → ¬ ReadsOk .status t r) : Fresh (tr ++ es) ↔ Fresh tr := by
  refine ⟨fresh_of_append tr es, fun h pre p mid t r post v hsplit hread => ?_⟩
  -- The read is an old one, or one of the new events, which are none.
  rcases append_eq_split tr es _ post _ hsplit with ⟨post', htr, -⟩ | hmem
  · exact h pre p mid t r post' v htr hread
  · exact absurd hread (hno t r hmem)

/-- What a STATUS read has to meet: where it shows an outcome, a job has begun
    and ended since every START. -/
theorem fresh_append_read (tr : List Event) (t : Payload) (r : Response) (v : Word)
    (hread : ReadsOk .status t r) (hv : r.word = some v) :
    Fresh (tr ++ [.bar0 t r]) ↔
      Fresh tr ∧ (ShowsOutcome v →
        ∀ pre p mid, tr = pre ++ .computationStarted p :: mid → EndedIn mid) := by
  constructor
  · intro h
    refine ⟨fresh_of_append tr _ h, fun hout pre p mid hsplit => ?_⟩
    exact h pre p mid t r [] v (by rw [hsplit]) hread hv hout
  · rintro ⟨h, hall⟩ pre p mid t' r' post v' hsplit hread' hv' hout
    -- Only the last event is new, and it is the read itself.
    rcases concat_eq_split tr _ post _ _ hsplit with ⟨post', htr, -⟩ | ⟨htr, hlast, -⟩
    · exact h pre p mid t' r' post' v' htr hread' hv' hout
    · rw [Event.bar0.injEq] at hlast
      rcases hlast with ⟨rfl, rfl⟩
      rw [hv, Option.some.injEq] at hv'
      rw [← hv'] at hout
      exact hall hout pre p mid htr.symm

/-- An outcome read before any job has begun since the START is stale. -/
theorem not_fresh_append (tr : List Event) (p : Params) (mid : List Event) (t : Payload)
    (r : Response) (v : Word) (hmid : .jobBegun ∉ mid) (hread : ReadsOk .status t r)
    (hv : r.word = some v) (hout : ShowsOutcome v) :
    ¬ Fresh (tr ++ (.computationStarted p :: mid ++ [.bar0 t r])) := by
  intro hf
  have hended := hf tr p mid t r [] v (List.append_assoc _ _ _).symm hread hv hout
  exact hmid (begun_of_endedIn mid hended)

/-- What a run without RESET relates: a pending request is a START no job has
    begun since, and every other START has had its job, which has ended unless
    the thread is still in it. -/
structure Polled (d : Device) (tr : List Event) : Prop where
  busy : BusyInJob d
  pending : d.regs.computationRequested = true →
    ∃ pre p post, tr = pre ++ .computationStarted p :: post ∧ .jobBegun ∉ post
  served : ∀ pre p post, tr = pre ++ .computationStarted p :: post →
    d.regs.computationRequested = true ∨
      (.jobBegun ∈ post ∧ (d.computeThread.position.inJob = false → EndedIn post))
  outcome : ShowsOutcome d.regs.regStatus → d.computeThread.position.inJob = false

theorem polled_constructed : Polled Device.constructed [] where
  busy := nofun
  pending := nofun
  served := fun pre _ post hnil => absurd hnil (nil_ne_split pre post _)
  outcome := fun _ => rfl

theorem outcome_of_busy (d : Device) (h : BusyInJob d) (hout : ShowsOutcome d.regs.regStatus) :
    d.computeThread.position.inJob = false := by
  by_contra hin
  rw [(h (Bool.eq_true_of_not_eq_false hin)).1] at hout
  exact absurd hout (by decide)

/-- A step that leaves the thread inside or outside its job, and shows neither
    a START nor the beginning of a job, keeps the relation. -/
theorem polled_frame (d d' : Device) (tr es : List Event) (h : Polled d tr)
    (hbusy : BusyInJob d')
    (hreq : d'.regs.computationRequested = d.regs.computationRequested)
    (hin : d'.computeThread.position.inJob = d.computeThread.position.inJob)
    (hstart : ∀ p, .computationStarted p ∉ es) (hbegun : .jobBegun ∉ es) :
    Polled d' (tr ++ es) where
  busy := hbusy
  pending := by
    intro hr
    rcases h.pending (by rw [← hreq]; exact hr) with ⟨pre, p, post, rfl, hnot⟩
    refine ⟨pre, p, post ++ es, by rw [List.append_assoc, List.cons_append], fun hmem => ?_⟩
    rcases List.mem_append.mp hmem with hmem | hmem
    · exact hnot hmem
    · exact hbegun hmem
  served := by
    intro pre p post hsplit
    rcases append_eq_split tr es pre post _ hsplit with ⟨post', htr, rfl⟩ | hmem
    · rw [hreq, hin]
      rcases h.served pre p post' htr with hr | ⟨hb, hended⟩
      · exact Or.inl hr
      · exact Or.inr ⟨List.mem_append_left _ hb, fun hout => endedIn_append _ _ (hended hout)⟩
    · exact absurd hmem (hstart p)
  outcome := outcome_of_busy d' hbusy

/-- An accepted START is pending. -/
theorem polled_start (d' : Device) (tr es : List Event) (hbusy : BusyInJob d')
    (hreq : d'.regs.computationRequested = true) (p : Params) (es₁ es₂ : List Event)
    (hes : es = es₁ ++ .computationStarted p :: es₂) (hbegun : .jobBegun ∉ es₂) :
    Polled d' (tr ++ es) where
  busy := hbusy
  pending := fun _ => ⟨tr ++ es₁, p, es₂, by rw [hes, List.append_assoc], hbegun⟩
  served := fun _ _ _ _ => Or.inl hreq
  outcome := outcome_of_busy d' hbusy

/-- The job serves every START before it. -/
theorem polled_served (d d' : Device) (tr es : List Event) (h : Polled d tr)
    (hbusy : BusyInJob d') (hreq : d'.regs.computationRequested = false)
    (hstart : ∀ p, .computationStarted p ∉ es)
    (hserved : ∀ post, (d.regs.computationRequested = true ∨ .jobBegun ∈ post) →
      .jobBegun ∈ post ++ es ∧
        (d'.computeThread.position.inJob = false → EndedIn (post ++ es))) :
    Polled d' (tr ++ es) where
  busy := hbusy
  pending := fun hr => by rw [hreq] at hr; exact nomatch hr
  served := by
    intro pre p post hsplit
    rcases append_eq_split tr es pre post _ hsplit with ⟨post', htr, rfl⟩ | hmem
    · exact Or.inr (hserved post' ((h.served pre p post' htr).imp id And.left))
    · exact absurd hmem (hstart p)
  outcome := outcome_of_busy d' hbusy

theorem polled_bar0 (d d' : Device) (t : Payload) (tr es : List Event) (r : Response)
    (h : Polled d tr) (hbusy : BusyInJob d') (hl : ¬ t.Sets Ctrl.reset)
    (he : Bar0Effect d t d' es) : Polled d' (tr ++ (es ++ [.bar0 t r])) := by
  have hin := congrArg Position.inJob (position_bar0 d d' t es he)
  cases he with
  | start _ _ _ =>
      -- The transaction's own answer follows the START it accepts.
      refine polled_start _ tr _ hbusy rfl d.regs.params [] [.bar0 t r] rfl (fun hmem => ?_)
      exact nomatch List.mem_singleton.mp hmem
  | reset hr _ => exact absurd hr hl
  | restart hr _ => exact absurd hr hl
  | _ =>
      refine polled_frame d _ tr _ h hbusy rfl hin (fun p hmem => ?_) (fun hmem => ?_)
      · exact nomatch List.mem_singleton.mp hmem
      · exact nomatch List.mem_singleton.mp hmem

theorem polled_dispatch [FloatArith] (target : DmaTarget) (d d' : Device)
    (tr es : List Event) (h : Polled d tr) (hbusy : BusyInJob d')
    (hd : Dispatch target d d' es) : Polled d' (tr ++ es) := by
  have hstart := dispatch_not_started target d d' es hd
  -- Inside a job nothing is pending, so its end serves every START so far.
  have hend : ∀ ok, d.computeThread.position.inJob = true →
      Polled (d.endJob ok).1 (tr ++ [.jobEnded ok]) := by
    intro ok hin
    have hreq := (h.busy hin).2
    refine polled_served d _ tr _ h nofun ((jobResult_requested ok d.regs).trans hreq)
      (fun p hp => nomatch List.mem_singleton.mp hp) (fun post hpost => ?_)
    rcases hpost with hr | hb
    · rw [hreq] at hr
      exact nomatch hr
    · exact ⟨List.mem_append_left _ hb,
        fun _ => endedIn_of_begun post _ ok hb List.mem_cons_self⟩
  cases hd with
  | enter hpos =>
      exact polled_frame d _ tr [] h hbusy rfl (by rw [hpos]; rfl) hstart List.not_mem_nil
  | spurious hpos _ =>
      exact polled_frame d _ tr [] h hbusy rfl (by rw [hpos]; rfl) hstart List.not_mem_nil
  | refuse _ _ _ =>
      refine polled_served d _ tr _ h hbusy rfl hstart (fun post _ => ?_)
      exact ⟨List.mem_append_right _ List.mem_cons_self, fun _ => ⟨post, [], [], false, rfl⟩⟩
  | readA _ _ _ _ _ _ =>
      refine polled_served d _ tr _ h hbusy rfl hstart (fun post _ => ?_)
      exact ⟨List.mem_append_right _ List.mem_cons_self, nofun⟩
  | readB n a hpos ok _ =>
      refine polled_frame d _ tr _ h hbusy rfl (by rw [hpos]; rfl) hstart (fun hmem => ?_)
      exact nomatch List.mem_singleton.mp hmem
  | row n a b c i hrows _ =>
      exact polled_frame d _ tr [] h hbusy rfl (inJob_of_rowsLeft _ n a b c i hrows).symm hstart
        List.not_mem_nil
  | writeC n a b c i hrows _ ok _ =>
      refine polled_frame d _ tr _ h hbusy rfl (inJob_of_rowsLeft _ n a b c i hrows).symm hstart
        (fun hmem => ?_)
      exact nomatch List.mem_singleton.mp hmem
  | fail hfail => exact hend false (inJob_of_readFailed _ hfail)
  | finish n ok hpos => exact hend ok (by rw [hpos]; rfl)

theorem polled_step [FloatArith] (d : Device) (tr : List Event) (l : Label DmaTarget)
    (d' : Device) (es : List Event) (h : Polled d tr) (hl : l.NotSets Ctrl.reset)
    (hstep : machine.step d l = some (d', es)) : Polled d' (tr ++ es) := by
  have hbusy := busyInJob_step d l d' es h.busy hl hstep
  cases step_inv d d' l es hstep with
  | bar0 t _ es' he => exact polled_bar0 d d' t tr es' _ h hbusy hl he
  | compute target _ _ _ hd => exact polled_dispatch target d d' tr es h hbusy hd
  | _ =>
      exact polled_frame d _ tr [] h hbusy rfl rfl (fun _ => List.not_mem_nil) List.not_mem_nil

/-- A pending request is exactly what makes an outcome stale. -/
theorem outcome_served_iff (d : Device) (tr : List Event) (h : Polled d tr)
    (hout : ShowsOutcome d.regs.regStatus) :
    (∀ pre p mid, tr = pre ++ .computationStarted p :: mid → EndedIn mid) ↔
      d.regs.computationRequested = false := by
  constructor
  · intro hall
    by_contra hreq
    -- The pending START has had no job, so no job of its own has ended.
    rcases h.pending (Bool.eq_true_of_not_eq_false hreq) with ⟨pre, p, post, htr, hnot⟩
    exact hnot (begun_of_endedIn post (hall pre p post htr))
  · intro hreq pre p mid htr
    rcases h.served pre p mid htr with hr | ⟨-, hended⟩
    · rw [hreq] at hr
      exact nomatch hr
    · exact hended (h.outcome hout)

/-- The STATUS reads the device answers are the ones answered OK. -/
theorem readsStatus_iff (d : Device) (t : Payload) :
    ReadsStatus t ↔ ReadsOk .status t (d.bar0BTransport t).2.2 := by
  constructor
  · rintro ⟨hcmd, haddr, hlen⟩
    refine ⟨hcmd, haddr, ?_⟩
    unfold Device.bar0BTransport
    rw [if_neg (by omega), hcmd]
  · intro hread
    exact ⟨hread.1, hread.2.1, (bar0_read d t .status hread).1⟩

theorem fresh_step_iff [FloatArith] (d : Device) (tr : List Event) (l : Label DmaTarget)
    (d' : Device) (es : List Event) (h : Polled d tr)
    (hstep : machine.step d l = some (d', es)) :
    Fresh (tr ++ es) ↔ Fresh tr ∧ PollKept d l := by
  cases step_inv d d' l es hstep with
  | bar0 t _ es' he =>
      by_cases hread : ReadsStatus t
      · -- The read is the only event, and it shows STATUS as it is.
        have hes : es' = [] := by
          change Device.step d (.bar0 t) = _ at hstep
          simp only [Device.step, Option.some.injEq, Prod.mk.injEq] at hstep
          rw [(bar0_read_frame d t hread.1).2] at hstep
          exact (List.append_inj_left' hstep.2 rfl).symm
        have hok := (readsStatus_iff d t).mp hread
        rw [hes, List.nil_append, fresh_append_read tr t _ _ hok (bar0_read_status d t hok)]
        refine and_congr_right (fun _ => ?_)
        constructor
        · intro hall _ hreq hout
          rw [(outcome_served_iff d tr h hout).mp (hall hout)] at hreq
          exact Bool.false_ne_true hreq
        · intro hkept hout
          refine (outcome_served_iff d tr h hout).mpr ?_
          by_contra hreq
          exact hkept hread (Bool.eq_true_of_not_eq_false hreq) hout
      · refine (fresh_append_of_not_read tr _ (fun t' r hmem => ?_)).trans
          ⟨fun hf => ⟨hf, fun hr => absurd hr hread⟩, And.left⟩
        rcases List.mem_append.mp hmem with hmem | hmem
        · exact absurd hmem (by cases he <;> simp only [List.mem_cons, reduceCtorEq,
            List.not_mem_nil, or_self, not_false_eq_true])
        · rw [List.mem_singleton, Event.bar0.injEq] at hmem
          rcases hmem with ⟨rfl, rfl⟩
          exact fun hok => hread ((readsStatus_iff d t').mpr hok)
  | compute target _ _ _ hd =>
      refine (fresh_append_of_not_read tr es (fun t r hmem => ?_)).trans
        ⟨fun hf => ⟨hf, trivial⟩, And.left⟩
      exact absurd hmem (by cases hd <;> simp only [List.mem_cons, reduceCtorEq,
        List.not_mem_nil, or_self, not_false_eq_true])
  | _ => rw [List.append_nil]; exact ⟨fun hf => ⟨hf, trivial⟩, And.left⟩

/-- In a run without RESET, every STATUS read that shows DONE or ERROR after
    an accepted START comes after the end of a job begun since, exactly if no
    STATUS read is made while a request is pending and STATUS still shows the
    outcome of an earlier job. -/
theorem polling_fresh_iff [FloatArith] (ls : List (Label DmaTarget))
    (hnr : ∀ l ∈ ls, l.NotSets Ctrl.reset) (d : Device) (tr : List Event)
    (hrun : machine.run Device.constructed ls = some (d, tr)) :
    Fresh tr ↔ machine.Along PollKept Device.constructed ls := by
  -- `Polled` carries the run, and under it a step keeps the trace fresh
  -- exactly if it meets the condition.
  have hiff := machine.history_iff_along (fun _ l => l.NotSets Ctrl.reset) PollKept Polled Fresh
    (fun d tr l d' es h hl hstep => polled_step d tr l d' es h hl hstep)
    (fun d tr l d' es h _ hstep => fresh_step_iff d tr l d' es h hstep)
    Device.constructed [] polled_constructed ls
    (machine.along_of_forall_mem _ _ ls hnr) d tr hrun
  rw [List.nil_append] at hiff
  refine hiff.trans ⟨And.right, fun hal => ⟨?_, hal⟩⟩
  intro pre p mid t r post v hnil
  exact absurd hnil (nil_ne_split _ post _)

/-- STATUS is fresh for a host that polls it after a job of dimension one. -/
theorem polling_fresh_one :
    ∃ d tr, (@machine float32Arith).run Device.constructed
        (.compute acceptAll :: startOne acceptAll ++ finishOne acceptAll ++
          [.bar0 (.read32 Register.status.offset)]) = some (d, tr) ∧
      ShowsOutcome d.regs.regStatus ∧ Fresh tr :=
  ⟨_, _, rfl, by decide, (@polling_fresh_iff float32Arith
    (.compute acceptAll :: startOne acceptAll ++ finishOne acceptAll ++
      [.bar0 (.read32 Register.status.offset)]) (by decide) _ _ rfl).mpr (by decide)⟩

/-- A second START, and a STATUS read before the compute thread is dispatched:
    the read shows DONE, and no job has begun since that START. -/
theorem polling_stale :
    ∃ d tr d' es t r, (@machine float32Arith).run Device.constructed
        (.compute acceptAll :: startOne acceptAll ++ finishOne acceptAll) = some (d, tr) ∧
      (@machine float32Arith).run d
        [.bar0 (.write32 Register.control.offset Ctrl.start),
          .bar0 (.read32 Register.status.offset)] = some (d', es) ∧
      es.head? = some (.computationStarted d.regs.params) ∧ es.getLast? = some (.bar0 t r) ∧
      ReadsOk .status t r ∧ r.word = some (Status.idle ||| Status.done) ∧ jobsBegun es = 0 ∧
      ¬ Fresh (tr ++ es) := by
  refine ⟨_, _, _, _, _, _, rfl, rfl, rfl, rfl, ⟨rfl, rfl, rfl⟩, rfl, rfl, ?_⟩
  refine not_fresh_append _ _ [_] _ _ _ (fun hmem => ?_) ⟨rfl, rfl, rfl⟩ rfl (by decide)
  exact nomatch List.mem_singleton.mp hmem

end PcieCosim
