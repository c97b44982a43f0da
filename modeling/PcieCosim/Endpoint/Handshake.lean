import PcieCosim.Endpoint.Steps

/-!
# The START Handshake

A START leaves a flag for the compute thread and notifies an event. The event
is not buffered: if the thread is not waiting for it the notification is lost,
and nothing looks at the flag again until the next START.

`RequestHeard` is the state in which that has not happened: a set flag means a
thread that has been woken and will find it. One step keeps it exactly when it
does not accept a START on a thread that is somewhere else. After
initialization the only other place is inside a job, and there STATUS has no
IDLE unless a RESET has put it back under the running job. That is the way in
which a START is lost, and `start_lost_after_reset` is such a run.

A request that was heard can still be withdrawn, by a RESET that arrives
before the thread is dispatched.

## Main definitions

* `RequestHeard`: A pending request has woken the thread.
* `StartHeard`: A step accepts no START inside a job.
* `NotWithdrawn`: A step withdraws no pending request.
* `BusyInJob`: STATUS says BUSY inside a job.

## Theorems

* `requestHeard_step_iff`: What a step has to meet to keep the handshake.
* `notEntry_step`: The thread never goes back before its body.
* `followed_step`: A START is followed by a job or still pending.
* `compute_begins`: The thread that finds a request begins a job.
* `busyInJob_step`: Without RESET, STATUS says BUSY inside a job.
* `start_heard_iff`: No START is lost exactly in the runs that accept none
  inside a job.
* `start_lost_after_reset`: A run that loses one.
-/

namespace PcieCosim

open Bytes Kernel Transition

/-- A pending request has woken the compute thread, which has yet to consume
    it. -/
def RequestHeard (d : Device) : Prop :=
  d.regs.computationRequested = true →
    d.computeThread.position = .waitStart ∧ d.computeThread.runnable = true

/-- No START is accepted while the compute thread is inside
    `perform_matrix_multiply`. -/
def StartHeard (d : Device) : Label DmaTarget → Prop
  | .bar0 t => Accepts d t → d.computeThread.position.inJob = false
  | _ => True

instance (d : Device) : (l : Label DmaTarget) → Decidable (StartHeard d l)
  | .bar0 t => inferInstanceAs (Decidable (Accepts d t → _ = false))
  | .compute _ => isTrue trivial
  | .control => isTrue trivial
  | .update => isTrue trivial
  | .timeout => isTrue trivial

/-- No RESET without START is written while a request is pending. -/
def NotWithdrawn (d : Device) : Label DmaTarget → Prop
  | .bar0 t => t.Sets Ctrl.reset → ¬ t.Sets Ctrl.start → d.regs.computationRequested = false
  | _ => True

/-- A START is accepted only on a thread waiting for it. -/
def StartAwaited (d : Device) : Label DmaTarget → Prop
  | .bar0 t => Accepts d t → d.computeThread.position = .waitStart
  | _ => True

theorem not_accepts (d : Device) (t : Payload) (h : ∀ bit, ¬ t.Sets bit) : ¬ Accepts d t :=
  fun hacc => h Ctrl.start hacc.1

/-- Notifying `start_event` wakes the compute thread exactly if it waits for
    it. -/
theorem notifyStart_heard_iff (d : Device) :
    (d.notifyStart.computeThread.position = .waitStart ∧
      d.notifyStart.computeThread.runnable = true) ↔ d.computeThread.position = .waitStart := by
  constructor
  · rintro ⟨hpos, -⟩
    exact (Process.notify_position _ _).symm.trans hpos
  · intro hpos
    refine ⟨(Process.notify_position _ _).trans hpos, ?_⟩
    have hw : Position.waitsForStart d.computeThread.position = true := by rw [hpos]; rfl
    have hwake := Process.notify_of_waits Position.waitsForStart d.computeThread hw
    change (d.computeThread.notify Position.waitsForStart).runnable = true
    rw [hwake, Process.wake_runnable]

/-- A BAR0 transaction keeps the handshake exactly if it accepts no START on a
    thread that is elsewhere. -/
theorem requestHeard_bar0_iff (d d' : Device) (t : Payload) (es : List Event)
    (h : RequestHeard d) (he : Bar0Effect d t d' es) :
    RequestHeard d' ↔ (Accepts d t → d.computeThread.position = .waitStart) := by
  cases he with
  | quiet hn => exact ⟨fun _ hacc => absurd hacc (not_accepts d t hn), fun _ => h⟩
  | program hn _ _ _ _ => exact ⟨fun _ hacc => absurd hacc (not_accepts d t hn), fun _ => h⟩
  | clear hn _ => exact ⟨fun _ hacc => absurd hacc (not_accepts d t hn), fun _ => h⟩
  | enable hn _ => exact ⟨fun _ hacc => absurd hacc (not_accepts d t hn), fun _ => h⟩
  | control _ hs _ => exact ⟨fun _ hacc => absurd hacc hs, fun _ => h⟩
  -- RESET clears the flag, so there is no request to be heard.
  | reset _ hs => exact ⟨fun _ hacc => absurd hacc.1 hs, fun _ hreq => nomatch hreq⟩
  -- The two that set the flag also notify, in this order.
  | start _ hacc _ =>
      exact ⟨fun hd _ => (notifyStart_heard_iff _).mp (hd rfl),
        fun hpos _ => (notifyStart_heard_iff _).mpr (hpos hacc)⟩
  | restart hr hs =>
      exact ⟨fun hd _ => (notifyStart_heard_iff _).mp (hd rfl),
        fun hpos _ => (notifyStart_heard_iff _).mpr (hpos ⟨hs, Or.inl hr⟩)⟩

/-- A dispatch consumes the request or finds none. -/
theorem requestHeard_dispatch [FloatArith] (target : DmaTarget) (d d' : Device)
    (es : List Event) (h : RequestHeard d) (hd : Dispatch target d d' es) :
    d'.regs.computationRequested = false := by
  -- Away from `wait(start_event)` the handshake says that nothing is pending.
  have haway : d.computeThread.position ≠ .waitStart → d.regs.computationRequested = false := by
    intro hne
    by_contra hreq
    exact hne (h (Bool.eq_true_of_not_eq_false hreq)).1
  have hjob : d.computeThread.position.inJob = true → d.regs.computationRequested = false :=
    fun hin => haway (fun hpos => by rw [hpos] at hin; exact nomatch hin)
  cases hd with
  | enter hpos => exact haway (by rw [hpos]; exact nofun)
  | spurious _ hr => exact hr
  | refuse _ _ _ => rfl
  | readA _ _ _ _ _ _ => rfl
  | readB n a hpos _ _ => exact hjob (by rw [hpos]; rfl)
  | row n a b c i hrows _ => exact hjob (inJob_of_rowsLeft _ n a b c i hrows)
  | writeC n a b c i hrows _ _ _ => exact hjob (inJob_of_rowsLeft _ n a b c i hrows)
  | fail hfail => exact hjob (inJob_of_readFailed _ hfail)
  | finish n ok hpos =>
      exact (jobResult_requested ok d.regs).trans (hjob (by rw [hpos]; rfl))

theorem requestHeard_step_iff [FloatArith] (d : Device) (l : Label DmaTarget) (d' : Device)
    (es : List Event) (h : RequestHeard d) (hstep : machine.step d l = some (d', es)) :
    RequestHeard d' ↔ StartAwaited d l := by
  cases step_inv d d' l es hstep with
  | bar0 t _ es' he => exact requestHeard_bar0_iff d d' t es' h he
  | compute target _ _ _ hd =>
      have hreq := requestHeard_dispatch target d d' es h hd
      exact ⟨fun _ => trivial, fun _ hr => by rw [hreq] at hr; exact nomatch hr⟩
  | enterController _ _ => exact ⟨fun _ => trivial, fun _ => h⟩
  | control _ _ => exact ⟨fun _ => trivial, fun _ => h⟩
  | update _ => exact ⟨fun _ => trivial, fun _ => h⟩
  -- A timeout wakes the thread and moves it nowhere.
  | timeout _ _ _ => exact ⟨fun _ => trivial, fun _ hr => ⟨(h hr).1, rfl⟩⟩

theorem position_bar0 (d d' : Device) (t : Payload) (es : List Event)
    (he : Bar0Effect d t d' es) : d'.computeThread.position = d.computeThread.position := by
  cases he with
  | start _ _ _ => exact Process.notify_position _ _
  | restart _ _ => exact Process.notify_position _ _
  | _ => rfl

theorem notEntry_step [FloatArith] (d : Device) (l : Label DmaTarget) (d' : Device)
    (es : List Event) (h : d.computeThread.position ≠ .entry)
    (hstep : machine.step d l = some (d', es)) : d'.computeThread.position ≠ .entry := by
  cases step_inv d d' l es hstep with
  | bar0 t _ es' he => rwa [position_bar0 d d' t es' he]
  | compute target _ _ _ hd => cases hd <;> exact nofun
  | _ => exact h

/-- Every START so far is followed by a job, or else the request is still
    pending. -/
def Followed (d : Device) (tr : List Event) : Prop :=
  ∀ pre p post, tr = pre ++ .computationStarted p :: post →
    .jobBegun ∈ post ∨ d.regs.computationRequested = true

/-- The request stays pending, or a job begins. -/
theorem followed_of_step (d d' : Device) (tr es : List Event) (h : Followed d tr)
    (hnew : ∀ p, .computationStarted p ∈ es → d'.regs.computationRequested = true)
    (hold : d.regs.computationRequested = true →
      d'.regs.computationRequested = true ∨ .jobBegun ∈ es) : Followed d' (tr ++ es) := by
  intro pre p post hsplit
  -- A START of this very step leaves its request behind; an older one was
  -- served before, is served now, or waits on.
  rcases append_eq_split tr es pre post _ hsplit with ⟨post', htr, rfl⟩ | hmem
  · rcases h pre p post' htr with hbegun | hreq
    · exact Or.inl (List.mem_append_left _ hbegun)
    · rcases hold hreq with hreq' | hbegun
      · exact Or.inr hreq'
      · exact Or.inl (List.mem_append_right _ hbegun)
  · exact Or.inr (hnew p hmem)

theorem followed_bar0 (d d' : Device) (t : Payload) (tr es : List Event) (r : Response)
    (h : Followed d tr) (hw : NotWithdrawn d (.bar0 t)) (he : Bar0Effect d t d' es) :
    Followed d' (tr ++ (es ++ [.bar0 t r])) := by
  cases he with
  | start _ _ _ => exact followed_of_step d _ tr _ h (fun _ _ => rfl) (fun _ => Or.inl rfl)
  | restart _ _ => exact followed_of_step d _ tr _ h (fun _ _ => rfl) (fun _ => Or.inl rfl)
  | reset hr hs =>
      -- Nothing was pending, so nothing is withdrawn.
      refine followed_of_step d _ tr _ h (fun p hp => ?_) (fun hreq => ?_)
      · simp only [List.cons_append, List.nil_append, List.mem_cons, reduceCtorEq,
          List.not_mem_nil, or_self] at hp
      · exact absurd (hw hr hs) (by rw [hreq]; exact nofun)
  | _ =>
      refine followed_of_step d _ tr _ h (fun p hp => ?_) (fun hreq => Or.inl hreq)
      simp only [List.nil_append, List.mem_singleton, reduceCtorEq] at hp

theorem followed_dispatch [FloatArith] (target : DmaTarget) (d d' : Device)
    (tr es : List Event) (h : Followed d tr) (hd : Dispatch target d d' es) :
    Followed d' (tr ++ es) := by
  refine followed_of_step d d' tr es h
    (fun p hp => absurd hp (dispatch_not_started target d d' es hd p)) (fun hreq => ?_)
  cases hd with
  | refuse _ _ _ => exact Or.inr List.mem_cons_self
  | readA _ _ _ _ _ _ => exact Or.inr List.mem_cons_self
  -- The end of a job does not touch the flag.
  | fail _ => exact Or.inl hreq
  | finish _ ok _ => exact Or.inl ((jobResult_requested ok d.regs).trans hreq)
  | _ => exact Or.inl hreq

theorem followed_step [FloatArith] (d : Device) (tr : List Event) (l : Label DmaTarget)
    (d' : Device) (es : List Event) (h : Followed d tr) (hw : NotWithdrawn d l)
    (hstep : machine.step d l = some (d', es)) : Followed d' (tr ++ es) := by
  cases step_inv d d' l es hstep with
  | bar0 t _ es' he => exact followed_bar0 d d' t tr es' _ h hw he
  | compute target _ _ _ hd => exact followed_dispatch target d d' tr es h hd
  | _ => rw [List.append_nil]; exact h

/-- A thread that finds a request at `wait(start_event)` begins a job. -/
theorem compute_begins [FloatArith] (target : DmaTarget) (d : Device)
    (hpos : d.computeThread.position = .waitStart)
    (hreq : d.regs.computationRequested = true) : .jobBegun ∈ (d.compute target).2 := by
  rw [Device.compute, hpos]
  simp only [hreq, if_true, List.mem_cons, true_or]

/-- Inside a job STATUS says BUSY and no request is pending. A RESET can break
    this, and nothing else does. -/
def BusyInJob (d : Device) : Prop :=
  d.computeThread.position.inJob = true →
    d.regs.regStatus = Status.busy ∧ d.regs.computationRequested = false

theorem busyInJob_step [FloatArith] (d : Device) (l : Label DmaTarget) (d' : Device)
    (es : List Event) (h : BusyInJob d) (hl : l.NotSets Ctrl.reset)
    (hstep : machine.step d l = some (d', es)) : BusyInJob d' := by
  cases step_inv d d' l es hstep with
  | bar0 t _ es' he =>
      intro hin
      rw [position_bar0 d d' t es' he] at hin
      rcases h hin with ⟨hbusy, hreq⟩
      cases he with
      | start hr hacc _ =>
          -- STATUS is BUSY without IDLE, so no START is accepted.
          rcases hacc.2 with hr' | hidle
          · exact absurd hr' hr
          · rw [hbusy] at hidle
            exact absurd hidle (by decide)
      | reset hr _ => exact absurd hr hl
      | restart hr _ => exact absurd hr hl
      | _ => exact ⟨hbusy, hreq⟩
  | compute target _ _ _ hd =>
      intro hin
      cases hd with
      | enter _ => exact nomatch hin
      | spurious _ _ => exact nomatch hin
      | refuse _ _ _ => exact nomatch hin
      | readA _ _ _ _ _ _ => exact ⟨jobStart_status d.regs, rfl⟩
      | readB n a hpos _ _ => exact h (by rw [hpos]; rfl)
      | row n a b c i hrows _ => exact h (inJob_of_rowsLeft _ n a b c i hrows)
      | writeC n a b c i hrows _ _ _ => exact h (inJob_of_rowsLeft _ n a b c i hrows)
      | fail _ => exact nomatch hin
      | finish _ _ _ => exact nomatch hin
  | _ => exact h

/-- After initialization, every pending request is one the compute thread was
    woken for, throughout a run, exactly if no START is accepted inside a job.
    In such a run each accepted START that no RESET withdraws is followed by a
    job, or is about to be: the thread is runnable and its next dispatch
    begins one. -/
theorem start_heard_iff [FloatArith] (ls : List (Label DmaTarget)) (d : Device)
    (tr : List Event) (hrun : machine.run Device.initialized ls = some (d, tr)) :
    (machine.Throughout RequestHeard Device.initialized ls ↔
      machine.Along StartHeard Device.initialized ls) ∧
    (machine.Along StartHeard Device.initialized ls →
      machine.Along NotWithdrawn Device.initialized ls →
      ∀ pre p post, tr = pre ++ .computationStarted p :: post →
        .jobBegun ∈ post ∨
          (d.computeThread.runnable = true ∧
            ∀ target, ∃ d' es, machine.step d (.compute target) = some (d', es) ∧
              .jobBegun ∈ es)) := by
  -- The invariant is kept step by step exactly by accepting START only on a
  -- thread that waits for it.
  have hawaited : machine.Throughout RequestHeard Device.initialized ls ↔
      machine.Along StartAwaited Device.initialized ls :=
    machine.throughout_iff_along StartAwaited RequestHeard
      (fun d l d' es h hstep => requestHeard_step_iff d l d' es h hstep)
      Device.initialized nofun ls d tr hrun
  -- After initialization a thread that is not inside a job waits for START.
  have hcongr : machine.Along StartAwaited Device.initialized ls ↔
      machine.Along StartHeard Device.initialized ls := by
    refine machine.along_congr _ _ (fun d => d.computeThread.position ≠ .entry)
      (fun d l d' es h hstep => notEntry_step d l d' es h hstep) (fun d l hne => ?_)
      Device.initialized nofun ls
    cases l with
    | bar0 t =>
        refine imp_congr_right (fun _ => ?_)
        cases hpos : d.computeThread.position with
        | entry => exact absurd hpos hne
        | waitStart => exact ⟨fun _ => rfl, fun _ => rfl⟩
        | readA _ _ _ => exact ⟨nofun, nofun⟩
        | readB _ _ _ _ => exact ⟨nofun, nofun⟩
        | row _ _ _ _ _ => exact ⟨nofun, nofun⟩
        | writeC _ _ => exact ⟨nofun, nofun⟩
    | _ => exact Iff.rfl
  refine ⟨hawaited.trans hcongr, fun hal hw pre p post hsplit => ?_⟩
  have hfol : Followed d tr :=
    machine.run_history NotWithdrawn Followed
      (fun d tr l d' es h hw hstep => followed_step d tr l d' es h hw hstep)
      Device.initialized [] (fun pre p post hnil => absurd hnil (nil_ne_split pre post _)) ls hw
      d tr hrun
  -- Either a job has begun, or the request is pending and was heard.
  rcases hfol pre p post hsplit with hbegun | hreq
  · exact Or.inl hbegun
  · have hheard : RequestHeard d :=
      machine.run_invariant StartAwaited RequestHeard
        (fun d l d' es h hP hstep => (requestHeard_step_iff d l d' es h hstep).mpr hP)
        Device.initialized nofun ls (hcongr.mpr hal) d tr hrun
    rcases hheard hreq with ⟨hpos, hrunnable⟩
    exact Or.inr ⟨hrunnable, fun target => ⟨_, _, step_compute d target hrunnable,
      compute_begins target d hpos hreq⟩⟩

/-- A job of dimension one loses no START. -/
theorem start_heard_one :
    (@machine float32Arith).Throughout RequestHeard Device.initialized
      (startOne acceptAll ++ finishOne acceptAll) := by
  refine (@start_heard_iff float32Arith (startOne acceptAll ++ finishOne acceptAll) _ _
    rfl).1.mpr ?_
  decide

/-- A START accepted after a RESET under a running job is lost: when that job
    has ended, the thread waits with no notification pending and the request
    is still there. -/
theorem start_lost_after_reset :
    ∃ d tr, (@machine float32Arith).run Device.initialized
        (startOne acceptAll ++ .bar0 (.write32 Register.control.offset Ctrl.reset) ::
          .bar0 (.write32 Register.control.offset Ctrl.start) :: finishOne acceptAll) =
        some (d, tr) ∧
      d.regs.computationRequested = true ∧ d.computeThread.position = .waitStart ∧
      d.computeThread.runnable = false ∧ ¬ RequestHeard d := by
  refine ⟨_, _, rfl, rfl, rfl, rfl, fun h => ?_⟩
  exact nomatch (h rfl).2

end PcieCosim
