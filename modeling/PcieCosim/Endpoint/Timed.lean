import PcieCosim.Endpoint.Job

/-!
# The Endpoint in Simulated Time

The endpoint attached to `host_memory`, with the clock of the simulation.

Every timed wait of the compute thread has a length the code fixes where it
enters the wait: a DMA transaction starts from 50 ns, to which `host_memory`
adds 20 if it accepts the transaction, and a row of the product takes `2 * n`.
The timed machine is the untimed one with a clock. It records when the wait
the compute thread is in will be due, ends the wait at that time only, and
lets time pass only while no process is runnable, no signal is to be updated
and nothing is overdue. Its events carry the time they happened at.

A job is then a fixed timetable. `Position.elapsed` is the time from the
beginning of the job to the end of the wait at a position, and a thread inside
a job that began at `t` is due at `t` plus that. BAR0 traffic moves no thread,
so nothing the host does, not even a RESET, makes a job longer or shorter.

A copy that `host_memory` makes outside its memory has no defined outcome, and
the timed machine has no step for it.

## Main definitions

* `dmaDelay`, `Position.delay`: How long the waits of the compute thread are.
* `Defined`: `host_memory` has an outcome for what a step does.
* `Timed`, `timed`: The endpoint with a clock.
* `Timed.start`: The endpoint when simulation starts.
* `Position.elapsed`: The time a job has taken at the end of a wait.
* `Transfer`: A DMA transaction and when it was made.
* `Timeline`: The transactions and the end of a job, by when it began and with
  which DIM_N.
* `OnTime`: The thread inside a job is due when the timetable says.
* `BegunAt`, `Logged`: Where in a run a job began, and what it has done since.
* `Clocked`: The clock against the trace.

## Theorems

* `hostMemoryTransport_some`: A defined outcome is that of the bounded target.
* `timed_step_iff`, `timed_elapse_iff`: The steps of the timed machine.
* `elapsed_begin`, `elapsed_dispatch`: A dispatch moves the job along its
  timetable.
* `clocked_step`, `clocked_run`: Every step keeps the clock against the trace,
  and so does a run.
* `job_timeline`: Every job follows the timetable.
-/

namespace PcieCosim

open Bytes Kernel Transition

/-- The length of the wait in `dma_read` and `dma_write`: both start from
    50 ns, and `host_memory` adds 20 to a transaction it accepts. -/
def dmaDelay (ok : Bool) : Nat := 50 + if ok then 20 else 0

/-- The length of the timed wait at a position, in nanoseconds. -/
def Position.delay : Position → Nat
  | .entry => 0
  | .waitStart => 0
  | .readA _ ok _ => dmaDelay ok
  | .readB _ _ ok _ => dmaDelay ok
  | .row n _ _ _ _ => n.val * 2
  | .writeC _ ok => dmaDelay ok

/-- The transaction of an event has a defined outcome. -/
def Event.defined (mem : List Byte) : Event → Bool
  | .dma _ t _ => (hostMemoryTransport mem t).isSome
  | _ => true

/-- `host_memory` has a defined outcome for every transaction among the
    events. -/
def Defined (mem : List Byte) (es : List Event) : Prop := ∀ e ∈ es, e.defined mem = true

instance (mem : List Byte) (es : List Event) : Decidable (Defined mem es) :=
  inferInstanceAs (Decidable (∀ e ∈ es, e.defined mem = true))

/-- Where `host_memory` has a defined outcome for a read or a write, it is that
    of the bounded target. -/
theorem hostMemoryTransport_some (mem : List Byte) (t : Payload) (r : Reply × List Byte)
    (hcmd : t.command ≠ .ignore) (h : hostMemoryTransport mem t = some r) :
    r = boundedTransport mem t := by
  unfold hostMemoryTransport at h
  by_cases hguard : (t.address + BitVec.ofNat 64 t.data.length).toNat > mem.length
  · -- The sum can only have wrapped downwards, so the range is outside.
    have hout : ¬ Inside mem t.address t.data.length := by
      unfold Inside
      rw [BitVec.toNat_add, BitVec.toNat_ofNat] at hguard
      have hle := Nat.mod_le (t.address.toNat + t.data.length % 2 ^ 64) (2 ^ 64)
      have hlen := Nat.mod_le t.data.length (2 ^ 64)
      omega
    rw [if_pos hguard, Option.some.injEq] at h
    rw [← h, boundedTransport, if_neg hout]
  · rw [if_neg hguard] at h
    by_cases hin : Inside mem t.address t.data.length
    · have hle : t.address.toNat + t.data.length ≤ mem.length := hin
      rw [boundedTransport, if_pos hin]
      cases hc : t.command with
      | read =>
          rw [hc] at h
          simp only [if_pos hle, Option.some.injEq] at h
          exact h.symm
      | write =>
          rw [hc] at h
          simp only [if_pos hle, Option.some.injEq] at h
          exact h.symm
      | ignore => exact absurd hc hcmd
    · have hgt : ¬ t.address.toNat + t.data.length ≤ mem.length := hin
      cases hc : t.command with
      | read =>
          rw [hc] at h
          simp only [if_neg hgt, reduceCtorEq] at h
      | write =>
          rw [hc] at h
          simp only [if_neg hgt, reduceCtorEq] at h
      | ignore => exact absurd hc hcmd

/-- An attached endpoint, the time, and when the wait its compute thread is in
    will be due. -/
structure Timed extends Attached where
  now : Nat
  due : Nat

/-- The steps of the timed endpoint: those of the endpoint, which take no
    time, and the passing of time. -/
inductive TimedLabel where
  | step (l : Label Unit)
  | elapse (dt : Nat)

/-- When the wait the thread is in after a step will be due: a dispatch enters
    a new one. -/
def Timed.dueAfter (s : Timed) (l : Label Unit) (a : Attached) : Nat :=
  if l.isCompute then s.now + a.device.computeThread.position.delay else s.due

/-- The end of a timed wait. -/
def Label.isTimeout {δ : Type} : Label δ → Bool
  | .timeout => true
  | _ => false

/-- Time may pass: no process is runnable, every signal has settled, and the
    wait of the compute thread is not due before `t`. -/
def Timed.MayElapse (s : Timed) (t : Nat) : Prop :=
  s.device.Evaluated ∧ s.device.interrupt.Settled ∧
    (s.device.computeThread.position.inJob = true → t ≤ s.due)

instance (s : Timed) (t : Nat) : Decidable (s.MayElapse t) :=
  inferInstanceAs (Decidable (_ ∧ _ ∧ (_ = true → t ≤ s.due)))

/-- One step of the timed endpoint. A step in which `host_memory`'s guard wraps
    and lets a copy outside the memory through has no defined outcome and is
    left out. -/
def Timed.step [FloatArith] (s : Timed) : TimedLabel → Option (Timed × List (Nat × Event))
  | .step l =>
      if l.isTimeout = true ∧ s.now ≠ s.due then none
      else
        match system.step s.toAttached l with
        | none => none
        | some (a, es) =>
            if Defined s.memory es then
              some ({ toAttached := a, now := s.now, due := s.dueAfter l a },
                es.map (fun e => (s.now, e)))
            else none
  | .elapse dt =>
      if s.MayElapse (s.now + dt) then some ({ s with now := s.now + dt }, []) else none

/-- The endpoint with a clock. -/
def timed [FloatArith] : Machine Timed TimedLabel (Nat × Event) where
  step := Timed.step

/-- The endpoint when simulation starts, with a memory. -/
def Timed.start (mem : List Byte) : Timed :=
  { device := Device.constructed, memory := mem, now := 0, due := 0 }

/-- The steps of the endpoint in time. -/
theorem timed_step_iff [FloatArith] (s s' : Timed) (l : Label Unit) (es' : List (Nat × Event)) :
    timed.step s (.step l) = some (s', es') ↔
      ∃ a es, system.step s.toAttached l = some (a, es) ∧
        (l.isTimeout = true → s.now = s.due) ∧ Defined s.memory es ∧
        s' = { toAttached := a, now := s.now, due := s.dueAfter l a } ∧
        es' = es.map (fun e => (s.now, e)) := by
  change Timed.step s (.step l) = _ ↔ _
  rw [Timed.step]
  by_cases hlate : l.isTimeout = true ∧ s.now ≠ s.due
  · rw [if_pos hlate]
    refine ⟨fun h => by simp only [reduceCtorEq] at h, ?_⟩
    rintro ⟨a, es, -, htime, -⟩
    exact absurd (htime hlate.1) hlate.2
  · have htime : l.isTimeout = true → s.now = s.due := by
      intro hl
      by_contra hne
      exact hlate ⟨hl, hne⟩
    rw [if_neg hlate]
    rcases hstep : system.step s.toAttached l with _ | ⟨a, es⟩
    · simp only [reduceCtorEq, false_and, exists_false]
    · simp only [Option.some.injEq, Prod.mk.injEq]
      by_cases hdef : Defined s.memory es
      · rw [if_pos hdef]
        simp only [Option.some.injEq, Prod.mk.injEq]
        constructor
        · rintro ⟨rfl, rfl⟩
          exact ⟨a, es, ⟨rfl, rfl⟩, htime, hdef, rfl, rfl⟩
        · rintro ⟨_, _, ⟨rfl, rfl⟩, -, -, rfl, rfl⟩
          exact ⟨rfl, rfl⟩
      · rw [if_neg hdef]
        simp only [reduceCtorEq, false_iff]
        rintro ⟨_, _, ⟨rfl, rfl⟩, -, hdef', -⟩
        exact hdef hdef'

/-- The passing of time. -/
theorem timed_elapse_iff [FloatArith] (s s' : Timed) (dt : Nat) (es' : List (Nat × Event)) :
    timed.step s (.elapse dt) = some (s', es') ↔
      s.MayElapse (s.now + dt) ∧ s' = { s with now := s.now + dt } ∧ es' = [] := by
  change Timed.step s (.elapse dt) = _ ↔ _
  rw [Timed.step]
  by_cases hmay : s.MayElapse (s.now + dt)
  · rw [if_pos hmay]
    simp only [Option.some.injEq, Prod.mk.injEq]
    exact ⟨fun h => ⟨hmay, h.1.symm, h.2.symm⟩, fun h => ⟨h.2.1.symm, h.2.2.symm⟩⟩
  · rw [if_neg hmay]
    simp only [reduceCtorEq, false_iff]
    exact fun h => hmay h.1

/-- The time from the beginning of a job to the end of the wait at a
    position. -/
def Position.elapsed : Position → Nat
  | .entry => 0
  | .waitStart => 0
  | .readA _ ok _ => dmaDelay ok
  | .readB _ _ ok _ => 70 + dmaDelay ok
  | .row n _ _ _ i => 140 + n.val * 2 * (i + 1)
  | .writeC n ok => 140 + n.val * 2 * n.val + dmaDelay ok

/-- A row of the loop is one of the matrix. -/
def Position.RowInside : Position → Prop
  | .row n _ _ _ i => i < n.val
  | _ => True

/-- The first wait of a job. -/
theorem elapsed_begin [FloatArith] (target : DmaTarget) (d d' : Device) (es : List Event)
    (hd : Dispatch target d d' es) (hpos : d.computeThread.position.inJob = false)
    (hjob : d'.computeThread.position.inJob = true) :
    d'.computeThread.position.elapsed = d'.computeThread.position.delay ∧
      d'.computeThread.position.RowInside := by
  cases hd with
  | readA _ _ n _ ok _ => exact ⟨rfl, trivial⟩
  | readB n a h _ _ => rw [h] at hpos; exact absurd hpos.symm Bool.false_ne_true
  | row n a b c i hrows _ =>
      rw [inJob_of_rowsLeft _ n a b c i hrows] at hpos
      exact absurd hpos.symm Bool.false_ne_true
  | writeC n a b c i hrows _ _ _ =>
      rw [inJob_of_rowsLeft _ n a b c i hrows] at hpos
      exact absurd hpos.symm Bool.false_ne_true
  | _ => exact absurd hjob Bool.false_ne_true

/-- Where the row loop resumes. -/
theorem elapsed_rowsLeft (pos : Position) (n : Dim) (a b c : FloatMatrix n.val) (i : Nat)
    (h : RowsLeft pos n a b c i) (hin : pos.RowInside) :
    pos.elapsed = 140 + n.val * 2 * i ∧ i ≤ n.val := by
  cases h with
  | first _ _ _ => exact ⟨rfl, Nat.zero_le _⟩
  | next _ _ _ _ k => exact ⟨rfl, hin⟩

/-- A dispatch that leaves the thread inside the job moves it along the
    timetable. -/
theorem elapsed_dispatch [FloatArith] (target : DmaTarget) (d d' : Device) (es : List Event)
    (hd : Dispatch target d d' es) (hpos : d.computeThread.position.inJob = true)
    (hin : d.computeThread.position.RowInside)
    (hjob : d'.computeThread.position.inJob = true) :
    d'.computeThread.position.elapsed =
        d.computeThread.position.elapsed + d'.computeThread.position.delay ∧
      d'.computeThread.position.RowInside := by
  cases hd with
  | readA h _ _ _ _ _ => rw [h] at hpos; exact absurd hpos Bool.false_ne_true
  | readB n a h ok _ => rw [h]; exact ⟨rfl, trivial⟩
  | row n a b c i hrows hi =>
      rw [(elapsed_rowsLeft _ n a b c i hrows hin).1]
      refine ⟨?_, hi⟩
      change 140 + n.val * 2 * (i + 1) = 140 + n.val * 2 * i + n.val * 2
      ring
  | writeC n a b c i hrows hi ok _ =>
      -- The loop has run out, so every row has had its wait.
      rcases elapsed_rowsLeft _ n a b c i hrows hin with ⟨htime, hle⟩
      have hlast : i = n.val := by omega
      rw [htime, hlast]
      exact ⟨rfl, trivial⟩
  | _ => exact absurd hjob Bool.false_ne_true

/-- The compute thread is inside a job that began at `t`, and is due when the
    timetable says. -/
structure OnTime (t : Nat) (s : Timed) : Prop where
  inJob : s.device.computeThread.position.inJob = true
  inside : s.device.computeThread.position.RowInside
  due : s.due = t + s.device.computeThread.position.elapsed
  notLate : s.now ≤ s.due
  woken : s.device.computeThread.runnable = true → s.now = s.due

/-- A step of the endpoint that is no dispatch and does not wake the thread
    keeps it on time. -/
theorem onTime_frame (t : Nat) (s : Timed) (l : Label Unit) (a : Attached) (h : OnTime t s)
    (hl : l.isCompute = false)
    (hpos : a.device.computeThread.position = s.device.computeThread.position)
    (hrunnable : a.device.computeThread.runnable = true → s.now = s.due) :
    OnTime t { toAttached := a, now := s.now, due := s.dueAfter l a } := by
  have hdue : s.dueAfter l a = s.due := by
    rw [Timed.dueAfter, hl]
    exact if_neg Bool.false_ne_true
  refine ⟨?_, ?_, ?_, ?_, fun hr => ?_⟩
  · rw [hpos]
    exact h.inJob
  · rw [hpos]
    exact h.inside
  · change s.dueAfter l a = _
    rw [hdue, hpos]
    exact h.due
  · change s.now ≤ s.dueAfter l a
    rw [hdue]
    exact h.notLate
  · change s.now = s.dueAfter l a
    rw [hdue]
    exact hrunnable hr

/-- BAR0 traffic wakes no thread inside a job. -/
theorem bar0_runnable_inJob (d d' : Device) (t : Payload) (es : List Event)
    (he : Bar0Effect d t d' es) (hjob : d.computeThread.position.inJob = true) :
    d'.computeThread = d.computeThread := by
  have hwaits : Position.waitsForStart d.computeThread.position = false := by
    cases hpos : d.computeThread.position with
    | waitStart => rw [hpos] at hjob; exact absurd hjob Bool.false_ne_true
    | _ => rfl
  cases he with
  | start _ _ _ => exact Process.notify_of_not_waits _ _ hwaits
  | restart _ _ => exact Process.notify_of_not_waits _ _ hwaits
  | _ => rfl

/-- The dispatch of a thread inside a job that leaves it inside. -/
theorem onTime_dispatch [FloatArith] (target : DmaTarget) (t : Nat) (s : Timed) (a : Attached)
    (es : List Event) (h : OnTime t s) (hr : s.device.computeThread.runnable = true)
    (hd : Dispatch target s.device a.device es)
    (hjob : a.device.computeThread.position.inJob = true)
    (hsusp : a.device.computeThread.runnable = false) :
    OnTime t { toAttached := a, now := s.now, due := s.dueAfter (.compute ()) a } := by
  rcases elapsed_dispatch target s.device a.device es hd h.inJob h.inside hjob with
    ⟨htime, hinside⟩
  refine ⟨hjob, hinside, ?_, Nat.le_add_right _ _, fun hr' => ?_⟩
  · change s.now + _ = _
    rw [h.woken hr, h.due, htime, Nat.add_assoc]
  · change a.device.computeThread.runnable = true at hr'
    rw [hsusp] at hr'
    exact absurd hr' Bool.false_ne_true

/-- A dispatch leaves the thread suspended. -/
theorem suspended_dispatch [FloatArith] (target : DmaTarget) (d d' : Device) (es : List Event)
    (hd : Dispatch target d d' es) : d'.computeThread.runnable = false := by
  cases hd <;> rfl

/-- A DMA transaction, with the time it was made at, the bytes it moves and
    its answer. -/
structure Transfer where
  time : Nat
  operand : Operand
  bytes : Nat
  ok : Bool

/-- The transaction a timed event is, if it is one. -/
def transferAt : Nat × Event → Option Transfer
  | (t, .dma m p ok) => some ⟨t, m, p.data.length, ok⟩
  | _ => none

/-- The DMA transactions of a timed trace. -/
def transfers (tr : List (Nat × Event)) : List Transfer := tr.filterMap transferAt

/-- The DMA transactions and the end of a job that began at `t` with `w` in
    DIM_N, by how far it got: refused for its dimension, ended by one of its
    three transactions, or successful. -/
inductive Timeline (t : Nat) (w : Word) : List Transfer → Nat → Bool → Prop where
  | refused (hn : Dim.check w = none) : Timeline t w [] t false
  | readA (n : Dim) (hn : Dim.check w = some n) :
      Timeline t w [⟨t, .a, 4 * n.val * n.val, false⟩] (t + 50) false
  | readB (n : Dim) (hn : Dim.check w = some n) :
      Timeline t w [⟨t, .a, 4 * n.val * n.val, true⟩, ⟨t + 70, .b, 4 * n.val * n.val, false⟩]
        (t + 120) false
  | writeC (n : Dim) (hn : Dim.check w = some n) :
      Timeline t w [⟨t, .a, 4 * n.val * n.val, true⟩, ⟨t + 70, .b, 4 * n.val * n.val, true⟩,
          ⟨t + 140 + 2 * n.val * n.val, .c, 4 * n.val * n.val, false⟩]
        (t + 190 + 2 * n.val * n.val) false
  | done (n : Dim) (hn : Dim.check w = some n) :
      Timeline t w [⟨t, .a, 4 * n.val * n.val, true⟩, ⟨t + 70, .b, 4 * n.val * n.val, true⟩,
          ⟨t + 140 + 2 * n.val * n.val, .c, 4 * n.val * n.val, true⟩]
        (t + 210 + 2 * n.val * n.val) true

/-- The transactions a job that began at `t` has made when its thread is
    suspended at a position. -/
def Position.transfers (t : Nat) : Position → List Transfer
  | .entry => []
  | .waitStart => []
  | .readA n ok _ => [⟨t, .a, 4 * n.val * n.val, ok⟩]
  | .readB n _ ok _ =>
      [⟨t, .a, 4 * n.val * n.val, true⟩, ⟨t + 70, .b, 4 * n.val * n.val, ok⟩]
  | .row n _ _ _ _ =>
      [⟨t, .a, 4 * n.val * n.val, true⟩, ⟨t + 70, .b, 4 * n.val * n.val, true⟩]
  | .writeC n ok =>
      [⟨t, .a, 4 * n.val * n.val, true⟩, ⟨t + 70, .b, 4 * n.val * n.val, true⟩,
        ⟨t + 140 + 2 * n.val * n.val, .c, 4 * n.val * n.val, ok⟩]

/-- The event marks no beginning and no end of a job. -/
def Event.InsideJob : Event → Prop
  | .jobBegun => False
  | .jobEnded _ => False
  | _ => True

theorem insideJob_map (t : Nat) (es : List Event) (h : ∀ e ∈ es, e.InsideJob) :
    ∀ e ∈ es.map (fun e => (t, e)), e.2.InsideJob := by
  intro e he
  rcases List.mem_map.mp he with ⟨e', he', rfl⟩
  exact h e' he'

/-- BAR0 traffic begins and ends no job and makes no transaction. -/
theorem insideJob_bar0 (d d' : Device) (t : Payload) (es : List Event)
    (he : Bar0Effect d t d' es) (e : Event) (hmem : e ∈ es) : e.InsideJob ∧ e.issue = none := by
  cases he with
  | reset _ _ =>
      rw [List.mem_singleton.mp hmem]
      exact ⟨trivial, rfl⟩
  | start _ _ _ =>
      rw [List.mem_singleton.mp hmem]
      exact ⟨trivial, rfl⟩
  | restart _ _ =>
      simp only [List.mem_cons, List.not_mem_nil, or_false] at hmem
      rcases hmem with rfl | rfl
      · exact ⟨trivial, rfl⟩
      · exact ⟨trivial, rfl⟩
  | _ => exact absurd hmem List.not_mem_nil

/-- Every job that begins in the trace ends there, unless the thread is inside
    one. -/
def Accounted (inJob : Bool) (tr : List (Nat × Event)) : Prop :=
  ∀ pre t post, tr = pre ++ (t, .jobBegun) :: post →
    (∃ t₂ ok, (t₂, .jobEnded ok) ∈ post) ∨ inJob = true

/-- Events that begin no job, of a step that stays inside the job or ends it. -/
theorem accounted_append (b b' : Bool) (tr es : List (Nat × Event)) (h : Accounted b tr)
    (hes : ∀ t, (t, .jobBegun) ∉ es)
    (hb : b = true → (∃ t₂ ok, (t₂, .jobEnded ok) ∈ es) ∨ b' = true) :
    Accounted b' (tr ++ es) := by
  intro pre t post hsplit
  rcases append_eq_split tr es pre post _ hsplit with ⟨post', htr, rfl⟩ | hmem
  · rcases h pre t post' htr with ⟨t₂, ok, hmem⟩ | hjob
    · exact Or.inl ⟨t₂, ok, List.mem_append_left _ hmem⟩
    · rcases hb hjob with ⟨t₂, ok, hmem⟩ | hjob'
      · exact Or.inl ⟨t₂, ok, List.mem_append_right _ hmem⟩
      · exact Or.inr hjob'
  · exact absurd hmem (hes t)

section

variable [FloatArith] (mem : List Byte)

/-- The dispatch after the steps `ls` and the trace `tr` begins a job, at `t`
    and with `w` in DIM_N. -/
def BegunAt (ls : List TimedLabel) (tr : List (Nat × Event)) (t : Nat) (w : Word) : Prop :=
  ∃ s s' es, timed.run (Timed.start mem) ls = some (s, tr) ∧ s.device.regs.regDimN = w ∧
    timed.step s (.step (.compute ())) = some (s', (t, .jobBegun) :: es)

/-- The trace ends inside a job, which one of the steps `ls` began at `t` with
    `w` in DIM_N, and which has made the given transactions. -/
def Logged (ls : List TimedLabel) (tr : List (Nat × Event)) (t : Nat) (w : Word)
    (xs : List Transfer) : Prop :=
  ∃ ls₁ ls₂ pre mid, ls = ls₁ ++ .step (.compute ()) :: ls₂ ∧ BegunAt mem ls₁ pre t w ∧
    tr = pre ++ (t, .jobBegun) :: mid ∧ (∀ e ∈ mid, e.2.InsideJob) ∧ transfers mid = xs

/-- The end of every job in the trace is where its timetable says. -/
def EndsOnTime (ls : List TimedLabel) (tr : List (Nat × Event)) : Prop :=
  ∀ pre t₂ ok post, tr = pre ++ (t₂, .jobEnded ok) :: post →
    ∃ t₁ w xs, Logged mem ls pre t₁ w xs ∧ Timeline t₁ w xs t₂ ok

/-- The clock against the trace. -/
structure Clocked (s : Timed) (ls : List TimedLabel) (tr : List (Nat × Event)) : Prop where
  running : s.device.computeThread.position.inJob = true →
    ∃ t w, OnTime t s ∧ s.device.computeThread.position.dim = Dim.check w ∧
      Logged mem ls tr t w (s.device.computeThread.position.transfers t)
  ended : EndsOnTime mem ls tr
  accounted : Accounted s.device.computeThread.position.inJob tr

variable {mem}

theorem logged_append (ls : List TimedLabel) (l : TimedLabel) (tr es : List (Nat × Event))
    (t : Nat) (w : Word) (xs : List Transfer) (h : Logged mem ls tr t w xs)
    (hes : ∀ e ∈ es, e.2.InsideJob) :
    Logged mem (ls ++ [l]) (tr ++ es) t w (xs ++ transfers es) := by
  rcases h with ⟨ls₁, ls₂, pre, mid, rfl, hbegun, rfl, hmid, rfl⟩
  refine ⟨ls₁, ls₂ ++ [l], pre, mid ++ es, by rw [List.append_assoc, List.cons_append], hbegun,
    by rw [List.append_assoc, List.cons_append], fun e he => ?_, List.filterMap_append⟩
  rcases List.mem_append.mp he with he | he
  · exact hmid e he
  · exact hes e he

/-- Later steps are no matter. -/
theorem logged_later (ls : List TimedLabel) (l : TimedLabel) (tr : List (Nat × Event)) (t : Nat)
    (w : Word) (xs : List Transfer) (h : Logged mem ls tr t w xs) :
    Logged mem (ls ++ [l]) tr t w xs := by
  have happ := logged_append ls l tr [] t w xs h (fun _ he => absurd he List.not_mem_nil)
  rwa [List.append_nil, transfers, List.filterMap_nil, List.append_nil] at happ

/-- A step that ends no job. -/
theorem endsOnTime_append (ls : List TimedLabel) (l : TimedLabel) (tr es : List (Nat × Event))
    (h : EndsOnTime mem ls tr) (hes : ∀ t ok, (t, .jobEnded ok) ∉ es) :
    EndsOnTime mem (ls ++ [l]) (tr ++ es) := by
  intro pre t₂ ok post hsplit
  rcases append_eq_split tr es pre post _ hsplit with ⟨post', htr, -⟩ | hmem
  · rcases h pre t₂ ok post' htr with ⟨t₁, w, xs, hlog, hline⟩
    exact ⟨t₁, w, xs, logged_later ls l pre t₁ w xs hlog, hline⟩
  · exact absurd hmem (hes t₂ ok)

/-- A step whose last event ends a job. -/
theorem endsOnTime_concat (ls : List TimedLabel) (l : TimedLabel) (tr es : List (Nat × Event))
    (t₂ : Nat) (ok : Bool) (h : EndsOnTime mem ls tr) (hes : ∀ t ok, (t, .jobEnded ok) ∉ es)
    (hend : ∃ t₁ w xs, Logged mem (ls ++ [l]) (tr ++ es) t₁ w xs ∧ Timeline t₁ w xs t₂ ok) :
    EndsOnTime mem (ls ++ [l]) (tr ++ (es ++ [(t₂, .jobEnded ok)])) := by
  intro pre t ok' post hsplit
  rw [← List.append_assoc] at hsplit
  rcases concat_eq_split _ pre post _ _ hsplit with ⟨post', htr, -⟩ | ⟨rfl, heq, -⟩
  · exact endsOnTime_append ls l tr es h hes pre t ok' post' htr
  · simp only [Prod.mk.injEq, Event.jobEnded.injEq] at heq
    rw [heq.1, heq.2]
    exact hend

end

/-- The state after a step of the endpoint that took the rest to `a`. -/
def Timed.after (s : Timed) (l : Label Unit) (a : Attached) : Timed :=
  { toAttached := a, now := s.now, due := s.dueAfter l a }

section

variable [FloatArith] {mem : List Byte}

/-- A step that is no dispatch, with the events it adds. -/
theorem clocked_frame (s : Timed) (ls : List TimedLabel) (tr : List (Nat × Event))
    (l : Label Unit) (a : Attached) (es : List Event) (h : Clocked mem s ls tr)
    (hl : l.isCompute = false)
    (hpos : a.device.computeThread.position = s.device.computeThread.position)
    (hrunnable : s.device.computeThread.position.inJob = true →
      a.device.computeThread.runnable = true →
      s.now = s.due ∨ s.device.computeThread.runnable = true)
    (hes : ∀ e ∈ es, e.InsideJob ∧ e.issue = none) :
    Clocked mem (s.after l a) (ls ++ [.step l]) (tr ++ es.map (fun e => (s.now, e))) := by
  have hinside := insideJob_map s.now es (fun e he => (hes e he).1)
  have hnone : transfers (es.map (fun e => (s.now, e))) = [] := by
    refine List.filterMap_eq_nil_iff.mpr (fun e he => ?_)
    rcases List.mem_map.mp he with ⟨e', he', rfl⟩
    have hissue := (hes e' he').2
    cases e' with
    | dma m p ok => simp only [Event.issue, reduceCtorEq] at hissue
    | _ => rfl
  have hjob : (s.after l a).device.computeThread.position.inJob =
      s.device.computeThread.position.inJob := congrArg Position.inJob hpos
  refine ⟨fun hin => ?_,
    endsOnTime_append ls _ tr _ h.ended (fun t ok hmem => hinside _ hmem), ?_⟩
  · rw [hjob] at hin
    rcases h.running hin with ⟨t, w, htime, hdim, hlog⟩
    refine ⟨t, w, onTime_frame t s l a htime hl hpos (fun hr => ?_),
      (congrArg Position.dim hpos).trans hdim, ?_⟩
    · exact (hrunnable hin hr).elim id htime.woken
    · have happ := logged_append ls (.step l) _ _ _ _ _ hlog hinside
      rw [hnone, List.append_nil] at happ
      change Logged mem _ _ t w (a.device.computeThread.position.transfers t)
      rw [hpos]
      exact happ
  · rw [hjob]
    exact accounted_append _ _ tr _ h.accounted (fun t hmem => hinside _ hmem) Or.inr

/-- A dispatch that leaves the thread inside its job. -/
theorem clocked_move (target : DmaTarget) (s : Timed) (ls : List TimedLabel)
    (tr : List (Nat × Event)) (a : Attached) (es : List Event) (h : Clocked mem s ls tr)
    (hr : s.device.computeThread.runnable = true)
    (hd : Dispatch target s.device a.device es)
    (hpos : s.device.computeThread.position.inJob = true)
    (hjob : a.device.computeThread.position.inJob = true)
    (hdim : a.device.computeThread.position.dim = s.device.computeThread.position.dim)
    (hes : ∀ e ∈ es, e.InsideJob)
    (hmore : ∀ t, s.now = t + s.device.computeThread.position.elapsed →
      a.device.computeThread.position.transfers t =
        s.device.computeThread.position.transfers t ++
          transfers (es.map (fun e => (s.now, e)))) :
    Clocked mem (s.after (.compute ()) a) (ls ++ [.step (.compute ())])
      (tr ++ es.map (fun e => (s.now, e))) := by
  have hinside := insideJob_map s.now es hes
  rcases h.running hpos with ⟨t, w, htime, hw, hlog⟩
  refine ⟨fun _ => ⟨t, w, onTime_dispatch target t s a es htime hr hd hjob
    (suspended_dispatch target _ _ es hd), hdim.trans hw, ?_⟩,
    endsOnTime_append ls _ tr _ h.ended (fun t ok hmem => hinside _ hmem),
    accounted_append _ _ tr _ h.accounted (fun t hmem => hinside _ hmem) (fun _ => Or.inr hjob)⟩
  change Logged mem _ _ t w (a.device.computeThread.position.transfers t)
  rw [hmore t ((htime.woken hr).trans htime.due)]
  exact logged_append ls _ _ _ _ _ _ hlog hinside

/-- A dispatch that ends a job the thread was inside. -/
theorem clocked_end (s : Timed) (ls : List TimedLabel) (tr : List (Nat × Event)) (a : Attached)
    (ok : Bool) (h : Clocked mem s ls tr) (hr : s.device.computeThread.runnable = true)
    (hpos : s.device.computeThread.position.inJob = true)
    (hjob : a.device.computeThread.position.inJob = false)
    (hline : ∀ t w, s.device.computeThread.position.dim = Dim.check w →
      Timeline t w (s.device.computeThread.position.transfers t)
        (t + s.device.computeThread.position.elapsed) ok) :
    Clocked mem (s.after (.compute ()) a) (ls ++ [.step (.compute ())])
      (tr ++ [(s.now, .jobEnded ok)]) := by
  rcases h.running hpos with ⟨t, w, htime, hw, hlog⟩
  refine ⟨fun hjob' => ?_, ?_, accounted_append _ _ tr _ h.accounted (fun t hmem => ?_)
    (fun _ => Or.inl ⟨s.now, ok, List.mem_singleton.mpr rfl⟩)⟩
  · change a.device.computeThread.position.inJob = true at hjob'
    rw [hjob] at hjob'
    exact absurd hjob' Bool.false_ne_true
  · refine endsOnTime_concat ls _ tr [] s.now ok h.ended (fun _ _ => List.not_mem_nil)
      ⟨t, w, s.device.computeThread.position.transfers t, ?_, ?_⟩
    · rw [List.append_nil]
      exact logged_later ls _ tr t w _ hlog
    · rw [htime.woken hr, htime.due]
      exact hline t w hw
  · simp only [List.mem_singleton, Prod.mk.injEq, reduceCtorEq, and_false] at hmem

end

/-- A failed read ends the job with the wait it is in. -/
theorem timeline_readFailed (t : Nat) (w : Word) (pos : Position) (h : ReadFailed pos)
    (hdim : pos.dim = Dim.check w) :
    Timeline t w (pos.transfers t) (t + pos.elapsed) false := by
  cases h with
  | a n a => exact Timeline.readA n hdim.symm
  | b n a b => exact Timeline.readB n hdim.symm

/-- So does the write of the result. -/
theorem timeline_writeC (t : Nat) (w : Word) (n : Dim) (ok : Bool) (hn : Dim.check w = some n) :
    Timeline t w ((Position.writeC n ok).transfers t) (t + (Position.writeC n ok).elapsed)
      ok := by
  cases ok with
  | false =>
      have hend : t + (Position.writeC n false).elapsed = t + 190 + 2 * n.val * n.val := by
        change t + (140 + n.val * 2 * n.val + 50) = _
        ring
      rw [hend]
      exact Timeline.writeC n hn
  | true =>
      have hend : t + (Position.writeC n true).elapsed = t + 210 + 2 * n.val * n.val := by
        change t + (140 + n.val * 2 * n.val + 70) = _
        ring
      rw [hend]
      exact Timeline.done n hn

theorem transfers_rowsLeft (t : Nat) (pos : Position) (n : Dim) (a b c : FloatMatrix n.val)
    (i : Nat) (h : RowsLeft pos n a b c i) :
    pos.transfers t =
      [⟨t, .a, 4 * n.val * n.val, true⟩, ⟨t + 70, .b, 4 * n.val * n.val, true⟩] := by
  cases h with
  | first _ _ _ => rfl
  | next _ _ _ _ _ => rfl

section

variable [FloatArith] {mem : List Byte}

/-- A dispatch outside jobs that begins none. -/
theorem clocked_park (s : Timed) (ls : List TimedLabel) (tr : List (Nat × Event)) (a : Attached)
    (h : Clocked mem s ls tr) (hpos : s.device.computeThread.position.inJob = false)
    (hjob : a.device.computeThread.position.inJob = false) :
    Clocked mem (s.after (.compute ()) a) (ls ++ [.step (.compute ())]) (tr ++ []) := by
  refine ⟨fun hin => absurd (hjob.symm.trans hin) Bool.false_ne_true,
    endsOnTime_append ls _ tr [] h.ended (fun _ _ => List.not_mem_nil),
    accounted_append _ _ tr [] h.accounted (fun _ => List.not_mem_nil)
      (fun hin => absurd (hpos.symm.trans hin) Bool.false_ne_true)⟩

/-- A dispatch that refuses a job ends it where it begins. -/
theorem clocked_refuse (s : Timed) (ls : List TimedLabel) (tr : List (Nat × Event))
    (a : Attached) (w : Word) (h : Clocked mem s ls tr) (hbegun : BegunAt mem ls tr s.now w)
    (hn : Dim.check w = none) (hjob : a.device.computeThread.position.inJob = false) :
    Clocked mem (s.after (.compute ()) a) (ls ++ [.step (.compute ())])
      (tr ++ [(s.now, .jobBegun), (s.now, .jobEnded false)]) := by
  refine ⟨fun hin => absurd (hjob.symm.trans hin) Bool.false_ne_true, ?_, ?_⟩
  · refine endsOnTime_concat ls _ tr [(s.now, .jobBegun)] s.now false h.ended
      (fun t ok hmem => ?_) ⟨s.now, w, [], ⟨ls, [], tr, [], rfl, hbegun, rfl,
        fun _ he => absurd he List.not_mem_nil, rfl⟩, Timeline.refused hn⟩
    simp only [List.mem_singleton, Prod.mk.injEq, reduceCtorEq, and_false] at hmem
  · have hopen : Accounted true (tr ++ [(s.now, .jobBegun)]) := fun _ _ _ _ => Or.inr rfl
    have hclosed := accounted_append _ (s.after (.compute ()) a).device.computeThread.position.inJob
      _ [(s.now, .jobEnded false)] hopen
      (fun t hmem => by simp only [List.mem_singleton, Prod.mk.injEq, reduceCtorEq,
        and_false] at hmem)
      (fun _ => Or.inl ⟨s.now, false, List.mem_singleton.mpr rfl⟩)
    rwa [List.append_assoc] at hclosed

/-- A dispatch that begins a job and makes its first transaction. -/
theorem clocked_begin (target : DmaTarget) (s : Timed) (ls : List TimedLabel)
    (tr : List (Nat × Event)) (a : Attached) (es : List Event) (h : Clocked mem s ls tr)
    (w : Word) (n : Dim) (ok : Bool) (x : FloatMatrix n.val) (p : Payload)
    (hlen : p.data.length = 4 * n.val * n.val)
    (hbegun : BegunAt mem ls tr s.now w) (hn : Dim.check w = some n)
    (hd : Dispatch target s.device a.device es)
    (hpos : s.device.computeThread.position = .waitStart)
    (hpos' : a.device.computeThread.position = .readA n ok x) :
    Clocked mem (s.after (.compute ()) a) (ls ++ [.step (.compute ())])
      (tr ++ [(s.now, .jobBegun), (s.now, .dma .a p ok)]) := by
  have hout : s.device.computeThread.position.inJob = false := by
    rw [hpos]
    rfl
  have hin : a.device.computeThread.position.inJob = true := by
    rw [hpos']
    rfl
  rcases elapsed_begin target _ _ _ hd hout hin with ⟨htime, hinside⟩
  refine ⟨fun _ => ⟨s.now, w, ⟨hin, hinside, congrArg (s.now + ·) htime.symm,
      Nat.le_add_right _ _, fun hr => ?_⟩, ?_, ?_⟩,
    endsOnTime_append ls _ tr _ h.ended (fun t ok hmem => ?_), fun _ _ _ _ => Or.inr hin⟩
  · exact absurd ((suspended_dispatch target _ _ es hd).symm.trans hr) Bool.false_ne_true
  · change a.device.computeThread.position.dim = _
    rw [hpos', hn]
    rfl
  · change Logged mem _ _ _ _ (a.device.computeThread.position.transfers s.now)
    refine ⟨ls, [], tr, [(s.now, .dma .a p ok)], rfl, hbegun, rfl, fun e he => ?_, ?_⟩
    · rw [List.mem_singleton.mp he]
      exact trivial
    · rw [hpos']
      change [_] = [_]
      rw [hlen]
  · simp only [List.mem_cons, Prod.mk.injEq, reduceCtorEq, and_false, List.not_mem_nil,
      or_self] at hmem

/-- A dispatch of the compute thread. -/
theorem clocked_dispatch (target : DmaTarget) (s : Timed) (ls : List TimedLabel)
    (tr : List (Nat × Event)) (a : Attached) (es : List Event) (h : Clocked mem s ls tr)
    (hr : s.device.computeThread.runnable = true)
    (hd : Dispatch target s.device a.device es)
    (hbegun : ∀ es', es = .jobBegun :: es' → BegunAt mem ls tr s.now s.device.regs.regDimN) :
    Clocked mem (s.after (.compute ()) a) (ls ++ [.step (.compute ())])
      (tr ++ es.map (fun e => (s.now, e))) := by
  have hd₀ := hd
  generalize hd' : a.device = d' at hd
  cases hd with
  | enter hpos => exact clocked_park s ls tr a h (by rw [hpos]; rfl) (by rw [hd']; rfl)
  | spurious hpos _ => exact clocked_park s ls tr a h (by rw [hpos]; rfl) (by rw [hd']; rfl)
  | refuse _ _ hn =>
      exact clocked_refuse s ls tr a _ h (hbegun _ rfl) hn (by rw [hd']; rfl)
  | readA hpos _ n hn ok _ =>
      exact clocked_begin target s ls tr a _ h _ n ok _ _ (length_readPayload _ _ _)
        (hbegun _ rfl) hn hd₀ hpos (by rw [hd']; rfl)
  | readB n x hpos ok _ =>
      refine clocked_move target s ls tr a _ h hr hd₀ (by rw [hpos]; rfl) (by rw [hd']; rfl)
        (by rw [hd', hpos]; rfl) (fun e he => by rw [List.mem_singleton.mp he]; exact trivial)
        (fun t ht => ?_)
      rw [hpos] at ht
      rw [hd', hpos, ht]
      change [_, _] = [_, _]
      rw [length_readPayload]
      rfl
  | row n x y z i hrows _ =>
      refine clocked_move target s ls tr a _ h hr hd₀ (inJob_of_rowsLeft _ n x y z i hrows)
        (by rw [hd']; rfl) (by rw [hd', (answers_of_rowsLeft _ n x y z i hrows).1]; rfl)
        (fun _ he => absurd he List.not_mem_nil) (fun t _ => ?_)
      rw [hd', transfers_rowsLeft t _ n x y z i hrows]
      rfl
  | writeC n x y z i hrows hi ok _ =>
      have hin := inJob_of_rowsLeft _ n x y z i hrows
      refine clocked_move target s ls tr a _ h hr hd₀ hin (by rw [hd']; rfl)
        (by rw [hd', (answers_of_rowsLeft _ n x y z i hrows).1]; rfl)
        (fun e he => by rw [List.mem_singleton.mp he]; exact trivial) (fun t ht => ?_)
      -- All rows have had their wait by now.
      rcases h.running hin with ⟨t', w, htime, -, -⟩
      rcases elapsed_rowsLeft _ n x y z i hrows htime.inside with ⟨hel, hle⟩
      have hlast : i = n.val := by omega
      have hnow : s.now = t + 140 + 2 * n.val * n.val := by
        rw [ht, hel, hlast]
        ring
      rw [hd', transfers_rowsLeft t _ n x y z i hrows, hnow]
      change [_, _, _] = [_, _, _]
      rw [length_writePayload]
  | fail hfail =>
      exact clocked_end s ls tr a false h hr (inJob_of_readFailed _ hfail) (by rw [hd']; rfl)
        (fun t w hdim => timeline_readFailed t w _ hfail hdim)
  | finish n ok hpos =>
      refine clocked_end s ls tr a ok h hr (by rw [hpos]; rfl) (by rw [hd']; rfl)
        (fun t w hdim => ?_)
      rw [hpos] at hdim ⊢
      exact timeline_writeC t w n ok hdim.symm

/-- Every step keeps the clock against the trace. -/
theorem clocked_step (s : Timed) (ls : List TimedLabel) (tr : List (Nat × Event))
    (l : TimedLabel) (s' : Timed) (es' : List (Nat × Event))
    (hrun : timed.run (Timed.start mem) ls = some (s, tr)) (h : Clocked mem s ls tr)
    (hstep : timed.step s l = some (s', es')) : Clocked mem s' (ls ++ [l]) (tr ++ es') := by
  cases l with
  | elapse dt =>
      rcases (timed_elapse_iff s s' dt es').mp hstep with ⟨hmay, rfl, rfl⟩
      refine ⟨fun hjob => ?_, endsOnTime_append ls _ tr [] h.ended (fun _ _ => List.not_mem_nil),
        by rw [List.append_nil]; exact h.accounted⟩
      rcases h.running hjob with ⟨t, w, htime, hw, hlog⟩
      refine ⟨t, w, ⟨hjob, htime.inside, htime.due, hmay.2.2 hjob, fun hr => ?_⟩, hw, ?_⟩
      · -- Time passes only while the thread is suspended.
        exact absurd (hmay.1.1.symm.trans hr) Bool.false_ne_true
      · rw [List.append_nil]
        exact logged_later ls _ tr t w _ hlog
  | step l =>
      rcases (timed_step_iff s s' l es').mp hstep with ⟨a, es, hsys, htimeout, -, rfl, rfl⟩
      have hinv := (system_step_inv _ _ _ _ hsys).1
      generalize hd' : a.device = d' at hinv
      cases l with
      | bar0 t =>
          cases hinv with
          | bar0 _ _ es₀ he =>
              refine clocked_frame s ls tr _ a _ h rfl ?_ (fun hjob hr => Or.inr ?_)
                (fun e hmem => ?_)
              · rw [hd']
                exact position_bar0 _ _ t es₀ he
              · rw [hd', bar0_runnable_inJob _ _ t es₀ he hjob] at hr
                exact hr
              · rcases List.mem_append.mp hmem with hmem | hmem
                · exact insideJob_bar0 _ _ t es₀ he e hmem
                · rw [List.mem_singleton.mp hmem]
                  exact ⟨trivial, rfl⟩
      | compute _ =>
          cases hinv with
          | compute _ _ _ hr hd =>
              rw [← hd'] at hd
              refine clocked_dispatch _ s ls tr a es h hr hd (fun es₀ hes => ?_)
              rw [hes] at hstep
              exact ⟨s, _, _, hrun, rfl, hstep⟩
      | control =>
          cases hinv <;>
            exact clocked_frame s ls tr _ a [] h rfl (by rw [hd'])
              (fun _ hr => Or.inr (by rw [hd'] at hr; exact hr))
              (fun _ he => absurd he List.not_mem_nil)
      | update =>
          cases hinv
          exact clocked_frame s ls tr _ a [] h rfl (by rw [hd'])
            (fun _ hr => Or.inr (by rw [hd'] at hr; exact hr))
            (fun _ he => absurd he List.not_mem_nil)
      | timeout =>
          cases hinv
          exact clocked_frame s ls tr _ a [] h rfl (by rw [hd']; rfl)
            (fun _ _ => Or.inl (htimeout rfl)) (fun _ he => absurd he List.not_mem_nil)

theorem clocked_run (ls : List TimedLabel) (s : Timed) (tr : List (Nat × Event))
    (hrun : timed.run (Timed.start mem) ls = some (s, tr)) : Clocked mem s ls tr := by
  have hstart : Clocked mem (Timed.start mem) [] [] :=
    ⟨fun hjob => absurd hjob Bool.false_ne_true,
      fun pre t ok post hsplit => absurd hsplit (nil_ne_split pre post _),
      fun pre t post hsplit => absurd hsplit (nil_ne_split pre post _)⟩
  -- The run so far is part of the relation: it is what a job is logged with.
  have hrel := timed.run_relation (fun _ _ => True)
    (fun s ls tr => timed.run (Timed.start mem) ls = some (s, tr) ∧ Clocked mem s ls tr)
    (fun s ls tr l s' es h _ hstep => ⟨timed.run_append _ s s' ls [l] tr es h.1
      ((Machine.run_singleton_iff timed s l s' es).mpr hstep),
      clocked_step s ls tr l s' es h.1 h.2 hstep⟩)
    (Timed.start mem) [] [] ⟨rfl, hstart⟩ ls
    (timed.along_of_forall_mem _ _ ls (fun _ _ => trivial)) s tr hrun
  exact hrel.2

end

/-- Every job is on its timetable. Whatever the memory holds, whatever BAR0
    traffic arrives and in whatever order the kernel dispatches: where a job
    ends, the last beginning of a job before it was at a time `t₁` and with a
    `w` in DIM_N from which its DMA transactions and its end follow by
    `Timeline`; while the thread is inside a job, the job has made the
    transactions its position calls for and the wait it is in is due when the
    timetable says; and a job that has begun has ended or is the one the thread
    is inside. So a job of dimension `n` that succeeds takes exactly
    `210 + 2 * n * n` nanoseconds. Runs in which the guard of `host_memory`
    wraps and lets a copy outside the memory through are not among these, for
    they have no step there. -/
theorem job_timeline [FloatArith] (mem : List Byte) (ls : List TimedLabel) (s : Timed)
    (tr : List (Nat × Event)) (hrun : timed.run (Timed.start mem) ls = some (s, tr)) :
    (∀ pre t₂ ok post, tr = pre ++ (t₂, .jobEnded ok) :: post →
      ∃ t₁ w xs, Logged mem ls pre t₁ w xs ∧ Timeline t₁ w xs t₂ ok) ∧
    (s.device.computeThread.position.inJob = true →
      ∃ t₁ w, OnTime t₁ s ∧ s.device.computeThread.position.dim = Dim.check w ∧
        Logged mem ls tr t₁ w (s.device.computeThread.position.transfers t₁)) ∧
    ∀ pre t₁ post, tr = pre ++ (t₁, .jobBegun) :: post →
      (∃ t₂ ok, (t₂, .jobEnded ok) ∈ post) ∨
        s.device.computeThread.position.inJob = true := by
  have hclock := clocked_run ls s tr hrun
  exact ⟨hclock.ended, hclock.running, hclock.accounted⟩

/-- The parameters of a job of dimension one on a memory of twelve bytes. -/
def oneParams : Params where
  dimN := 1
  ptr
    | .a => 0
    | .b => 4
    | .c => 8

/-- Programming them, a pointer whole and the others by halves. -/
def oneProgram : List (Label Unit) :=
  [ParamWrite.whole .a, .high .b, .dimN, .low .b, .low .c, .high .c].map
    (fun x => .bar0 (x.payload oneParams))

/-- A job of dimension one up to its last dispatch: it begins at 5. -/
def timedOne : List TimedLabel :=
  [.step (.compute ()), .elapse 5] ++ oneProgram.map .step ++
    [.step (.bar0 (.write32 Register.control.offset Ctrl.start)), .step (.compute ()),
      .elapse 70, .step .timeout, .step (.compute ()), .elapse 70, .step .timeout,
      .step (.compute ()), .elapse 2, .step .timeout, .step (.compute ()), .elapse 30,
      .step (.bar0 (.write32 Register.control.offset Ctrl.reset)), .elapse 40, .step .timeout]

/-- A job of dimension one takes 212 ns, a RESET in its last wait
    notwithstanding. -/
theorem job_timeline_one :
    ∃ s pre, (@timed float32Arith).run (Timed.start (List.replicate 12 0))
        (timedOne ++ [.step (.compute ())]) = some (s, pre ++ [(217, .jobEnded true)]) ∧
      ∃ t₁ w xs, @Logged float32Arith (List.replicate 12 0) (timedOne ++ [.step (.compute ())])
        pre t₁ w xs ∧ Timeline t₁ w xs 217 true := by
  have hruns : ∃ s₁ pre s₂,
      (@timed float32Arith).run (Timed.start (List.replicate 12 0)) timedOne = some (s₁, pre) ∧
        (@timed float32Arith).run s₁ [.step (.compute ())] =
          some (s₂, [(217, .jobEnded true)]) := ⟨_, _, _, rfl, rfl⟩
  rcases hruns with ⟨s₁, pre, s₂, h₁, h₂⟩
  have hrun := (@timed float32Arith).run_append _ s₁ s₂ timedOne _ pre _ h₁ h₂
  exact ⟨s₂, pre, hrun, (@job_timeline float32Arith _ _ s₂ _ hrun).1 pre 217 true [] rfl⟩

end PcieCosim
