import PcieCosim.Endpoint.Bounds
import PcieCosim.Lib.Variant
import PcieCosim.Testbench.Scenes

/-!
# How a Test Ends

The outcome of the testbench over every order of dispatches.

The scenes of a test are closed under its steps, so the state at `sc_stop` is
that of the last scene: the product in memory, the interrupt acknowledged, and
a transcript with the same lines at the same times in every run.

That it gets there is a matter of counting. A dispatch uses up a runnable
process and can make others runnable only down the list from the driver over
the compute thread to the interrupt controller, which in turn can only write
the signal; an update uses up the written signal; and time advances at least
by one and never past the end of the test. `Bench.variant` adds these up, so
runs are bounded, and since some step is always possible before `sc_stop` they
can all be continued to it.

A job that does not fit leaves the driver in its loop. Time then advances for
ever.

## Main definitions

* `OnCue`: The driver is dispatched when the transcript says.
* `Bench.work`, `Bench.variant`: What is left to do at a time, and in all.

## Theorems

* `scene_step`, `scene_start`: The scenes are closed under steps.
* `printed_step`: What a step prints is the next part of the transcript.
* `testbench_transcript`: Where a successful test ends.
* `work_step`: Every step but the advance of time uses up work.
* `scene_progress`: Before `sc_stop` some step is possible.
* `testbench_terminates`: Every run of a successful test ends at `sc_stop`.
* `testbench_hangs`: A test whose job fails never ends.
-/

namespace PcieCosim

open Bytes Kernel Transition

/-- A parked thread is not dispatched. -/
theorem no_compute [FloatArith] (p : Params) (s s' : Bench) (es : List (Nat × BenchEvent))
    (h : Parked s.device) (hstep : (testbench p).step s .compute = some (s', es)) : False := by
  have hr := compute_runnable p s s' es hstep
  rw [h.2] at hr
  exact absurd hr Bool.false_ne_true

/-- A dispatch of the controller after a job writes what INT_STATUS says. -/
theorem control_jobOver (d : Device) (status intStatus : Word) (h : JobOver d status intStatus)
    (hpos : d.interruptController.position = .waiting) :
    d.control =
      { d with
        interruptController := suspend .waiting
        interrupt := d.interrupt.write (intStatus &&& 1 != 0) } := by
  simp only [Device.control, hpos, Registers.irq, h.intStatus, h.intEnable]

/-- The first poll after the end of the job. -/
theorem seenAt_of_due (n due : Nat) (hlt : jobEnd n < due) (hle : due ≤ jobEnd n + 10)
    (htens : due % 10 = 0) : due = seenAt n := by
  unfold seenAt
  omega

theorem raising_step [FloatArith] (p : Params) (mem : List Byte) (s s' : Bench) (l : BenchLabel)
    (es : List (Nat × BenchEvent)) (hf : Fits p mem) (h : Raising p mem s)
    (hstep : (testbench p).step s l = some (s', es)) : Scene p mem s' := by
  have hlow : s.device.interrupt.current = false := by
    rcases h.line with ⟨-, hi⟩ | ⟨-, hi⟩
    · rw [hi]
      rfl
    · rw [hi]
  cases l with
  | compute => exact (no_compute p s s' es h.ended.parked hstep).elim
  | control =>
      rcases (testbench_control_iff p s s' es).mp hstep with ⟨hr, rfl, -⟩
      rcases h.line with ⟨hc, hi⟩ | ⟨hc, -⟩
      · have hcontrol := control_jobOver s.device _ _ h.ended (by rw [hc])
        rw [hi] at hcontrol
        rw [hcontrol]
        exact Scene.raising hf ⟨polls_frame s _ h.polls rfl rfl rfl, h.now,
          jobOver_frame _ _ _ _ h.ended rfl rfl, h.product, Or.inr ⟨rfl, rfl⟩⟩
      · rw [hc] at hr
        exact absurd hr Bool.false_ne_true
  | testSequence =>
      -- The line is not updated before every process has run.
      rcases (testbench_sequence_iff p s s' es).mp hstep with ⟨hr, hseq⟩
      rcases polls_low p s h.polls hr hlow with ⟨heq, hpolls⟩
      rw [hseq] at heq hpolls
      change s' = _ at heq
      refine Scene.raising hf ⟨hpolls, ?_, ?_, ?_, ?_⟩
      · rw [heq]
        exact h.now
      · rw [heq]
        exact h.ended
      · rw [heq]
        exact h.product
      · rw [heq]
        exact h.line
  | update =>
      rcases (testbench_update_iff p s s' es).mp hstep with ⟨⟨he, hr, hne⟩, rfl, -⟩
      rcases h.line with ⟨hc, -⟩ | ⟨hc, hi⟩
      · exact absurd he (not_evaluated _ (by rw [hc]))
      · -- The driver has polled at this time, so its next poll is the first after it.
        have hclock := h.polls.clock
        have hlt : s.now < s.driverDue := by
          refine Nat.lt_of_le_of_ne hclock.notLate (fun heq => ?_)
          rw [hclock.woken.mpr heq] at hr
          exact absurd hr.symm Bool.false_ne_true
        have hseen : s.driverDue = seenAt p.dimN.toNat := by
          refine seenAt_of_due _ _ ?_ ?_ h.polls.tens
          · rw [← h.now]
            exact hlt
          · rw [← h.now]
            exact h.polls.soon
        have hpos : s.driver.position = .waitInterrupt := by
          rcases h.polls.position with hpos | ⟨-, hdue⟩
          · exact hpos
          · rw [hseen, seenAt, jobEnd] at hdue
            omega
        rw [hseen] at hclock
        refine Scene.signalled hf ⟨Or.inl ⟨hpos, dueAt_frame s _ _ hclock rfl rfl rfl⟩,
          jobOver_frame _ _ _ _ h.ended rfl rfl, h.product, hc, ?_⟩
        change s.device.interrupt.update = highSignal
        rw [hi]
        rfl
  | advance =>
      rcases (testbench_advance_iff p s s' es).mp hstep with ⟨⟨he, hsig, -⟩, -⟩
      rcases h.line with ⟨hc, -⟩ | ⟨-, hi⟩
      · exact absurd he (not_evaluated _ (by rw [hc]))
      · rw [hi] at hsig
        exact absurd hsig Bool.false_ne_true

theorem signalled_step [FloatArith] (p : Params) (mem : List Byte) (s s' : Bench) (l : BenchLabel)
    (es : List (Nat × BenchEvent)) (hf : Fits p mem) (h : Signalled p mem s)
    (hstep : (testbench p).step s l = some (s', es)) : Scene p mem s' := by
  cases l with
  | compute => exact (no_compute p s s' es h.ended.parked hstep).elim
  | control =>
      rcases (testbench_control_iff p s s' es).mp hstep with ⟨hr, -⟩
      rw [h.controller] at hr
      exact absurd hr Bool.false_ne_true
  | testSequence =>
      rcases (testbench_sequence_iff p s s' es).mp hstep with ⟨hr, hseq⟩
      have hs' : s' = (s.testSequence p).1 := by rw [hseq]
      rcases h.driver with ⟨hpos, hclock⟩ | ⟨hpos, hclock⟩ | ⟨hpos, hclock⟩
      · have hnow := now_of_runnable s _ hclock hr
        have hread : s.device.regs.word .status = Status.idle ||| Status.done := h.ended.status
        have hhigh : s.device.interrupt.current = true := by
          rw [h.interrupt]
          rfl
        simp only [Bench.testSequence, hpos, Bench.awaitInterrupt, hhigh, if_true,
          mmioRead32_fst, hread] at hs'
        rw [hs']
        exact Scene.signalled hf ⟨Or.inr (Or.inl ⟨rfl, dueAt_suspend s _ _ 10 _ (by decide) rfl rfl
          rfl (by rw [hnow])⟩), h.ended, h.product, h.controller, h.interrupt⟩
      · have hnow := now_of_runnable s _ hclock hr
        have hread : s.device.regs.word .intStatus = intDone := h.ended.intStatus
        simp only [Bench.testSequence, hpos, mmioRead32_fst, hread] at hs'
        rw [hs']
        exact Scene.signalled hf ⟨Or.inr (Or.inr ⟨rfl, dueAt_suspend s _ _ 10 _ (by decide) rfl rfl
          rfl (by rw [hnow])⟩), h.ended, h.product, h.controller, h.interrupt⟩
      · -- Writing back what was read clears INT_STATUS.
        have hnow := now_of_runnable s _ hclock hr
        simp only [Bench.testSequence, hpos, mmioWrite32_fst, bar0_write32] at hs'
        rw [hs']
        refine Scene.cleared hf ⟨Or.inl ⟨rfl, dueAt_suspend s _ _ 10 _ (by decide) rfl rfl rfl
          (by rw [hnow])⟩, ⟨h.ended.parked, h.ended.status, ?_, h.ended.intEnable⟩, h.product,
          Or.inr ⟨rfl, rfl, Or.inl ⟨?_, h.interrupt⟩⟩⟩
        · change s.device.regs.regIntStatus &&& ~~~intDone = 0
          rw [h.ended.intStatus]
          decide
        · change s.device.interruptController.notify (fun _ => true) = _
          rw [h.controller]
          rfl
  | update =>
      rcases (testbench_update_iff p s s' es).mp hstep with ⟨⟨-, -, hne⟩, -⟩
      rw [h.interrupt] at hne
      exact absurd rfl hne
  | advance =>
      rcases (testbench_advance_iff p s s' es).mp hstep with ⟨⟨-, -, hr, -⟩, rfl, -⟩
      have hclock := fun t => dueAt_wake s t h.ended.parked hr
      rw [advanced_of_not_inJob s (parked_not_inJob _ h.ended.parked)]
      exact Scene.signalled hf ⟨h.driver.imp (fun hd => ⟨hd.1, hclock _ hd.2⟩)
        (Or.imp (fun hd => ⟨hd.1, hclock _ hd.2⟩) (fun hd => ⟨hd.1, hclock _ hd.2⟩)),
        h.ended, h.product, h.controller, h.interrupt⟩

theorem cleared_step [FloatArith] (p : Params) (mem : List Byte) (s s' : Bench) (l : BenchLabel)
    (es : List (Nat × BenchEvent)) (hf : Fits p mem) (h : Cleared p mem s)
    (hstep : (testbench p).step s l = some (s', es)) : Scene p mem s' := by
  have hdriver : ∀ d : Device,
      (s.driver.position = .clearInt ∧
        Bench.DueAt { s with device := d } (seenAt p.dimN.toNat + 30)) ∨
      (s.driver.position = .afterTest ∧
        Bench.DueAt { s with device := d } (seenAt p.dimN.toNat + 130)) ∨
      (s.driver = suspend .stopped ∧ s.now = seenAt p.dimN.toNat + 130) := fun d =>
    h.driver.imp (fun hd => ⟨hd.1, dueAt_frame s _ _ hd.2 rfl rfl rfl⟩)
      (Or.imp_left (fun hd => ⟨hd.1, dueAt_frame s _ _ hd.2 rfl rfl rfl⟩))
  cases l with
  | compute => exact (no_compute p s s' es h.ended.parked hstep).elim
  | control =>
      rcases (testbench_control_iff p s s' es).mp hstep with ⟨hr, rfl, -⟩
      rcases h.line with ⟨hc, -⟩ | ⟨hpos, hr', ⟨hc, hi⟩ | ⟨hc, -⟩⟩
      · rw [hc] at hr
        exact absurd hr Bool.false_ne_true
      · have hcontrol := control_jobOver s.device _ _ h.ended (by rw [hc])
        rw [hi] at hcontrol
        refine Scene.cleared hf ⟨hdriver _, jobOver_frame _ _ _ _ h.ended (control_frame _).1
          (control_frame _).2.1,
          h.product, Or.inr ⟨hpos, hr', Or.inr ⟨?_, ?_⟩⟩⟩
        · rw [hcontrol]
        · rw [hcontrol]
          rfl
      · rw [hc] at hr
        exact absurd hr Bool.false_ne_true
  | testSequence =>
      rcases (testbench_sequence_iff p s s' es).mp hstep with ⟨hr, hseq⟩
      have hs' : s' = (s.testSequence p).1 := by rw [hseq]
      have hline : s.device.interruptController = suspend .waiting ∧
          s.device.interrupt = lowSignal := by
        rcases h.line with hlow | ⟨-, hr', -⟩
        · exact hlow
        · rw [hr'] at hr
          exact absurd hr Bool.false_ne_true
      rcases h.driver with ⟨hpos, hclock⟩ | ⟨hpos, hclock⟩ | ⟨hstop, -⟩
      · have hnow := now_of_runnable s _ hclock hr
        simp only [Bench.testSequence, hpos] at hs'
        rw [hs']
        exact Scene.cleared hf ⟨Or.inr (Or.inl ⟨rfl, dueAt_suspend s _ _ 100 _ (by decide) rfl
          rfl rfl (by rw [hnow])⟩), h.ended, h.product, Or.inl hline⟩
      · have hnow := now_of_runnable s _ hclock hr
        simp only [Bench.testSequence, hpos] at hs'
        rw [hs']
        exact Scene.cleared hf ⟨Or.inr (Or.inr ⟨rfl, hnow⟩), h.ended, h.product, Or.inl hline⟩
      · rw [hstop] at hr
        exact absurd hr Bool.false_ne_true
  | update =>
      rcases (testbench_update_iff p s s' es).mp hstep with ⟨⟨he, -, hne⟩, rfl, -⟩
      rcases h.line with ⟨-, hi⟩ | ⟨-, -, ⟨hc, -⟩ | ⟨hc, hi⟩⟩
      · rw [hi] at hne
        exact absurd rfl hne
      · exact absurd he (not_evaluated _ (by rw [hc]))
      · refine Scene.cleared hf ⟨hdriver _, jobOver_frame _ _ _ _ h.ended rfl rfl,
          h.product, Or.inl ⟨hc, ?_⟩⟩
        change s.device.interrupt.update = lowSignal
        rw [hi]
        rfl
  | advance =>
      rcases (testbench_advance_iff p s s' es).mp hstep with ⟨⟨he, hsig, hr, hnot⟩, rfl, -⟩
      have hline : s.device.interruptController = suspend .waiting ∧
          s.device.interrupt = lowSignal := by
        rcases h.line with hlow | ⟨-, -, ⟨hc, -⟩ | ⟨-, hi⟩⟩
        · exact hlow
        · exact absurd he (not_evaluated _ (by rw [hc]))
        · rw [hi] at hsig
          exact absurd hsig.symm Bool.false_ne_true
      have hclock := fun t => dueAt_wake s t h.ended.parked hr
      rw [advanced_of_not_inJob s (parked_not_inJob _ h.ended.parked)]
      refine Scene.cleared hf ⟨?_, h.ended, h.product, Or.inl hline⟩
      rcases h.driver with ⟨hpos, ht⟩ | ⟨hpos, ht⟩ | ⟨hstop, -⟩
      · exact Or.inl ⟨hpos, hclock _ ht⟩
      · exact Or.inr (Or.inl ⟨hpos, hclock _ ht⟩)
      · rw [hstop] at hnot
        exact absurd rfl hnot

theorem failed_step [FloatArith] (p : Params) (mem : List Byte) (s s' : Bench) (l : BenchLabel)
    (es : List (Nat × BenchEvent)) (hf : ¬ Fits p mem) (h : Failed mem s)
    (hstep : (testbench p).step s l = some (s', es)) : Scene p mem s' := by
  cases l with
  | compute => exact (no_compute p s s' es h.ended.parked hstep).elim
  | control =>
      rcases (testbench_control_iff p s s' es).mp hstep with ⟨-, rfl, -⟩
      have hcontrol := control_jobOver s.device _ _ h.ended h.controller
      rw [h.interrupt] at hcontrol
      rw [hcontrol]
      exact Scene.failed hf ⟨polls_frame s _ h.polls rfl rfl rfl,
        jobOver_frame _ _ _ _ h.ended rfl rfl, h.memory, rfl, rfl⟩
  | testSequence =>
      rcases (testbench_sequence_iff p s s' es).mp hstep with ⟨hr, hseq⟩
      rcases polls_low p s h.polls hr (by rw [h.interrupt]; rfl) with ⟨heq, hpolls⟩
      rw [hseq] at heq hpolls
      change s' = _ at heq
      refine Scene.failed hf ⟨hpolls, ?_, ?_, ?_, ?_⟩
      · rw [heq]
        exact h.ended
      · rw [heq]
        exact h.memory
      · rw [heq]
        exact h.controller
      · rw [heq]
        exact h.interrupt
  | update =>
      rcases (testbench_update_iff p s s' es).mp hstep with ⟨⟨-, -, hne⟩, -⟩
      rw [h.interrupt] at hne
      exact absurd rfl hne
  | advance =>
      rcases (testbench_advance_iff p s s' es).mp hstep with ⟨⟨-, -, hr, -⟩, rfl, -⟩
      have hout := parked_not_inJob _ h.ended.parked
      have hle : s.now ≤ s.nextDue := by
        rw [Bench.nextDue, hout]
        exact h.polls.clock.notLate
      have hpolls := polls_advanced s h.polls hr hle
      rw [advanced_of_not_inJob s hout] at hpolls ⊢
      exact Scene.failed hf ⟨hpolls, h.ended, h.memory, h.controller, h.interrupt⟩

/-- Every step leads from scene to scene. -/
theorem scene_step [FloatArith] (p : Params) (mem : List Byte) (s s' : Bench) (l : BenchLabel)
    (es : List (Nat × BenchEvent)) (h : Scene p mem s)
    (hstep : (testbench p).step s l = some (s', es)) : Scene p mem s' := by
  cases h with
  | setup h => exact setup_step p mem s s' l es h hstep
  | inJob h => exact inJob_step p mem s s' l es h hstep
  | raising hf h => exact raising_step p mem s s' l es hf h hstep
  | signalled hf h => exact signalled_step p mem s s' l es hf h hstep
  | cleared hf h => exact cleared_step p mem s s' l es hf h hstep
  | failed hf h => exact failed_step p mem s s' l es hf h hstep

/-- The first scene. -/
theorem scene_start [FloatArith] (p : Params) (mem : List Byte) :
    Scene p mem (Bench.start mem) :=
  Scene.setup ⟨rfl, ⟨rfl, Nat.le_refl 0, ⟨fun _ => rfl, fun _ => rfl⟩⟩, rfl, Or.inr ⟨rfl, rfl⟩,
    Or.inl rfl, rfl, rfl⟩

/-- The driver is dispatched when the transcript says, with the values it says
    in hand. -/
def OnCue (p : Params) (s : Bench) : Prop :=
  match s.driver.position with
  | .entry => s.now = 0
  | .beforeTest => s.now = 100
  | .readStatus v => v = Status.idle ∧ s.now = 110
  | .setIntEnable => s.now = 160
  | .start => s.now = 170 ∧ s.device.interrupt.current = false
  | .waitInterrupt => s.device.interrupt.current = true → s.now = seenAt p.dimN.toNat
  | .finalStatus v => v = Status.idle ||| Status.done ∧ s.now = seenAt p.dimN.toNat + 10
  | .intStatus v => v = intDone ∧ s.now = seenAt p.dimN.toNat + 20
  | .clearInt => s.now = seenAt p.dimN.toNat + 30
  | _ => True

/-- A poll that finds the line low is always on cue. -/
theorem onCue_polls (p : Params) (s : Bench) (h : Polls s) (hr : s.driver.runnable = true)
    (hlow : s.device.interrupt.current = false) : OnCue p s := by
  have hnow := now_of_runnable s _ h.clock hr
  unfold OnCue
  rcases h.position with hpos | ⟨hpos, hdue⟩
  · rw [hpos]
    exact fun hhigh => absurd (hlow.symm.trans hhigh) Bool.false_ne_true
  · rw [hpos]
    exact ⟨hnow.trans hdue, hlow⟩

theorem scene_onCue [FloatArith] (p : Params) (mem : List Byte) (s : Bench) (h : Scene p mem s)
    (hr : s.driver.runnable = true) : OnCue p s := by
  cases h with
  | setup h =>
      have hnow := now_of_runnable s _ h.clock hr
      have hset := h.position
      unfold OnCue
      cases hpos : s.driver.position with
      | readStatus v =>
          rw [hpos] at hset hnow
          exact ⟨eq_of_beq hset, hnow⟩
      | entry => rw [hpos] at hnow; exact hnow
      | beforeTest => rw [hpos] at hnow; exact hnow
      | setIntEnable => rw [hpos] at hnow; exact hnow
      | setDim => exact trivial
      | setPtr m => exact trivial
      | afterTest => exact trivial
      | stopped => exact trivial
      | _ => rw [hpos] at hset; exact absurd hset Bool.false_ne_true
  | inJob h => exact onCue_polls p s h.polls hr (by rw [h.interrupt]; rfl)
  | raising _ h =>
      refine onCue_polls p s h.polls hr ?_
      rcases h.line with ⟨-, hi⟩ | ⟨-, hi⟩
      · rw [hi]
        rfl
      · rw [hi]
  | signalled _ h =>
      unfold OnCue
      rcases h.driver with ⟨hpos, hclock⟩ | ⟨hpos, hclock⟩ | ⟨hpos, hclock⟩
      · rw [hpos]
        exact fun _ => now_of_runnable s _ hclock hr
      · rw [hpos]
        exact ⟨rfl, now_of_runnable s _ hclock hr⟩
      · rw [hpos]
        exact ⟨rfl, now_of_runnable s _ hclock hr⟩
  | cleared _ h =>
      unfold OnCue
      rcases h.driver with ⟨hpos, hclock⟩ | ⟨hpos, -⟩ | ⟨hstop, -⟩
      · rw [hpos]
        exact now_of_runnable s _ hclock hr
      · rw [hpos]
        exact trivial
      · rw [hstop]
        exact trivial
  | failed _ h => exact onCue_polls p s h.polls hr (by rw [h.interrupt]; rfl)

theorem printed_append (tr es : List (Nat × BenchEvent)) :
    printed (tr ++ es) = printed tr ++ printed es := List.filterMap_append

/-- The endpoint prints nothing. -/
theorem printed_device (t : Nat) (es : List Event) :
    printed (es.map (fun e => (t, .device e))) = [] := by
  refine List.filterMap_eq_nil_iff.mpr (fun x hx => ?_)
  rcases List.mem_map.mp hx with ⟨e, -, rfl⟩
  rfl

theorem printed_messages (t : Nat) (ms : List Message) :
    printed (ms.map (fun m => (t, .printed m))) = ms.map (fun m => (t, m)) := by
  induction ms with
  | nil => rfl
  | cons m ms ih => exact congrArg ((t, m) :: ·) ih

theorem printed_mmio (s : Bench) (ms : List Message) (t : Payload)
    (next : Word → TestPosition) :
    printed (s.mmio ms t next).2 = ms.map (fun m => (s.now, m)) := by
  simp only [Bench.mmio]
  rw [printed_append, printed_messages, printed_device, List.append_nil]

/-- What a dispatch of the driver prints is the next part of the transcript. -/
theorem printed_sequence (p : Params) (s : Bench) (h : OnCue p s) :
    (transcript p).take s.driver.position.lines ++ printed (s.testSequence p).2 =
      (transcript p).take (s.testSequence p).1.driver.position.lines := by
  unfold OnCue at h
  cases hpos : s.driver.position with
  | entry =>
      rw [hpos] at h
      simp only [Bench.testSequence, hpos, Bench.waitFor, printed_messages, h]
      rfl
  | beforeTest =>
      rw [hpos] at h
      simp only [Bench.testSequence, hpos, Bench.mmioRead32, printed_mmio, h]
      rfl
  | readStatus v =>
      rw [hpos] at h
      simp only [Bench.testSequence, hpos, Bench.mmioWrite32, printed_mmio, h.1, h.2]
      rfl
  | setDim => simp only [Bench.testSequence, hpos, Bench.mmioWrite64, printed_mmio]; rfl
  | setPtr m =>
      cases m with
      | a => simp only [Bench.testSequence, hpos, Bench.mmioWrite64, printed_mmio]; rfl
      | b => simp only [Bench.testSequence, hpos, Bench.mmioWrite64, printed_mmio]; rfl
      | c => simp only [Bench.testSequence, hpos, Bench.mmioWrite32, printed_mmio]; rfl
  | setIntEnable =>
      rw [hpos] at h
      simp only [Bench.testSequence, hpos, Bench.mmioWrite32, printed_mmio, h]
      rfl
  | start =>
      rw [hpos] at h
      simp only [Bench.testSequence, hpos, Bench.awaitInterrupt, h.2, Bench.waitFor,
        Bool.false_eq_true, if_false, printed_messages, h.1]
      rfl
  | waitInterrupt =>
      rw [hpos] at h
      by_cases hhigh : s.device.interrupt.current = true
      · simp only [Bench.testSequence, hpos, Bench.awaitInterrupt, hhigh, if_true,
          Bench.mmioRead32, printed_mmio, h hhigh]
        rfl
      · simp only [Bench.testSequence, hpos, Bench.awaitInterrupt, hhigh, Bench.waitFor,
          Bool.false_eq_true, if_false, printed_messages]
        rfl
  | finalStatus v =>
      rw [hpos] at h
      simp only [Bench.testSequence, hpos, Bench.mmioRead32, printed_mmio, h.1, h.2]
      rfl
  | intStatus v =>
      rw [hpos] at h
      simp only [Bench.testSequence, hpos, Bench.mmioWrite32, printed_mmio, h.1, h.2]
      rfl
  | clearInt =>
      rw [hpos] at h
      simp only [Bench.testSequence, hpos, Bench.waitFor, printed_messages, h]
      rfl
  | afterTest => simp only [Bench.testSequence, hpos]; rfl
  | stopped =>
      simp only [Bench.testSequence, hpos]
      rfl

/-- What a step prints is the next part of the transcript. -/
theorem printed_step [FloatArith] (p : Params) (mem : List Byte) (s s' : Bench) (l : BenchLabel)
    (es tr : List (Nat × BenchEvent)) (h : Scene p mem s)
    (htr : printed tr = (transcript p).take s.driver.position.lines)
    (hstep : (testbench p).step s l = some (s', es)) :
    printed (tr ++ es) = (transcript p).take s'.driver.position.lines := by
  rw [printed_append, htr]
  cases l with
  | compute =>
      rcases (testbench_compute_iff p s s' es).mp hstep with ⟨a, es₀, -, -, rfl, rfl⟩
      rw [printed_device, List.append_nil]
  | control =>
      rcases (testbench_control_iff p s s' es).mp hstep with ⟨-, rfl, rfl⟩
      exact List.append_nil _
  | testSequence =>
      rcases (testbench_sequence_iff p s s' es).mp hstep with ⟨hr, hseq⟩
      have hcue := printed_sequence p s (scene_onCue p mem s h hr)
      rw [hseq] at hcue
      exact hcue
  | update =>
      rcases (testbench_update_iff p s s' es).mp hstep with ⟨-, rfl, rfl⟩
      exact List.append_nil _
  | advance =>
      rcases (testbench_advance_iff p s s' es).mp hstep with ⟨-, rfl, rfl⟩
      have hpos : s.advanced.driver.position = s.driver.position := by
        change (if _ then s.driver.wake else s.driver).position = _
        split
        · rfl
        · rfl
      rw [hpos]
      exact List.append_nil _

/-- The scenes and the transcript along a run. -/
theorem scene_run [FloatArith] (p : Params) (mem : List Byte) (ls : List BenchLabel) (s : Bench)
    (tr : List (Nat × BenchEvent))
    (hrun : (testbench p).run (Bench.start mem) ls = some (s, tr)) :
    Scene p mem s ∧ printed tr = (transcript p).take s.driver.position.lines :=
  (testbench p).run_trace
    (fun s tr => Scene p mem s ∧ printed tr = (transcript p).take s.driver.position.lines)
    (fun s tr l s' es h hstep => ⟨scene_step p mem s s' l es h.1 hstep,
      printed_step p mem s s' l es tr h.1 h.2 hstep⟩)
    (Bench.start mem) ⟨scene_start p mem, rfl⟩ ls s tr hrun

theorem polls_not_stopped (s : Bench) (h : Polls s) : s.driver.position ≠ .stopped := by
  rcases h.position with hpos | ⟨hpos, -⟩
  · rw [hpos]
    decide
  · rw [hpos]
    decide

/-- `sc_stop` is called in the last scene only. -/
theorem cleared_of_stopped [FloatArith] (p : Params) (mem : List Byte) (s : Bench)
    (h : Scene p mem s) (hstop : s.driver.position = .stopped) :
    Fits p mem ∧ Cleared p mem s := by
  cases h with
  | setup h =>
      have hset := h.position
      rw [hstop] at hset
      exact absurd hset Bool.false_ne_true
  | inJob h => exact absurd hstop (polls_not_stopped s h.polls)
  | raising _ h => exact absurd hstop (polls_not_stopped s h.polls)
  | signalled _ h =>
      rcases h.driver with ⟨hpos, -⟩ | ⟨hpos, -⟩ | ⟨hpos, -⟩
      · exact absurd (hstop.symm.trans hpos) (by decide)
      · exact absurd (hstop.symm.trans hpos) (by decide)
      · exact absurd (hstop.symm.trans hpos) (by decide)
  | cleared hf h => exact ⟨hf, h⟩
  | failed _ h => exact absurd hstop (polls_not_stopped s h.polls)

/-- What is left to do at the current time: each process may make those after
    it runnable, and the last one may write the signal. -/
def Bench.work (s : Bench) : Nat :=
  (if s.driver.runnable then 8 else 0) + (if s.device.computeThread.runnable then 4 else 0) +
    (if s.device.interruptController.runnable then 2 else 0) +
    if s.device.interrupt.Settled then 0 else 1

/-- What is left to do until the time `t`. -/
def Bench.variant (t : Nat) (s : Bench) : Nat := 16 * (t - s.now) + s.work

theorem ite_runnable_le (b : Bool) (k : Nat) : (if b = true then k else 0) ≤ k := by
  cases b with
  | true => exact Nat.le_refl k
  | false => exact Nat.zero_le k

theorem ite_settled_le (x : Signal) : (if x.Settled then 0 else 1) ≤ 1 := by
  split
  · exact Nat.zero_le 1
  · exact Nat.le_refl 1

/-- A dispatch of the driver ends in a wait and leaves the signal and the time
    alone. -/
theorem sequence_frame (p : Params) (s : Bench) (hpos : s.driver.position ≠ .stopped) :
    (s.testSequence p).1.driver.runnable = false ∧ (s.testSequence p).1.now = s.now ∧
      (s.testSequence p).1.device.interrupt = s.device.interrupt := by
  -- No transaction touches the signal.
  have hmmio : ∀ ms t next, (s.mmio ms t next).1.driver.runnable = false ∧
      (s.mmio ms t next).1.now = s.now ∧
      (s.mmio ms t next).1.device.interrupt = s.device.interrupt := by
    intro ms t next
    refine ⟨rfl, rfl, ?_⟩
    change (s.device.bar0BTransport t).1.interrupt = _
    have he := bar0_effect s.device t
    generalize (s.device.bar0BTransport t).1 = d' at he
    generalize (s.device.bar0BTransport t).2.1 = es at he
    cases he <;> rfl
  cases hp : s.driver.position with
  | stopped => exact absurd hp hpos
  | entry => simp only [Bench.testSequence, hp]; exact ⟨rfl, rfl, rfl⟩
  | clearInt => simp only [Bench.testSequence, hp]; exact ⟨rfl, rfl, rfl⟩
  | afterTest =>
      have hseq : (s.testSequence p).1 = { s with driver := suspend .stopped } := by
        simp only [Bench.testSequence, hp]
      rw [hseq]
      exact ⟨rfl, rfl, rfl⟩
  | setPtr m => cases m <;> simp only [Bench.testSequence, hp] <;> exact hmmio _ _ _
  | start =>
      simp only [Bench.testSequence, hp, Bench.awaitInterrupt]
      split
      · exact hmmio _ _ _
      · exact ⟨rfl, rfl, rfl⟩
  | waitInterrupt =>
      simp only [Bench.testSequence, hp, Bench.awaitInterrupt]
      split
      · exact hmmio _ _ _
      · exact ⟨rfl, rfl, rfl⟩
  | _ => simp only [Bench.testSequence, hp]; exact hmmio _ _ _

/-- Every step but the advance of time uses up work. -/
theorem work_step [FloatArith] (p : Params) (s s' : Bench) (l : BenchLabel)
    (es : List (Nat × BenchEvent)) (hl : l ≠ .advance)
    (hstop : s.driver.runnable = true → s.driver.position ≠ .stopped)
    (hstep : (testbench p).step s l = some (s', es)) : s'.work < s.work ∧ s'.now = s.now := by
  have hcontroller := ite_runnable_le s'.device.interruptController.runnable 2
  have hsettled := ite_settled_le s'.device.interrupt
  cases l with
  | compute =>
      have hr := compute_runnable p s s' es hstep
      rcases (testbench_compute_iff p s s' es).mp hstep with ⟨a, es₀, hsys, -, rfl, -⟩
      have hd : Dispatch (boundedTarget s.memory) s.device a.device es₀ := by
        cases (system_step_inv _ _ _ _ hsys).1 with
        | compute _ _ _ _ hd => exact hd
      have hsusp := suspended_dispatch _ _ _ _ hd
      have hsignal : a.device.interrupt = s.device.interrupt := by
        generalize a.device = d' at hd
        cases hd <;> rfl
      refine ⟨?_, rfl⟩
      change (if s.driver.runnable = true then 8 else 0) +
        (if a.device.computeThread.runnable = true then 4 else 0) +
        (if a.device.interruptController.runnable = true then 2 else 0) +
        (if a.device.interrupt.Settled then 0 else 1) < s.work
      change (if a.device.interruptController.runnable = true then 2 else 0) ≤ 2 at hcontroller
      unfold Bench.work
      rw [hsusp, hr, hsignal, if_neg Bool.false_ne_true, if_pos rfl]
      omega
  | control =>
      rcases (testbench_control_iff p s s' es).mp hstep with ⟨hr, rfl, -⟩
      rcases control_frame s.device with ⟨-, hthread, hsusp⟩
      refine ⟨?_, rfl⟩
      change (if s.driver.runnable = true then 8 else 0) +
        (if s.device.control.computeThread.runnable = true then 4 else 0) +
        (if s.device.control.interruptController.runnable = true then 2 else 0) +
        (if s.device.control.interrupt.Settled then 0 else 1) < s.work
      change (if s.device.control.interrupt.Settled then 0 else 1) ≤ 1 at hsettled
      unfold Bench.work
      rw [hthread, hsusp, hr, if_neg Bool.false_ne_true, if_pos rfl]
      omega
  | testSequence =>
      rcases (testbench_sequence_iff p s s' es).mp hstep with ⟨hr, hseq⟩
      rcases sequence_frame p s (hstop hr) with ⟨hsusp, hnow, hsignal⟩
      rw [hseq] at hsusp hnow hsignal
      have hcompute := ite_runnable_le s'.device.computeThread.runnable 4
      refine ⟨?_, hnow⟩
      unfold Bench.work
      change s'.driver.runnable = false at hsusp
      change s'.device.interrupt = s.device.interrupt at hsignal
      rw [hsusp, hr, hsignal, if_neg Bool.false_ne_true, if_pos rfl]
      omega
  | update =>
      rcases (testbench_update_iff p s s' es).mp hstep with ⟨⟨-, -, hne⟩, rfl, -⟩
      refine ⟨?_, rfl⟩
      unfold Bench.work
      rw [if_neg hne, if_pos (Signal.settled_update s.device.interrupt)]
      exact Nat.lt_succ_self _
  | advance => exact absurd rfl hl

/-- A driver that is not runnable has time to wait. -/
theorem dueAt_lt (s : Bench) (t : Nat) (h : s.DueAt t) (hr : s.driver.runnable = false) :
    s.now < t := by
  refine Nat.lt_of_le_of_ne h.notLate (fun heq => ?_)
  rw [h.woken.mpr heq] at hr
  exact absurd hr.symm Bool.false_ne_true

/-- Time advances. -/
theorem scene_nextDue [FloatArith] (p : Params) (mem : List Byte) (s : Bench)
    (h : Scene p mem s) (hq : s.Quiescent) : s.now < s.nextDue := by
  rcases hq with ⟨he, hsig, hr, hnot⟩
  have hparked : Parked s.device → (∃ t, s.DueAt t) → s.now < s.nextDue := by
    rintro hp ⟨t, ht⟩
    have hnext : s.nextDue = s.driverDue := by
      rw [Bench.nextDue, parked_not_inJob _ hp]
      exact if_neg Bool.false_ne_true
    rw [hnext, ht.due]
    exact dueAt_lt s t ht hr
  cases h with
  | setup h =>
      rcases h.thread with hp | ⟨-, hthread⟩
      · exact hparked hp ⟨_, h.clock⟩
      · have hrun := he.1
        rw [hthread] at hrun
        exact absurd hrun.symm Bool.false_ne_true
  | inJob h =>
      have hdriver := dueAt_lt s _ h.polls.clock hr
      rcases h.clock with ⟨-, hout⟩ | ⟨hon, hasleep⟩
      · rw [Bench.nextDue, hout]
        exact hdriver
      · have hdue := hasleep he.1
        have hnext : s.nextDue = min s.due s.driverDue := if_pos hon.inJob
        omega
  | raising _ h => exact hparked h.ended.parked ⟨_, h.polls.clock⟩
  | signalled _ h =>
      refine hparked h.ended.parked ?_
      rcases h.driver with ⟨-, ht⟩ | ⟨-, ht⟩ | ⟨-, ht⟩
      · exact ⟨_, ht⟩
      · exact ⟨_, ht⟩
      · exact ⟨_, ht⟩
  | cleared _ h =>
      refine hparked h.ended.parked ?_
      rcases h.driver with ⟨-, ht⟩ | ⟨-, ht⟩ | ⟨hs, -⟩
      · exact ⟨_, ht⟩
      · exact ⟨_, ht⟩
      · rw [hs] at hnot
        exact absurd rfl hnot
  | failed _ h => exact hparked h.ended.parked ⟨_, h.polls.clock⟩

/-- A stopped driver is not runnable. -/
theorem scene_stopped [FloatArith] (p : Params) (mem : List Byte) (s : Bench)
    (h : Scene p mem s) (hr : s.driver.runnable = true) : s.driver.position ≠ .stopped := by
  intro hstop
  rcases (cleared_of_stopped p mem s h hstop).2.driver with ⟨hpos, -⟩ | ⟨hpos, -⟩ | ⟨hs, -⟩
  · exact absurd (hstop.symm.trans hpos) (by decide)
  · exact absurd (hstop.symm.trans hpos) (by decide)
  · rw [hs] at hr
    exact absurd hr Bool.false_ne_true

/-- Every step brings the simulation closer to a time it has not passed. -/
theorem variant_step [FloatArith] (p : Params) (mem : List Byte) (t : Nat) (s s' : Bench)
    (l : BenchLabel) (es : List (Nat × BenchEvent)) (h : Scene p mem s)
    (hstep : (testbench p).step s l = some (s', es)) (hle : s'.now ≤ t) :
    s'.variant t < s.variant t := by
  by_cases hl : l = .advance
  · rw [hl] at hstep
    rcases (testbench_advance_iff p s s' es).mp hstep with ⟨hq, rfl, -⟩
    have hlt := scene_nextDue p mem s h hq
    -- Nothing was left to do, and two processes may wake.
    have hwork : s.advanced.work ≤ 15 := by
      have h1 := ite_runnable_le s.advanced.driver.runnable 8
      have h2 := ite_runnable_le s.advanced.device.computeThread.runnable 4
      have h3 := ite_runnable_le s.advanced.device.interruptController.runnable 2
      have h4 := ite_settled_le s.advanced.device.interrupt
      unfold Bench.work
      omega
    change s.nextDue ≤ t at hle
    change 16 * (t - s.nextDue) + s.advanced.work < 16 * (t - s.now) + s.work
    omega
  · rcases work_step p s s' l es hl (scene_stopped p mem s h) hstep with ⟨hlt, hnow⟩
    unfold Bench.variant
    rw [hnow]
    omega

/-- No operand's range wraps past the top of the address space into the
    memory. -/
def Params.Unwrapped (p : Params) (mem : List Byte) : Prop :=
  ∀ m, ¬ Wraps mem (p.ptr m) (4 * p.dimN.toNat * p.dimN.toNat)

theorem unwrapped_of_fits (p : Params) (mem : List Byte) (hmem : mem.length < 2 ^ 64)
    (h : Fits p mem) : p.Unwrapped mem :=
  fun m hw => not_inside_of_wraps mem _ _ hmem hw (h.2 m)

/-- A transaction on the range of an operand has a defined outcome. -/
theorem defined_operand (p : Params) (mem : List Byte) (hmem : mem.length < 2 ^ 64)
    (h : p.Unwrapped mem) (t : Payload) (m : Operand) (n : Dim) (haddr : t.address = p.ptr m)
    (hlen : t.data.length = 4 * n.val * n.val) (hn : n.val = p.dimN.toNat) :
    (hostMemoryTransport mem t).isSome = true := by
  have hsmall : t.data.length < 2 ^ 64 := by
    have hle := n.le
    have hsq : n.val * n.val ≤ 256 * 256 := Nat.mul_le_mul hle hle
    rw [hlen, Nat.mul_assoc]
    omega
  have hnot : ¬ Wraps mem t.address t.data.length := by
    rw [haddr, hlen, hn]
    exact h m
  rw [hostMemoryTransport_of_not_wraps mem t hmem hsmall hnot]
  rfl

/-- The transactions of the job have defined outcomes. -/
theorem defined_dispatch [FloatArith] (p : Params) (mem : List Byte) (s : Attached)
    (ls : List (Label Unit)) (tr : List Event) (hmem : mem.length < 2 ^ 64)
    (hwrap : p.Unwrapped mem) (hu : Underway p mem s ls tr) (d' : Device) (es : List Event)
    (hd : Dispatch (boundedTarget s.memory) s.device d' es) : Defined s.memory es := by
  have hptr : ∀ m, s.device.regs.matrixPtr m = p.ptr m := fun m =>
    congrFun (congrArg Params.ptr hu.params) m
  have hrunning : s.device.computeThread.position.inJob = true →
      Reached p mem s.device.computeThread.position s.memory := by
    intro hin
    rcases hu.phase with hwait | hrun
    · rw [hwait.position] at hin
      exact absurd hin Bool.false_ne_true
    · exact hrun.reached
  intro e he
  cases hd with
  | readA hpos _ n hn ok _ =>
      simp only [List.mem_cons, List.not_mem_nil, or_false] at he
      rcases he with rfl | rfl
      · rfl
      · have hmemory : s.memory = mem := by
          rcases hu.phase with hwait | hrun
          · exact hwait.memory
          · have hin := inJob_of_reached p mem _ _ hrun.reached
            rw [hpos] at hin
            exact absurd hin Bool.false_ne_true
        have hdim : n.val = p.dimN.toNat := by
          rw [check_eq_some _ n hn]
          exact congrArg (fun q => q.dimN.toNat) hu.params
        rw [hmemory]
        exact defined_operand p mem hmem hwrap _ .a n (hptr .a) (length_readPayload _ _ _) hdim
  | readB n a hpos ok _ =>
      rw [List.mem_singleton.mp he]
      have hreached := hrunning (by rw [hpos]; rfl)
      rw [hpos] at hreached
      rw [hreached.2.1]
      exact defined_operand p mem hmem hwrap _ .b n (hptr .b) (length_readPayload _ _ _)
        hreached.1
  | writeC n a b c i hrows _ ok _ =>
      rw [List.mem_singleton.mp he]
      rcases rows_of_reached p mem _ _ n a b c i
        (hrunning (inJob_of_rowsLeft _ n a b c i hrows)) hrows with ⟨hdim, hmemory, -⟩
      rw [hmemory]
      exact defined_operand p mem hmem hwrap _ .c n (hptr .c) (length_writePayload _ _ _ _) hdim
  | refuse _ _ _ =>
      simp only [List.mem_cons, List.not_mem_nil, or_false] at he
      rcases he with rfl | rfl
      · rfl
      · rfl
  | fail _ => rw [List.mem_singleton.mp he]; rfl
  | finish _ _ _ => rw [List.mem_singleton.mp he]; rfl
  | enter _ => exact absurd he List.not_mem_nil
  | spurious _ _ => exact absurd he List.not_mem_nil
  | row _ _ _ _ _ _ _ => exact absurd he List.not_mem_nil

/-- A runnable compute thread can be dispatched. -/
theorem scene_compute [FloatArith] (p : Params) (mem : List Byte) (s : Bench)
    (hmem : mem.length < 2 ^ 64) (hwrap : p.Unwrapped mem) (h : Scene p mem s)
    (hr : s.device.computeThread.runnable = true) :
    ∃ s' es, (testbench p).step s .compute = some (s', es) := by
  have hsys := system_step s.toAttached (.compute ()) _ _
    (step_compute s.device (boundedTarget s.memory) hr)
  have hd := compute_dispatch (boundedTarget s.memory) s.device
  have hparked : Parked s.device → False := by
    intro hp
    rw [hp.2] at hr
    exact absurd hr Bool.false_ne_true
  have hdef : Defined s.memory (s.device.compute (boundedTarget s.memory)).2 := by
    cases h with
    | setup h =>
        rcases h.thread with hp | ⟨-, hthread⟩
        · exact (hparked hp).elim
        · have hnil : (s.device.compute (boundedTarget s.memory)).2 = [] := by
            simp only [Device.compute, hthread]
          rw [hnil]
          exact fun _ he => absurd he List.not_mem_nil
    | inJob h =>
        rcases h.underway with ⟨ls, tr, hu⟩
        exact defined_dispatch p mem s.toAttached ls tr hmem hwrap hu _ _ hd
    | raising _ h => exact (hparked h.ended.parked).elim
    | signalled _ h => exact (hparked h.ended.parked).elim
    | cleared _ h => exact (hparked h.ended.parked).elim
    | failed _ h => exact (hparked h.ended.parked).elim
  exact ⟨_, _, (testbench_compute_iff p s _ _).mpr ⟨_, _, hsys, hdef, rfl, rfl⟩⟩

/-- Before `sc_stop` some step is possible. -/
theorem scene_progress [FloatArith] (p : Params) (mem : List Byte) (s : Bench)
    (hmem : mem.length < 2 ^ 64) (hwrap : p.Unwrapped mem) (h : Scene p mem s)
    (hnot : s.driver.position ≠ .stopped) :
    ∃ l s' es, (testbench p).step s l = some (s', es) := by
  by_cases hd : s.driver.runnable = true
  · exact ⟨.testSequence, _, _, (testbench_sequence_iff p s _ _).mpr ⟨hd, rfl⟩⟩
  by_cases hr : s.device.computeThread.runnable = true
  · rcases scene_compute p mem s hmem hwrap h hr with ⟨s', es, hstep⟩
    exact ⟨.compute, s', es, hstep⟩
  by_cases hc : s.device.interruptController.runnable = true
  · exact ⟨.control, _, _, (testbench_control_iff p s _ _).mpr ⟨hc, rfl, rfl⟩⟩
  have he : s.device.Evaluated := ⟨Bool.eq_false_iff.mpr hr, Bool.eq_false_iff.mpr hc⟩
  by_cases hsig : s.device.interrupt.Settled
  · exact ⟨.advance, _, _, (testbench_advance_iff p s _ _).mpr
      ⟨⟨he, hsig, Bool.eq_false_iff.mpr hd, hnot⟩, rfl, rfl⟩⟩
  · exact ⟨.update, _, _, (testbench_update_iff p s _ _).mpr
      ⟨⟨he, Bool.eq_false_iff.mpr hd, hsig⟩, rfl, rfl⟩⟩

/-- No wait of a job is due after the time a successful one ends. -/
theorem elapsed_le [FloatArith] (p : Params) (mem mem' : List Byte) (pos : Position)
    (h : Reached p mem pos mem') (hin : pos.RowInside) :
    pos.elapsed ≤ 210 + 2 * p.dimN.toNat * p.dimN.toNat := by
  have hdma : ∀ ok, dmaDelay ok ≤ 70 := by
    intro ok
    cases ok <;> decide
  cases pos with
  | entry => exact Nat.zero_le _
  | waitStart => exact Nat.zero_le _
  | readA n ok a => exact (hdma ok).trans ((by decide : 70 ≤ 210).trans (Nat.le_add_right _ _))
  | readB n a ok b =>
      have hd := hdma ok
      change 70 + dmaDelay ok ≤ _
      omega
  | row n a b c i =>
      rcases h with ⟨hn, -⟩
      have hrows : n.val * 2 * (i + 1) ≤ n.val * 2 * n.val := Nat.mul_le_mul_left _ hin
      rw [← hn, Nat.mul_comm 2]
      change 140 + n.val * 2 * (i + 1) ≤ _
      omega
  | writeC n ok =>
      rcases h with ⟨hn, -⟩
      have hd := hdma ok
      rw [← hn, Nat.mul_comm 2]
      change 140 + n.val * 2 * n.val + dmaDelay ok ≤ _
      omega

/-- The time in a test whose parameters fit. -/
theorem scene_now_le [FloatArith] (p : Params) (mem : List Byte) (s : Bench)
    (hfits : Fits p mem) (h : Scene p mem s) : s.now ≤ seenAt p.dimN.toNat + 130 := by
  have hseen : jobEnd p.dimN.toNat ≤ seenAt p.dimN.toNat := by
    unfold seenAt
    omega
  have hjob : jobEnd p.dimN.toNat = 370 + 2 * p.dimN.toNat * p.dimN.toNat := rfl
  cases h with
  | setup h =>
      have hle := h.clock.notLate
      have hdue : s.driver.position.setupDue ≤ 160 := by
        cases s.driver.position with
        | setPtr m => cases m <;> decide
        | _ => exact Nat.le_of_ble_eq_true rfl
      omega
  | inJob h =>
      rcases h.clock with ⟨hnow, -⟩ | ⟨hon, -⟩
      · omega
      · rcases h.underway with ⟨ls, tr, hu⟩
        have hlate : s.now ≤ s.due := hon.notLate
        have hdue : s.due = 160 + s.device.computeThread.position.elapsed := hon.due
        rcases hu.phase with hwait | hrun
        · have hin := hon.inJob
          rw [hwait.position] at hin
          exact absurd hin Bool.false_ne_true
        · have hel := elapsed_le p mem _ _ hrun.reached hon.inside
          omega
  | raising _ h =>
      have hnow := h.now
      omega
  | signalled _ h =>
      rcases h.driver with ⟨-, ht⟩ | ⟨-, ht⟩ | ⟨-, ht⟩
      · have hle := ht.notLate
        omega
      · have hle := ht.notLate
        omega
      · have hle := ht.notLate
        omega
  | cleared _ h =>
      rcases h.driver with ⟨-, ht⟩ | ⟨-, ht⟩ | ⟨-, hnow⟩
      · have hle := ht.notLate
        omega
      · exact ht.notLate
      · exact Nat.le_of_eq hnow
  | failed hf _ => exact absurd hfits hf

/-- A test whose parameters fit can always be continued to `sc_stop`. -/
theorem stops_of_scene [FloatArith] (p : Params) (mem : List Byte) (hmem : mem.length < 2 ^ 64)
    (hfits : Fits p mem) (s : Bench) (h : Scene p mem s) :
    ∃ ls s' tr, (testbench p).run s ls = some (s', tr) ∧ s'.driver.position = .stopped := by
  rcases (testbench p).reaches_of_variant (Scene p mem) (fun s => s.driver.position = .stopped)
    (Bench.variant (seenAt p.dimN.toNat + 130))
    (fun s h hnot => by
      rcases scene_progress p mem s hmem (unwrapped_of_fits p mem hmem hfits) h hnot with
        ⟨l, s', es, hstep⟩
      have h' := scene_step p mem s s' l es h hstep
      exact ⟨l, s', es, hstep, h', Or.inr (variant_step p mem _ s s' l es h hstep
        (scene_now_le p mem s' hfits h'))⟩)
    s h with ⟨ls, s', tr, hrun, -, hstop⟩
  exact ⟨ls, s', tr, hrun, hstop⟩

/-- The parameters of the test fit into the memory of the test. -/
theorem fits_testParams (mem : List Byte) (h : mem.length = 0x1000000) :
    Fits testParams mem := by
  refine ⟨by decide, fun m => ?_⟩
  unfold Params.InsideAt Inside
  rw [h]
  cases m <;> decide

/-- A test none of whose ranges wraps past the top of the address space, in
    whatever order the kernel dispatches. Until `sc_stop` is called the
    simulation can go on, and when it has been called the parameters fit, the
    time is 130 ns after the first poll past the end of the job, the lines of
    the transcript have been printed at the times it says and nothing else has
    been, the memory holds the product, STATUS has DONE, the interrupt is
    acknowledged and its line is low. -/
theorem testbench_transcript [FloatArith] (p : Params) (mem : List Byte)
    (hmem : mem.length < 2 ^ 64) (hwrap : p.Unwrapped mem) (ls : List BenchLabel) (s : Bench)
    (tr : List (Nat × BenchEvent))
    (hrun : (testbench p).run (Bench.start mem) ls = some (s, tr)) :
    (s.driver.position ≠ .stopped → ∃ l s' es, (testbench p).step s l = some (s', es)) ∧
    (s.driver.position = .stopped →
      Fits p mem ∧ s.now = seenAt p.dimN.toNat + 130 ∧ printed tr = transcript p ∧
        Product p mem s.memory ∧ JobOver s.device (Status.idle ||| Status.done) 0 ∧
        s.device.interrupt = lowSignal) := by
  rcases scene_run p mem ls s tr hrun with ⟨hscene, hprinted⟩
  refine ⟨scene_progress p mem s hmem hwrap hscene, fun hstop => ?_⟩
  rcases cleared_of_stopped p mem s hscene hstop with ⟨hfits, h⟩
  rw [hstop] at hprinted
  have hnow : s.now = seenAt p.dimN.toNat + 130 := by
    rcases h.driver with ⟨hpos, -⟩ | ⟨hpos, -⟩ | ⟨-, hnow⟩
    · exact absurd (hstop.symm.trans hpos) (by decide)
    · exact absurd (hstop.symm.trans hpos) (by decide)
    · exact hnow
  have hlow : s.device.interrupt = lowSignal := by
    rcases h.line with ⟨-, hi⟩ | ⟨hpos, -⟩
    · exact hi
    · exact absurd (hstop.symm.trans hpos) (by decide)
  exact ⟨hfits, hnow, hprinted, h.product, h.ended, hlow⟩

/-- The test of the source stops after 540 ns. -/
theorem testbench_transcript_test :
    ∃ ls s tr, (@testbench float32Arith testParams).run (Bench.start hostMemory) ls =
        some (s, tr) ∧ s.now = 540 ∧ printed tr = transcript testParams := by
  have hmem : hostMemory.length < 2 ^ 64 := by
    rw [length_hostMemory]
    decide
  have hfits := fits_testParams _ length_hostMemory
  rcases @stops_of_scene float32Arith testParams hostMemory hmem hfits _
    (@scene_start float32Arith testParams hostMemory) with ⟨ls, s, tr, hrun, hstop⟩
  rcases (@testbench_transcript float32Arith testParams hostMemory hmem
    (unwrapped_of_fits _ _ hmem hfits) ls s tr hrun).2 hstop with ⟨-, hnow, hprinted, -⟩
  exact ⟨ls, s, tr, hrun, hnow, hprinted⟩

/-- A test whose parameters fit ends under every schedule: no run is longer
    than a bound in the dimension alone, and every run that has not reached
    `sc_stop` can be continued to it. -/
theorem testbench_terminates [FloatArith] (p : Params) (mem : List Byte)
    (hmem : mem.length < 2 ^ 64) (hfits : Fits p mem) (ls : List BenchLabel) (s : Bench)
    (tr : List (Nat × BenchEvent))
    (hrun : (testbench p).run (Bench.start mem) ls = some (s, tr)) :
    ls.length ≤ 16 * (seenAt p.dimN.toNat + 130) + 12 ∧
      ∃ ls' s' tr', (testbench p).run s ls' = some (s', tr') ∧ s'.driver.position = .stopped := by
  refine ⟨?_, stops_of_scene p mem hmem hfits s (scene_run p mem ls s tr hrun).1⟩
  have hlen := (testbench p).run_length_le (Scene p mem)
    (Bench.variant (seenAt p.dimN.toNat + 130))
    (fun s l s' es h hstep => by
      have h' := scene_step p mem s s' l es h hstep
      exact ⟨h', variant_step p mem _ s s' l es h hstep (scene_now_le p mem s' hfits h')⟩)
    (Bench.start mem) (scene_start p mem) ls s tr hrun
  exact (Nat.le_add_right _ _).trans hlen

/-- The test of the source cannot take more than 8652 steps. -/
theorem testbench_terminates_test :
    ∃ ls s tr, (@testbench float32Arith testParams).run (Bench.start hostMemory) ls =
        some (s, tr) ∧ s.driver.position = .stopped ∧ ls.length ≤ 8652 := by
  have hmem : hostMemory.length < 2 ^ 64 := by
    rw [length_hostMemory]
    decide
  have hfits := fits_testParams _ length_hostMemory
  rcases (@testbench_terminates float32Arith testParams hostMemory hmem hfits [] _ _ rfl).2 with
    ⟨ls, s, tr, hrun, hstop⟩
  exact ⟨ls, s, tr, hrun, hstop,
    (@testbench_terminates float32Arith testParams hostMemory hmem hfits ls s tr hrun).1⟩

/-- A job that does not fit writes nothing. -/
theorem memory_of_reached [FloatArith] (p : Params) (mem mem' : List Byte) (pos : Position)
    (hf : ¬ Fits p mem) (h : Reached p mem pos mem') : mem' = mem := by
  cases pos with
  | entry => exact absurd h id
  | waitStart => exact absurd h id
  | readA n ok a => exact h.2.1
  | readB n a ok b => exact h.2.1
  | row n a b c i => exact h.2.1
  | writeC n ok =>
      rcases h with ⟨hdim, hina, hinb, -, hmem⟩
      -- The dimension and both reads were good, so the write is not.
      have hnc : ¬ p.InsideAt mem .c := by
        intro hc
        refine hf ⟨⟨by rw [← hdim]; exact n.pos, by rw [← hdim]; exact n.le⟩, fun m => ?_⟩
        cases m with
        | a => exact hina
        | b => exact hinb
        | c => exact hc
      rw [hmem, if_neg hnc]

/-- A test whose parameters do not fit never ends, in whatever order the kernel
    dispatches: the driver does not get past its loop, the line stays low and
    the memory as it was, and from every state some run takes the simulation
    past any given time. -/
theorem testbench_hangs [FloatArith] (p : Params) (mem : List Byte)
    (hmem : mem.length < 2 ^ 64) (hwrap : p.Unwrapped mem) (hfits : ¬ Fits p mem)
    (ls : List BenchLabel) (s : Bench) (tr : List (Nat × BenchEvent))
    (hrun : (testbench p).run (Bench.start mem) ls = some (s, tr)) :
    (printed tr <+: (transcript p).take 6 ∧ s.device.interrupt = lowSignal ∧ s.memory = mem) ∧
      ∀ t, ∃ ls' s' tr', (testbench p).run s ls' = some (s', tr') ∧ t ≤ s'.now := by
  rcases scene_run p mem ls s tr hrun with ⟨hscene, hprinted⟩
  constructor
  · have hlines : s.driver.position.lines ≤ 6 ∧ s.device.interrupt = lowSignal ∧
        s.memory = mem := by
      cases hscene with
      | setup h =>
          refine ⟨?_, h.interrupt, h.memory⟩
          have hset := h.position
          cases hpos : s.driver.position with
          | finalStatus v => rw [hpos] at hset; exact absurd hset Bool.false_ne_true
          | intStatus v => rw [hpos] at hset; exact absurd hset Bool.false_ne_true
          | clearInt => rw [hpos] at hset; exact absurd hset Bool.false_ne_true
          | afterTest => rw [hpos] at hset; exact absurd hset Bool.false_ne_true
          | stopped => rw [hpos] at hset; exact absurd hset Bool.false_ne_true
          | _ => exact Nat.le_of_ble_eq_true rfl
      | inJob h =>
          refine ⟨?_, h.interrupt, ?_⟩
          · rcases h.polls.position with hpos | ⟨hpos, -⟩
            · rw [hpos]
              decide
            · rw [hpos]
              decide
          · rcases h.underway with ⟨ls, tr, hu⟩
            rcases hu.phase with hwait | hrun
            · exact hwait.memory
            · exact memory_of_reached p mem _ _ hfits hrun.reached
      | raising hf _ => exact absurd hf hfits
      | signalled hf _ => exact absurd hf hfits
      | cleared hf _ => exact absurd hf hfits
      | failed _ h =>
          refine ⟨?_, h.interrupt, h.memory⟩
          rcases h.polls.position with hpos | ⟨hpos, -⟩
          · rw [hpos]
            decide
          · rw [hpos]
            decide
    refine ⟨?_, hlines.2⟩
    rw [hprinted]
    exact List.take_prefix_take_left hlines.1
  · intro t
    rcases (testbench p).reaches_of_variant (Scene p mem) (fun s => t ≤ s.now) (Bench.variant t)
      (fun s h hlt => by
        have hnot : s.driver.position ≠ .stopped :=
          fun hstop => hfits (cleared_of_stopped p mem s h hstop).1
        rcases scene_progress p mem s hmem hwrap h hnot with ⟨l, s', es, hstep⟩
        refine ⟨l, s', es, hstep, scene_step p mem s s' l es h hstep, ?_⟩
        by_cases hgoal : t ≤ s'.now
        · exact Or.inl hgoal
        · exact Or.inr (variant_step p mem t s s' l es h hstep (by omega)))
      s hscene with ⟨ls', s', tr', hrun', -, hle⟩
    exact ⟨ls', s', tr', hrun', hle⟩

/-- The parameters of the test with matrix C behind the memory. -/
def outsideParams : Params where
  dimN := 4
  ptr
    | .a => 0x1000
    | .b => 0x2000
    | .c => 0x1000000

/-- The test whose write of matrix C is refused has not ended after a second. -/
theorem testbench_hangs_outside :
    ∃ ls s tr, (@testbench float32Arith outsideParams).run (Bench.start hostMemory) ls =
        some (s, tr) ∧ 1000000000 ≤ s.now := by
  have hmem : hostMemory.length < 2 ^ 64 := by
    rw [length_hostMemory]
    decide
  have hwrap : outsideParams.Unwrapped hostMemory := by
    intro m hw
    cases m <;> exact absurd hw.1 (by decide)
  have hout : ¬ Fits outsideParams hostMemory := by
    intro hf
    have hc : (outsideParams.ptr .c).toNat + 4 * 4 * 4 ≤ hostMemory.length := hf.2 .c
    rw [length_hostMemory] at hc
    exact absurd hc (by decide)
  exact (@testbench_hangs float32Arith outsideParams hostMemory hmem hwrap hout [] _ _
    rfl).2 1000000000

end PcieCosim
