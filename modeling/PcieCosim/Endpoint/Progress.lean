import PcieCosim.Endpoint.Steps

/-!
# Jobs Run to Their End

The compute thread inside a job is never stuck: the kernel can always bring it
back to the runnable processes, and each dispatch brings it closer to the end
of the job.

A timed wait ends only after the evaluation phase is over and the signals have
settled, so `exists_wake` first lets the interrupt controller run and the
update phase pass. None of that touches the registers or the thread's
position.

## Main definitions

* `Position.stepsLeft`: The dispatches a job still needs.

## Theorems

* `run_update_timeout`: After evaluation, two kernel steps end a timed wait.
* `exists_wake`: Kernel steps alone make a thread inside a job runnable.
* `dispatch_inJob`: A dispatch inside a job ends it or comes closer to its
  end.
* `isBar0_concat_compute`: Kernel steps and a dispatch are no BAR0
  transactions.
* `job_completes`: From inside a job its end can be reached without any BAR0
  transaction.
-/

namespace PcieCosim

open Bytes Kernel Transition

/-- The dispatches a job still needs if no transaction fails. -/
def Position.stepsLeft : Position → Nat
  | .entry => 0
  | .waitStart => 0
  | .readA n _ _ => n.val + 3
  | .readB n _ _ _ => n.val + 2
  | .row n _ _ _ i => n.val - 1 - i + 2
  | .writeC _ _ => 1

theorem run_update_timeout [FloatArith] (d : Device) (he : d.Evaluated)
    (hjob : d.computeThread.position.inJob = true) :
    machine.run d [.update, .timeout] =
      some ({ d with interrupt := d.interrupt.update, computeThread := d.computeThread.wake },
        []) := by
  have hupdate :
      machine.step d .update = some ({ d with interrupt := d.interrupt.update }, []) := by
    change Device.step d .update = _
    rw [Device.step, if_pos he]
  have htimeout : machine.step { d with interrupt := d.interrupt.update } .timeout =
      some ({ d with interrupt := d.interrupt.update, computeThread := d.computeThread.wake },
        []) := by
    change Device.step _ .timeout = _
    rw [Device.step, if_pos ⟨he, Signal.settled_update d.interrupt, hjob⟩]
  rw [Machine.run_cons_iff]
  exact ⟨_, [], [], hupdate, (Machine.run_singleton_iff _ _ _ _ _).mpr htimeout, rfl⟩

/-- The interrupt controller's dispatch leaves it suspended and the rest of
    the device but the signal alone. -/
theorem control_frame (d : Device) :
    d.control.regs = d.regs ∧ d.control.computeThread = d.computeThread ∧
      d.control.interruptController.runnable = false := by
  unfold Device.control
  cases d.interruptController.position with
  | entry => exact ⟨rfl, rfl, rfl⟩
  | waiting => exact ⟨rfl, rfl, rfl⟩

theorem exists_wake [FloatArith] (d : Device) (hjob : d.computeThread.position.inJob = true) :
    ∃ ls d', (∀ l ∈ ls, l.isKernel = true) ∧ machine.run d ls = some (d', []) ∧
      d'.regs = d.regs ∧ d'.computeThread = d.computeThread.wake := by
  cases hr : d.computeThread.runnable with
  | true =>
      refine ⟨[], d, fun l hl => absurd hl List.not_mem_nil, rfl, rfl, ?_⟩
      rw [Process.wake, ← hr]
  | false =>
      have hkernel : ∀ l ∈ ([.update, .timeout] : List (Label DmaTarget)), l.isKernel = true := by
        intro l hl
        rcases List.mem_cons.mp hl with rfl | hl
        · rfl
        · rw [List.mem_singleton.mp hl]
          rfl
      cases hc : d.interruptController.runnable with
      | false =>
          exact ⟨[.update, .timeout], _, hkernel, run_update_timeout d ⟨hr, hc⟩ hjob, rfl, rfl⟩
      | true =>
          -- The controller goes first; evaluation is over only after it.
          rcases control_frame d with ⟨hregs, hthread, hidle⟩
          have hcontrol : machine.step d .control = some (d.control, []) := by
            change Device.step d .control = _
            rw [Device.step, if_pos hc]
          have hrest := run_update_timeout d.control ⟨by rw [hthread]; exact hr, hidle⟩
            (by rw [hthread]; exact hjob)
          refine ⟨[.control, .update, .timeout], _, ?_,
            (Machine.run_cons_iff _ _ _ _ _ _).mpr ⟨_, [], [], hcontrol, hrest, rfl⟩, hregs, ?_⟩
          · intro l hl
            rcases List.mem_cons.mp hl with rfl | hl
            · rfl
            · exact hkernel l hl
          · exact congrArg Process.wake hthread

/-- A dispatch inside a job ends it or brings it closer to its end, and only
    its end writes registers. -/
theorem dispatch_inJob [FloatArith] (target : DmaTarget) (d d' : Device) (es : List Event)
    (hjob : d.computeThread.position.inJob = true) (hd : Dispatch target d d' es) :
    (d'.computeThread.position.inJob = true ∧ d'.regs = d.regs ∧
      d'.computeThread.position.stepsLeft < d.computeThread.position.stepsLeft) ∨
    ∃ ok, d' = (d.endJob ok).1 := by
  cases hd with
  | enter hpos => rw [hpos] at hjob; exact nomatch hjob
  | spurious hpos _ => rw [hpos] at hjob; exact nomatch hjob
  | refuse hpos _ _ => rw [hpos] at hjob; exact nomatch hjob
  | readA hpos _ _ _ _ _ => rw [hpos] at hjob; exact nomatch hjob
  | readB n a hpos ok _ =>
      refine Or.inl ⟨rfl, rfl, ?_⟩
      rw [hpos]
      exact Nat.lt_succ_self _
  | row n a b c i hrows hi =>
      refine Or.inl ⟨rfl, rfl, ?_⟩
      have hleft : n.val - 1 - i + 2 < d.computeThread.position.stepsLeft := by
        generalize d.computeThread.position = p at hrows
        cases hrows with
        -- The first row leaves one wait fewer than the read of B did.
        | first _ _ _ =>
            change n.val - 1 - 0 + 2 < n.val + 2
            omega
        | next _ _ _ _ k =>
            change n.val - 1 - (k + 1) + 2 < n.val - 1 - k + 2
            omega
      exact hleft
  | writeC n a b c i hrows _ ok _ =>
      refine Or.inl ⟨rfl, rfl, ?_⟩
      have hleft : 1 < d.computeThread.position.stepsLeft := by
        generalize d.computeThread.position = p at hrows
        cases hrows with
        | first _ _ _ => exact Nat.succ_lt_succ (Nat.succ_pos _)
        | next _ _ _ _ k => exact Nat.succ_lt_succ (Nat.succ_pos _)
      exact hleft
  | fail _ => exact Or.inr ⟨false, rfl⟩
  | finish n ok _ => exact Or.inr ⟨ok, rfl⟩

theorem isBar0_of_isKernel {δ : Type} (l : Label δ) (h : l.isKernel = true) :
    l.isBar0 = false := by
  cases l with
  | bar0 t => exact nomatch h
  | _ => rfl

/-- Kernel steps and a dispatch contain no BAR0 transaction. -/
theorem isBar0_concat_compute {δ : Type} (ls : List (Label δ)) (x : δ)
    (hls : ∀ l ∈ ls, l.isKernel = true) : ∀ l ∈ ls ++ [.compute x], l.isBar0 = false := by
  intro l hl
  rcases List.mem_append.mp hl with hl | hl
  · exact isBar0_of_isKernel l (hls l hl)
  · rw [List.mem_singleton.mp hl]
    rfl

/-- From inside a job the end of the job can be reached without any BAR0
    transaction. -/
theorem job_completes [FloatArith] (k : Nat) (d : Device)
    (hjob : d.computeThread.position.inJob = true)
    (hk : d.computeThread.position.stepsLeft ≤ k) :
    ∃ ls d' tr ok, (∀ l ∈ ls, l.isBar0 = false) ∧ machine.run d ls = some (d', tr) ∧
      d'.regs = Device.jobResult ok d.regs := by
  -- The induction is on the dispatches left; each round wakes and dispatches.
  induction k generalizing d with
  | zero =>
      cases hpos : d.computeThread.position <;> rw [hpos] at hjob hk <;>
        simp only [Position.stepsLeft, Position.inJob, reduceCtorEq] at hjob hk <;> omega
  | succ k ih =>
      rcases exists_wake d hjob with ⟨ls, d₁, hls, hrun, hregs, hthread⟩
      have hpos : d₁.computeThread.position = d.computeThread.position := by rw [hthread]; rfl
      have hstep := step_compute d₁ acceptAll (by rw [hthread]; rfl)
      have hfirst := machine.run_append d d₁ (d₁.compute acceptAll).1 ls [.compute acceptAll] []
        (d₁.compute acceptAll).2 hrun ((Machine.run_singleton_iff _ _ _ _ _).mpr hstep)
      have hquiet := isBar0_concat_compute ls acceptAll hls
      rcases dispatch_inJob acceptAll d₁ _ _ (by rw [hpos]; exact hjob)
        (compute_dispatch acceptAll d₁) with ⟨hin, hregs', hlt⟩ | ⟨ok, hend⟩
      · rw [hpos] at hlt
        rcases ih _ hin (by omega) with ⟨ls', d', tr', ok, hquiet', hrun', hres⟩
        refine ⟨_, d', _, ok, ?_, machine.run_append _ _ _ _ ls' _ tr' hfirst hrun', ?_⟩
        · intro l hl
          rcases List.mem_append.mp hl with hl | hl
          · exact hquiet l hl
          · exact hquiet' l hl
        · rw [hres, hregs', hregs]
      · refine ⟨_, _, _, ok, hquiet, hfirst, ?_⟩
        rw [hend]
        exact congrArg (Device.jobResult ok) hregs

end PcieCosim
