import PcieCosim.Endpoint.Progress

/-!
# What RESET Quiesces

`reset_device` rewrites the registers. It does not reach the compute thread, so
what a RESET achieves depends on where that thread is.

Outside a job there is nothing to stop: the flag is down, the thread goes back
to waiting if it had been woken, and until the next START no step of the
device issues a DMA transaction, raises an interrupt or changes STATUS.
`quiet_step` is that invariant. Inside a job the thread carries on with the
locals it has, and by `job_completes` it ends the job and writes STATUS, so
the device was not quiet. The two cases meet in `reset_quiesces_iff`.

## Main definitions

* `QuietEvent`: An event a quiescent device may show.
* `Quiesced`: Nothing else is shown until the next START.
* `Quiet`: The state a RESET leaves behind outside a job.

## Theorems

* `bar0_read_status`, `bar0_read_intStatus`: The two registers as read.
* `quiet_step`: A step without START keeps the device quiet.
* `bar0_reset`: RESET rewrites the registers and nothing else.
* `reset_quiesces_iff`: RESET quiesces the device exactly outside a job.
* `reset_under_job`: A job under a RESET goes on to write host memory.
-/

namespace PcieCosim

open Bytes Kernel Transition

/-- The transaction is a read of the given register that was answered OK. -/
def ReadsOk (reg : Register) (t : Payload) (r : Response) : Prop :=
  t.command = .read ∧ t.address = reg.offset ∧ r.status = .ok

/-- An event a quiescent device may show: STATUS reads as IDLE, INT_STATUS as
    zero, and there is no DMA transaction and no end of a job. -/
def QuietEvent : Event → Prop
  | .bar0 t r =>
      (ReadsOk .status t r → r.word = some Status.idle) ∧
        (ReadsOk .intStatus t r → r.word = some 0)
  | .dma _ _ _ => False
  | .jobEnded _ => False
  | _ => True

/-- Until the next START the device shows only quiet events, and its STATUS
    and INT_STATUS stay put. -/
def Quiesced [FloatArith] (d : Device) : Prop :=
  ∀ ls d' tr, (∀ l ∈ ls, l.NotSets Ctrl.start) → machine.run d ls = some (d', tr) →
    (∀ e ∈ tr, QuietEvent e) ∧ d'.regs.regStatus = Status.idle ∧ d'.regs.regIntStatus = 0

/-- What a read answered OK returns is a function of the register file. -/
theorem bar0_read (d : Device) (t : Payload) (reg : Register)
    (h : ReadsOk reg t (d.bar0BTransport t).2.2) :
    (t.data.length = 4 ∨ t.data.length = 8) ∧
      (d.bar0BTransport t).2.2 =
        { status := .ok, data := d.handleMmioRead reg.offset t.data.length } := by
  rcases h with ⟨hcmd, haddr, hok⟩
  unfold Device.bar0BTransport at hok ⊢
  by_cases hlen : t.data.length ≠ 4 ∧ t.data.length ≠ 8
  · rw [if_pos hlen] at hok
    exact nomatch hok
  · rw [if_neg hlen, hcmd, haddr]
    exact ⟨by omega, rfl⟩

theorem bar0_read_status (d : Device) (t : Payload)
    (h : ReadsOk .status t (d.bar0BTransport t).2.2) :
    (d.bar0BTransport t).2.2.word = some d.regs.regStatus := by
  rcases bar0_read d t .status h with ⟨hlen, hresp⟩
  rw [hresp]
  exact word_memcpy_word32 _ _ hlen _

theorem bar0_read_intStatus (d : Device) (t : Payload)
    (h : ReadsOk .intStatus t (d.bar0BTransport t).2.2) :
    (d.bar0BTransport t).2.2.word = some d.regs.regIntStatus := by
  rcases bar0_read d t .intStatus h with ⟨hlen, hresp⟩
  rw [hresp]
  exact word_memcpy_word32 _ _ hlen _

/-- What a RESET leaves behind when no job is in flight. -/
structure Quiet (d : Device) : Prop where
  requested : d.regs.computationRequested = false
  status : d.regs.regStatus = Status.idle
  intStatus : d.regs.regIntStatus = 0
  outside : d.computeThread.position.inJob = false

theorem quiet_bar0 (d d' : Device) (t : Payload) (es : List Event) (h : Quiet d)
    (hs : ¬ t.Sets Ctrl.start) (he : Bar0Effect d t d' es) :
    Quiet d' ∧ ∀ e ∈ es, QuietEvent e := by
  cases he with
  | start _ hacc _ => exact absurd hacc.1 hs
  | restart _ hs' => exact absurd hs' hs
  -- A further RESET leaves what the first one left.
  | reset _ _ =>
      refine ⟨⟨rfl, rfl, rfl, h.outside⟩, fun e he => ?_⟩
      rw [List.mem_singleton.mp he]
      exact trivial
  | clear _ v =>
      refine ⟨⟨h.requested, h.status, ?_, h.outside⟩, fun e he => absurd he List.not_mem_nil⟩
      -- Clearing bits of zero leaves zero.
      change d.regs.regIntStatus &&& ~~~v = 0
      rw [h.intStatus]
      exact BitVec.zero_and
  | _ =>
      exact ⟨⟨h.requested, h.status, h.intStatus, h.outside⟩,
        fun e he => absurd he List.not_mem_nil⟩

theorem quiet_step [FloatArith] (d : Device) (l : Label DmaTarget) (d' : Device)
    (es : List Event) (h : Quiet d) (hl : l.NotSets Ctrl.start)
    (hstep : machine.step d l = some (d', es)) : Quiet d' ∧ ∀ e ∈ es, QuietEvent e := by
  cases step_inv d d' l es hstep with
  | bar0 t _ es' he =>
      rcases quiet_bar0 d d' t es' h hl he with ⟨hq, hes⟩
      refine ⟨hq, fun e he => ?_⟩
      rcases List.mem_append.mp he with he | he
      · exact hes e he
      · rw [List.mem_singleton.mp he]
        exact ⟨fun hr => by rw [bar0_read_status d t hr, h.status],
          fun hr => by rw [bar0_read_intStatus d t hr, h.intStatus]⟩
  | compute target _ _ _ hd =>
      -- Without a request the thread outside a job only goes back to waiting.
      cases hd with
      | enter _ =>
          exact ⟨⟨h.requested, h.status, h.intStatus, rfl⟩, fun e he => absurd he List.not_mem_nil⟩
      | spurious _ _ =>
          exact ⟨⟨h.requested, h.status, h.intStatus, rfl⟩, fun e he => absurd he List.not_mem_nil⟩
      | refuse _ hr _ => exact absurd hr (by rw [h.requested]; exact nofun)
      | readA _ hr _ _ _ _ => exact absurd hr (by rw [h.requested]; exact nofun)
      | readB n a hpos _ _ => exact absurd h.outside (by rw [hpos]; exact nofun)
      | row n a b c i hrows _ =>
          exact absurd h.outside (by rw [inJob_of_rowsLeft _ n a b c i hrows]; exact nofun)
      | writeC n a b c i hrows _ _ _ =>
          exact absurd h.outside (by rw [inJob_of_rowsLeft _ n a b c i hrows]; exact nofun)
      | fail hfail => exact absurd h.outside (by rw [inJob_of_readFailed _ hfail]; exact nofun)
      | finish n ok hpos => exact absurd h.outside (by rw [hpos]; exact nofun)
  | timeout _ _ hpos => exact absurd h.outside (by rw [hpos]; exact nofun)
  | _ =>
      exact ⟨⟨h.requested, h.status, h.intStatus, h.outside⟩,
        fun e he => absurd he List.not_mem_nil⟩

/-- A quiet device stays quiet until the next START. -/
theorem quiesced_of_quiet [FloatArith] (d : Device) (h : Quiet d) : Quiesced d := by
  intro ls d' tr hns hrun
  have hal := machine.along_of_forall_mem _ d ls hns
  have hinv := machine.run_history _ (fun d tr => Quiet d ∧ ∀ e ∈ tr, QuietEvent e)
    (fun d tr l d' es hJ hP hstep => by
      rcases quiet_step d l d' es hJ.1 hP hstep with ⟨hq, hes⟩
      refine ⟨hq, fun e he => ?_⟩
      rcases List.mem_append.mp he with he | he
      · exact hJ.2 e he
      · exact hes e he)
    d [] ⟨h, fun e he => absurd he List.not_mem_nil⟩ ls hal d' tr hrun
  exact ⟨hinv.2, hinv.1.status, hinv.1.intStatus⟩

/-- A RESET without START rewrites the registers, and nothing else. -/
theorem bar0_reset (d : Device) (t : Payload) (hr : t.Sets Ctrl.reset) (hs : ¬ t.Sets Ctrl.start) :
    (d.bar0BTransport t).1 = { d with regs := Registers.resetDevice } ∧
      (d.bar0BTransport t).2.1 = [.deviceReset] := by
  have heff := bar0_effect d t
  generalize d.bar0BTransport t = res at heff
  rcases res with ⟨d', es, resp⟩
  cases heff with
  | reset _ _ => exact ⟨rfl, rfl⟩
  | restart _ hs' => exact absurd hs' hs
  | control hr' _ _ => exact absurd hr hr'
  | start hr' _ _ => exact absurd hr hr'
  | quiet hn => exact absurd hr (hn _)
  | program hn _ _ _ _ => exact absurd hr (hn _)
  | clear hn _ => exact absurd hr (hn _)
  | enable hn _ => exact absurd hr (hn _)

/-- After a CONTROL write with RESET and without START the device is
    quiescent until the next START exactly if the compute thread was not
    inside a job. -/
theorem reset_quiesces_iff [FloatArith] (d : Device) (t : Payload) (hr : t.Sets Ctrl.reset)
    (hs : ¬ t.Sets Ctrl.start) :
    Quiesced (d.bar0BTransport t).1 ↔ d.computeThread.position.inJob = false := by
  rw [(bar0_reset d t hr hs).1]
  constructor
  · intro hq
    by_contra hin
    have hjob : d.computeThread.position.inJob = true := Bool.eq_true_of_not_eq_false hin
    -- The job runs to its end and overwrites STATUS.
    rcases job_completes _ { d with regs := Registers.resetDevice } hjob (Nat.le_refl _) with
      ⟨ls, d', tr, ok, hquiet, hrun, hregs⟩
    have hns : ∀ l ∈ ls, l.NotSets Ctrl.start := by
      intro l hl
      cases l with
      | bar0 t' => exact nomatch hquiet _ hl
      | _ => exact trivial
    have hstatus := (hq ls d' tr hns hrun).2.1
    rw [hregs, jobResult_status] at hstatus
    cases ok with
    | true => exact absurd hstatus (by decide)
    | false => exact absurd hstatus (by decide)
  · intro hout
    exact quiesced_of_quiet _ ⟨rfl, rfl, rfl, hout⟩

/-- A job of dimension one with its interrupt enabled, up to the interrupt
    line. -/
def signalOne (target : DmaTarget) : List (Label DmaTarget) :=
  [.compute target, .bar0 (.write32 Register.intEnable.offset intDone), .control] ++
    startOne target ++ finishOne target ++ [.control, .update]

/-- RESET quiesces a device whose job is done and whose interrupt is raised. -/
theorem reset_quiesces_signalled :
    ∃ d tr, (@machine float32Arith).run Device.constructed (signalOne acceptAll) = some (d, tr) ∧
      Has d.regs.regStatus Status.done ∧ Has d.regs.regIntStatus intDone ∧
      d.interrupt.current = true ∧
      @Quiesced float32Arith
        (d.bar0BTransport (.write32 Register.control.offset Ctrl.reset)).1 := by
  refine ⟨_, _, rfl, by decide, by decide, rfl, ?_⟩
  exact (@reset_quiesces_iff float32Arith _ _ (by decide) (by decide)).mpr rfl

/-- A job under a RESET goes on: it writes host memory, sets DONE and raises
    INT_DONE, with no START after the RESET. -/
theorem reset_under_job :
    ∃ d tr d' tr', (@machine float32Arith).run Device.constructed
        (.compute acceptAll :: startOne acceptAll) = some (d, tr) ∧
      (@machine float32Arith).run
          (d.bar0BTransport (.write32 Register.control.offset Ctrl.reset)).1
          (finishOne acceptAll) = some (d', tr') ∧
      (∀ l ∈ finishOne acceptAll, l.NotSets Ctrl.start) ∧
      (∃ t ok, .dma .c t ok ∈ tr' ∧ t.command = .write) ∧
      Has d'.regs.regStatus Status.done ∧ Has d'.regs.regIntStatus intDone := by
  refine ⟨_, _, _, _, rfl, rfl, by decide, ?_, by decide, by decide⟩
  exact ⟨_, true, List.mem_cons_of_mem _ List.mem_cons_self, rfl⟩

end PcieCosim
