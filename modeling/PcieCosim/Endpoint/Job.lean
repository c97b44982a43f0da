import PcieCosim.Endpoint.Handshake
import PcieCosim.Endpoint.Discipline
import PcieCosim.Endpoint.Product
import PcieCosim.Endpoint.Programming
import PcieCosim.Endpoint.Progress

/-!
# One Job from START to Its End

The endpoint attached to a memory, from an accepted START on, under polite
traffic and every interleaving.

`Underway` describes the system between the START and the end of the job. The
job is requested and not begun, or it is suspended somewhere in
`perform_matrix_multiply`, and `Reached` says for each position what it has
read, computed and written by then. A step keeps that description or ends the
job, and when it ends the job the outcome is the one `Outcome` says: the
product in memory and DONE if the dimension and all three ranges are good, and
otherwise an untouched memory and ERROR.

The description also counts: the dispatches so far and those still needed add
up to `n + 4`. So a job ends under every schedule that keeps dispatching the
compute thread, and one can always be found.

## Main definitions

* `Fits`: The parameters a job succeeds with.
* `Outcome`: The end of a job.
* `dispatches`: The dispatches of the compute thread among steps.
* `Reached`: What a suspended job has done.
* `Underway`: The job has been requested and has not ended.

## Theorems

* `underway_start`: An accepted START puts the job under way.
* `underway_bar0`, `underway_kernel`: Polite traffic and the kernel leave the
  job where it is.
* `underway_begin`, `underway_resume`: A dispatch moves it on or ends it.
* `underway_wakes`: The kernel can make its thread runnable.
* `underway_step`: A step keeps the description or ends the job.
* `underway_run`: So does a run.
* `begun_run`: With no request pending, no job begins without another START.
* `underway_ends`: The end can be reached by scheduling alone.
* `first_end`: Which has a first step that ends a job.
* `job_correct`: A job runs once and ends with the right outcome.
-/

namespace PcieCosim

open Bytes Kernel Transition

/-- The range of an operand lies inside the memory. -/
def Params.InsideAt (p : Params) (mem : List Byte) (m : Operand) : Prop :=
  Inside mem (p.ptr m) (4 * p.dimN.toNat * p.dimN.toNat)

instance (p : Params) (mem : List Byte) (m : Operand) : Decidable (p.InsideAt mem m) :=
  inferInstanceAs (Decidable (Inside mem (p.ptr m) (4 * p.dimN.toNat * p.dimN.toNat)))

/-- The parameters a job succeeds with: a dimension it accepts and three
    ranges inside the memory. -/
def Fits (p : Params) (mem : List Byte) : Prop :=
  (1 ≤ p.dimN.toNat ∧ p.dimN.toNat ≤ 256) ∧ ∀ m, p.InsideAt mem m

instance (p : Params) (mem : List Byte) : Decidable (Fits p mem) :=
  inferInstanceAs (Decidable (_ ∧ ∀ m, p.InsideAt mem m))

/-- The end of a job with parameters `p` that began with the memory `mem`. -/
structure Outcome [FloatArith] (p : Params) (mem : List Byte) (s : Attached) (ok : Bool) :
    Prop where
  done : Fits p mem → ok = true ∧ s.device.regs.regStatus = Status.idle ||| Status.done ∧
    Has s.device.regs.regIntStatus intDone ∧
    Multiplied p.dimN.toNat (p.ptr .a).toNat (p.ptr .b).toNat (p.ptr .c).toNat mem s.memory
  failed : ¬ Fits p mem → ok = false ∧ s.device.regs.regStatus = Status.idle ||| Status.error ∧
    s.memory = mem

/-- A dispatch of the compute thread. -/
def Label.isCompute {δ : Type} : Label δ → Bool
  | .compute _ => true
  | _ => false

/-- The dispatches of the compute thread among the steps. -/
def dispatches {δ : Type} (ls : List (Label δ)) : Nat := ls.countP Label.isCompute

/-- The array an operand's read fills. -/
def Params.operandAt (p : Params) (mem : List Byte) (n : Nat) (m : Operand) : FloatMatrix n :=
  operand mem n (p.ptr m).toNat

/-- What a job suspended at a position has done, and what the memory is
    then. -/
def Reached [FloatArith] (p : Params) (mem : List Byte) : Position → List Byte → Prop
  | .entry, _ => False
  | .waitStart, _ => False
  | .readA n ok a, mem' =>
      n.val = p.dimN.toNat ∧ mem' = mem ∧ (ok = true ↔ p.InsideAt mem .a) ∧
        (ok = true → a = p.operandAt mem n.val .a)
  | .readB n a ok b, mem' =>
      n.val = p.dimN.toNat ∧ mem' = mem ∧ p.InsideAt mem .a ∧ a = p.operandAt mem n.val .a ∧
        (ok = true ↔ p.InsideAt mem .b) ∧ (ok = true → b = p.operandAt mem n.val .b)
  | .row n a b c i, mem' =>
      n.val = p.dimN.toNat ∧ mem' = mem ∧ p.InsideAt mem .a ∧ p.InsideAt mem .b ∧
        a = p.operandAt mem n.val .a ∧ b = p.operandAt mem n.val .b ∧ i < n.val ∧
        c = rowsDone a b (i + 1)
  | .writeC n ok, mem' =>
      n.val = p.dimN.toNat ∧ p.InsideAt mem .a ∧ p.InsideAt mem .b ∧
        (ok = true ↔ p.InsideAt mem .c) ∧
        mem' = if p.InsideAt mem .c then
            splice mem (p.ptr .c).toNat
              (storeWords (productOf mem n.val (p.ptr .a).toNat (p.ptr .b).toNat).words)
          else mem

/-- The event is the end of a job. -/
def Event.isJobEnded : Event → Bool
  | .jobEnded _ => true
  | _ => false

/-- The events of a step that ends the job. -/
structure Ends [FloatArith] (p : Params) (mem : List Byte) (s : Attached) (tr es : List Event)
    (ok : Bool) : Prop where
  ended : .jobEnded ok ∈ es
  only : ∀ ok', .jobEnded ok' ∈ es → ok' = ok
  once : jobsBegun (tr ++ es) = 1
  outcome : Outcome p mem s ok
  parked : Parked s.device
  unrequested : s.device.regs.computationRequested = false

/-- The job has begun and is suspended. -/
structure Running [FloatArith] (p : Params) (mem : List Byte) (s : Attached)
    (ls : List (Label Unit)) (tr : List Event) : Prop where
  reached : Reached p mem s.device.computeThread.position s.memory
  busy : BusyInJob s.device
  begun : jobsBegun tr = 1
  count : dispatches ls + s.device.computeThread.position.stepsLeft = p.dimN.toNat + 4

/-- The job has been requested and has not begun. -/
structure Waiting (mem : List Byte) (s : Attached) (ls : List (Label Unit)) (tr : List Event) :
    Prop where
  position : s.device.computeThread.position = .waitStart
  runnable : s.device.computeThread.runnable = true
  requested : s.device.regs.computationRequested = true
  memory : s.memory = mem
  begun : jobsBegun tr = 0
  count : dispatches ls = 0

/-- The job has been requested and has not ended. -/
structure Underway [FloatArith] (p : Params) (mem : List Byte) (s : Attached)
    (ls : List (Label Unit)) (tr : List Event) : Prop where
  notEnded : ∀ ok, .jobEnded ok ∉ tr
  params : s.device.regs.params = p
  phase : Waiting mem s ls tr ∨ Running p mem s ls tr

theorem polite_of_isKernel (l : Label Unit) (h : l.isKernel = true) : l.Polite := by
  cases l with
  | bar0 t => exact nomatch h
  | _ => exact trivial

theorem isKernel_map {δ δ' : Type} (f : δ → δ') (l : Label δ) :
    (l.map f).isKernel = l.isKernel := by
  cases l <;> rfl

theorem stepsLeft_pos (pos : Position) (h : pos.inJob = true) : 0 < pos.stepsLeft := by
  cases pos with
  | entry => exact nomatch h
  | waitStart => exact nomatch h
  | _ => exact Nat.succ_pos _

theorem dispatches_append (ls : List (Label Unit)) (l : Label Unit) :
    dispatches (ls ++ [l]) = dispatches ls + if l.isCompute then 1 else 0 := by
  rw [dispatches, List.countP_append, List.countP_singleton]
  rfl

/-- What a bounded memory answers to the read of an operand. -/
theorem read_answer (p : Params) (mem : List Byte) (d : Device) (m : Operand) (n : Nat)
    (hparams : d.regs.params = p) (hn : n = p.dimN.toNat) :
    ((boundedTarget mem (d.readPayload m n)).isResponseOk = true ↔ p.InsideAt mem m) ∧
      (p.InsideAt mem m → FloatMatrix.ofBuffer n (boundedTarget mem (d.readPayload m n)).data =
        p.operandAt mem n m) := by
  have haddr : (d.readPayload m n).address = p.ptr m := by
    rw [← hparams]
    rfl
  have hlen := length_readPayload d m n
  -- The range of the transaction is the range of the operand.
  have hiff : Inside mem (d.readPayload m n).address (d.readPayload m n).data.length ↔
      p.InsideAt mem m := by
    rw [haddr, hlen, hn]
    exact Iff.rfl
  refine ⟨(boundedTarget_ok_iff mem _).trans hiff, fun hin => ?_⟩
  rw [boundedTarget_read mem _ rfl (hiff.mpr hin), haddr, hlen]
  rfl

/-- What a bounded memory does with the write of the result. -/
theorem write_answer (p : Params) (mem : List Byte) (d : Device) (n : Nat) (c : FloatMatrix n)
    (hparams : d.regs.params = p) (hn : n = p.dimN.toNat) :
    ((boundedTarget mem (d.writePayload .c c)).isResponseOk = true ↔ p.InsideAt mem .c) ∧
      (boundedTransport mem (d.writePayload .c c)).2 =
        if p.InsideAt mem .c then splice mem (p.ptr .c).toNat (storeWords c.words) else mem := by
  have haddr : (d.writePayload .c c).address = p.ptr .c := by
    rw [← hparams]
    rfl
  have hiff : Inside mem (d.writePayload .c c).address (d.writePayload .c c).data.length ↔
      p.InsideAt mem .c := by
    rw [haddr, length_writePayload, hn]
    exact Iff.rfl
  refine ⟨(boundedTarget_ok_iff mem _).trans hiff, ?_⟩
  rw [boundedTransport_write mem _ rfl, haddr]
  exact if_congr (by rw [← haddr]; exact hiff) rfl rfl

/-- The INT_STATUS bit a successful job raises. -/
theorem has_or_intDone (v : Word) : Has (v ||| intDone) intDone := by
  intro h
  have hbit := congrArg (fun x => x.getLsbD 0) h
  simp only [BitVec.getLsbD_and, BitVec.getLsbD_or] at hbit
  exact absurd hbit (by cases v.getLsbD 0 <;> decide)

section

variable [FloatArith]

theorem inJob_of_reached (p : Params) (mem mem' : List Byte) (pos : Position)
    (h : Reached p mem pos mem') : pos.inJob = true := by
  cases pos with
  | entry => exact absurd h id
  | waitStart => exact absurd h id
  | _ => rfl

/-- Before its end a job has had fewer than `n + 4` dispatches. -/
theorem dispatches_lt (p : Params) (mem : List Byte) (s : Attached) (ls : List (Label Unit))
    (tr : List Event) (h : Underway p mem s ls tr) : dispatches ls < p.dimN.toNat + 4 := by
  rcases h.phase with hwait | hrun
  · rw [hwait.count]
    exact Nat.succ_pos _
  · have hpos := stepsLeft_pos _ (inJob_of_reached p mem _ _ hrun.reached)
    have hcount := hrun.count
    omega

/-- A step that neither dispatches the compute thread nor moves it leaves the
    job where it is, if it keeps the parameters, the memory and a pending
    request. -/
theorem underway_frame (p : Params) (mem : List Byte) (s s' : Attached)
    (ls : List (Label Unit)) (l : Label Unit) (tr es : List Event)
    (h : Underway p mem s ls tr) (hl : l.isCompute = false)
    (hpos : s'.device.computeThread.position = s.device.computeThread.position)
    (hrunnable : s.device.computeThread.runnable = true →
      s'.device.computeThread.runnable = true)
    (hreq : s.device.regs.computationRequested = true →
      s'.device.regs.computationRequested = true)
    (hparams : s'.device.regs.params = s.device.regs.params) (hmem : s'.memory = s.memory)
    (hbusy : BusyInJob s.device → BusyInJob s'.device)
    (hended : ∀ ok, .jobEnded ok ∉ es) (hbegun : jobsBegun es = 0) :
    Underway p mem s' (ls ++ [l]) (tr ++ es) := by
  have hcount : dispatches (ls ++ [l]) = dispatches ls := by
    rw [dispatches_append, hl]
    rfl
  have hjobs : jobsBegun (tr ++ es) = jobsBegun tr := by
    rw [jobsBegun_append, hbegun, Nat.add_zero]
  refine ⟨fun ok hmem' => ?_, hparams.trans h.params, ?_⟩
  · rcases List.mem_append.mp hmem' with hmem' | hmem'
    · exact h.notEnded ok hmem'
    · exact hended ok hmem'
  · rcases h.phase with hwait | hrun
    · exact Or.inl ⟨hpos.trans hwait.position, hrunnable hwait.runnable, hreq hwait.requested,
        hmem.trans hwait.memory, hjobs.trans hwait.begun, hcount.trans hwait.count⟩
    · refine Or.inr ⟨?_, hbusy hrun.busy, hjobs.trans hrun.begun, ?_⟩
      · rw [hpos, hmem]
        exact hrun.reached
      · rw [hcount, hpos]
        exact hrun.count

/-- Polite traffic leaves the job where it is. -/
theorem underway_bar0 (p : Params) (mem : List Byte) (s s' : Attached) (ls : List (Label Unit))
    (t : Payload) (tr es : List Event) (h : Underway p mem s ls tr) (ht : t.Polite)
    (hstep : system.step s (.bar0 t) = some (s', es)) :
    Underway p mem s' (ls ++ [.bar0 t]) (tr ++ es) := by
  rcases machine_step s s' (.bar0 t) es hstep with ⟨hdev, hmem⟩
  rcases polite_params s.device t ht with ⟨hreset, hparams⟩
  have hbusy : BusyInJob s.device → BusyInJob s'.device :=
    fun hb => busyInJob_step s.device (.bar0 t) s'.device es hb hreset hdev
  rw [← device_of_step s s' t es hstep] at hparams
  have hinv := step_inv _ _ _ _ hdev
  generalize hd' : s'.device = d' at hinv
  cases hinv with
  | bar0 _ _ es' he =>
      refine underway_frame p mem s s' ls _ tr _ h rfl ?_ ?_ ?_ hparams
        (by rw [hmem, transfer_bar0 _ _ t es' _ _ he]) hbusy (fun ok hmem' => ?_) ?_
      · rw [hd']
        exact position_bar0 _ _ t es' he
      · rw [hd']
        intro hr
        cases he with
        -- A polite START can be accepted while the job waits to begin; the
        -- notifications merge.
        | start _ _ _ => exact Process.runnable_notify_of_runnable _ _ hr
        | restart hr' _ => exact absurd hr' hreset
        | _ => exact hr
      · rw [hd']
        intro hr
        cases he with
        | start _ _ _ => rfl
        | reset hr' _ => exact absurd hr' hreset
        | restart hr' _ => exact absurd hr' hreset
        | _ => exact hr
      · rcases List.mem_append.mp hmem' with hmem' | hmem'
        · cases he <;> simp only [List.mem_cons, reduceCtorEq, List.not_mem_nil, or_self] at hmem'
        · exact nomatch List.mem_singleton.mp hmem'
      · cases he <;> rfl

/-- The kernel's own steps leave the job where it is. -/
theorem underway_kernel (p : Params) (mem : List Byte) (s s' : Attached)
    (ls : List (Label Unit)) (l : Label Unit) (tr es : List Event)
    (h : Underway p mem s ls tr) (hl : l.isKernel = true)
    (hstep : system.step s l = some (s', es)) :
    Underway p mem s' (ls ++ [l]) (tr ++ es) := by
  rcases system_step_inv s s' l es hstep with ⟨hinv, hmem⟩
  have hcompute : l.isCompute = false := by
    cases l with
    | compute _ => exact nomatch hl
    | _ => rfl
  generalize hd' : s'.device = d' at hinv
  cases l with
  | bar0 t => exact nomatch hl
  | compute _ => exact nomatch hl
  | control =>
      cases hinv <;>
        exact underway_frame p mem s s' ls _ tr [] h hcompute (by rw [hd']) (by rw [hd']; exact id)
          (by rw [hd']; exact id) (by rw [hd']) hmem (by rw [hd']; exact id)
          (fun _ => List.not_mem_nil) rfl
  | update =>
      cases hinv
      exact underway_frame p mem s s' ls _ tr [] h hcompute (by rw [hd']) (by rw [hd']; exact id)
        (by rw [hd']; exact id) (by rw [hd']) hmem (by rw [hd']; exact id)
        (fun _ => List.not_mem_nil) rfl
  | timeout =>
      cases hinv
      exact underway_frame p mem s s' ls _ tr [] h hcompute (by rw [hd']; rfl)
        (fun _ => by rw [hd']; rfl) (by rw [hd']; exact id) (by rw [hd']) hmem
        (by rw [hd']; exact id) (fun _ => List.not_mem_nil) rfl

/-- A job in the row loop has both operands and the rows before this one. -/
theorem rows_of_reached (p : Params) (mem mem' : List Byte) (pos : Position) (n : Dim)
    (a b c : FloatMatrix n.val) (i : Nat) (h : Reached p mem pos mem')
    (hrows : RowsLeft pos n a b c i) :
    n.val = p.dimN.toNat ∧ mem' = mem ∧ (p.InsideAt mem .a ∧ p.InsideAt mem .b) ∧
      (a = p.operandAt mem n.val .a ∧ b = p.operandAt mem n.val .b ∧ c = rowsDone a b i) ∧
      i ≤ n.val ∧ pos.stepsLeft = n.val - i + 2 := by
  cases hrows with
  | first _ _ _ =>
      rcases h with ⟨hn, hmem, hina, ha, hok, hb⟩
      exact ⟨hn, hmem, ⟨hina, hok.mp rfl⟩, ⟨ha, hb rfl, rfl⟩, Nat.zero_le _, rfl⟩
  | next _ _ _ _ k =>
      rcases h with ⟨hn, hmem, hina, hinb, ha, hb, hk, hc⟩
      refine ⟨hn, hmem, ⟨hina, hinb⟩, ⟨ha, hb, hc⟩, hk, ?_⟩
      change n.val - 1 - k + 2 = n.val - (k + 1) + 2
      omega

/-- A dispatch that moves the job to its next wait. -/
theorem underway_move (p : Params) (mem : List Byte) (s s' : Attached) (ls : List (Label Unit))
    (tr es : List Event) (h : Underway p mem s ls tr) (hrun : Running p mem s ls tr)
    (pos : Position) (hd' : s'.device = s.device.suspendAt pos)
    (hreached : Reached p mem pos s'.memory)
    (hleft : s.device.computeThread.position.stepsLeft = pos.stepsLeft + 1)
    (hended : ∀ ok, .jobEnded ok ∉ es) (hbegun : jobsBegun es = 0) :
    Underway p mem s' (ls ++ [.compute ()]) (tr ++ es) := by
  have hin := inJob_of_reached p mem _ _ hrun.reached
  refine ⟨fun ok hmem => ?_, by rw [hd']; exact h.params, Or.inr ⟨?_, ?_, ?_, ?_⟩⟩
  · rcases List.mem_append.mp hmem with hmem | hmem
    · exact h.notEnded ok hmem
    · exact hended ok hmem
  · rw [hd']
    exact hreached
  · rw [hd']
    exact fun _ => hrun.busy hin
  · rw [jobsBegun_append, hbegun, hrun.begun]
  · have hcount := hrun.count
    rw [hleft] at hcount
    rw [dispatches_append, hd']
    change dispatches ls + 1 + pos.stepsLeft = _
    omega

/-- A dispatch that ends the job with the registers of `endJob`. -/
theorem ends_endJob (p : Params) (mem : List Byte) (s' : Attached) (d : Device)
    (tr es : List Event) (ok : Bool) (hd' : s'.device = (d.endJob ok).1)
    (hreq : d.regs.computationRequested = false)
    (hes : ∀ ok', .jobEnded ok' ∈ es ↔ ok' = ok) (honce : jobsBegun (tr ++ es) = 1)
    (hfits : Fits p mem → ok = true ∧ Multiplied p.dimN.toNat (p.ptr .a).toNat (p.ptr .b).toNat
      (p.ptr .c).toNat mem s'.memory)
    (hnot : ¬ Fits p mem → ok = false ∧ s'.memory = mem) : Ends p mem s' tr es ok where
  ended := (hes ok).mpr rfl
  only := fun ok' => (hes ok').mp
  once := honce
  outcome := by
    have hstatus : s'.device.regs.regStatus = (Device.jobResult ok d.regs).regStatus := by
      rw [hd']
      rfl
    have hint : s'.device.regs.regIntStatus = (Device.jobResult ok d.regs).regIntStatus := by
      rw [hd']
      rfl
    rw [jobResult_status] at hstatus
    refine ⟨fun hf => ?_, fun hf => ?_⟩
    · rcases hfits hf with ⟨rfl, hmul⟩
      rw [hint]
      exact ⟨rfl, hstatus, has_or_intDone _, hmul⟩
    · rcases hnot hf with ⟨rfl, hmem⟩
      exact ⟨rfl, hstatus, hmem⟩
  parked := by
    rw [hd']
    exact ⟨rfl, rfl⟩
  unrequested := by
    rw [hd']
    exact (jobResult_requested ok d.regs).trans hreq

/-- The dispatch after the write of matrix C ends the job as the write was
    answered. -/
theorem ends_written (p : Params) (mem : List Byte) (s s' : Attached) (tr : List Event) (n : Dim)
    (ok : Bool) (hreached : Reached p mem (.writeC n ok) s.memory) (hbegun : jobsBegun tr = 1)
    (hreq : s.device.regs.computationRequested = false)
    (hd' : s'.device = (s.device.endJob ok).1) (hmem : s'.memory = s.memory) :
    Ends p mem s' tr [.jobEnded ok] ok := by
  rcases hreached with ⟨hdim, hina, hinb, hok, hmem₀⟩
  have hend : s'.memory = _ := hmem.trans hmem₀
  refine ends_endJob p mem s' _ tr _ ok hd' hreq (fun ok' => ?_) ?_ (fun hf => ?_)
    (fun hf => ?_)
  · rw [List.mem_singleton, Event.jobEnded.injEq]
  · rw [jobsBegun_append, hbegun]
    rfl
  · refine ⟨hok.mpr (hf.2 .c), ?_⟩
    rw [hend, if_pos (hf.2 .c), ← hdim]
    refine multiplied_splice mem n.val _ _ _ ?_
    rw [hdim]
    exact hf.2 .c
  · -- The dimension and both reads were good, so the write was not.
    have hnc : ¬ p.InsideAt mem .c := by
      intro hc
      refine hf ⟨⟨by rw [← hdim]; exact n.pos, by rw [← hdim]; exact n.le⟩, fun m => ?_⟩
      cases m with
      | a => exact hina
      | b => exact hinb
      | c => exact hc
    rw [hend, if_neg hnc]
    exact ⟨Bool.eq_false_iff.mpr (fun ht => hnc (hok.mp ht)), rfl⟩

/-- The dispatch that finds the request begins the job. -/
theorem underway_begin (p : Params) (mem : List Byte) (s s' : Attached) (ls : List (Label Unit))
    (tr es : List Event) (h : Underway p mem s ls tr) (hwait : Waiting mem s ls tr)
    (hd : Dispatch (boundedTarget s.memory) s.device s'.device es)
    (hmem : s'.memory = es.foldl transfer s.memory) :
    Underway p mem s' (ls ++ [.compute ()]) (tr ++ es) ∨ ∃ ok, Ends p mem s' tr es ok := by
  have hjob : s.device.computeThread.position.inJob = false := by rw [hwait.position]; rfl
  generalize hd' : s'.device = d' at hd
  cases hd with
  | enter hpos => rw [hwait.position] at hpos; exact nomatch hpos
  | spurious _ hr => rw [hwait.requested] at hr; exact nomatch hr
  | refuse _ _ hn =>
      -- The dimension is out of range, so the parameters do not fit.
      refine Or.inr ⟨false, ends_endJob p mem s' _ tr _ false hd' rfl (fun ok' => ?_) ?_
        (fun hf => ?_) (fun _ => ⟨rfl, hmem.trans hwait.memory⟩)⟩
      · simp only [List.mem_cons, reduceCtorEq, Event.jobEnded.injEq, List.not_mem_nil, or_false,
          false_or]
      · rw [jobsBegun_append, hwait.begun]
        rfl
      · have hbad := (check_eq_none_iff _).mp hn
        have hdim : s.device.regs.regDimN = p.dimN := congrArg Params.dimN h.params
        rw [hdim] at hbad
        have hgood := hf.1
        omega
  | readA _ _ n hn ok hok =>
      have hdim : n.val = p.dimN.toNat := by
        rw [check_eq_some _ n hn]
        exact congrArg (fun q => q.dimN.toNat) h.params
      have hread := read_answer p s.memory s.device .a n.val h.params hdim
      rw [← hok, hwait.memory] at hread
      refine Or.inl ⟨fun ok' hmem' => ?_, by rw [hd']; exact h.params, Or.inr ⟨?_, ?_, ?_, ?_⟩⟩
      · rcases List.mem_append.mp hmem' with hmem' | hmem'
        · exact h.notEnded ok' hmem'
        · simp only [List.mem_cons, reduceCtorEq, List.not_mem_nil, or_self] at hmem'
      · rw [hd', hmem]
        refine ⟨hdim, ?_, hread.1, fun htrue => ?_⟩
        · exact (boundedTransport_read s.memory _ rfl).trans hwait.memory
        · rw [hwait.memory]
          exact hread.2 (hread.1.mp htrue)
      · rw [hd']
        exact fun _ => ⟨jobStart_status _, rfl⟩
      · rw [jobsBegun_append, hwait.begun]
        rfl
      · rw [dispatches_append, hwait.count, hd', ← hdim]
        change 0 + 1 + (n.val + 3) = _
        omega
  | readB n a hpos _ _ => rw [hpos] at hjob; exact nomatch hjob
  | row n a b c i hrows _ => rw [inJob_of_rowsLeft _ n a b c i hrows] at hjob; exact nomatch hjob
  | writeC n a b c i hrows _ _ _ =>
      rw [inJob_of_rowsLeft _ n a b c i hrows] at hjob
      exact nomatch hjob
  | fail hfail => rw [inJob_of_readFailed _ hfail] at hjob; exact nomatch hjob
  | finish n ok hpos => rw [hpos] at hjob; exact nomatch hjob

/-- A read that was not answered OK is one that does not fit. -/
theorem not_fits_of_readFailed (p : Params) (mem mem' : List Byte) (pos : Position)
    (h : Reached p mem pos mem') (hfail : ReadFailed pos) : ¬ Fits p mem ∧ mem' = mem := by
  cases hfail with
  | a n a =>
      rcases h with ⟨-, hmem, hok, -⟩
      exact ⟨fun hf => absurd (hok.mpr (hf.2 .a)) (by decide), hmem⟩
  | b n a b =>
      rcases h with ⟨-, hmem, -, -, hok, -⟩
      exact ⟨fun hf => absurd (hok.mpr (hf.2 .b)) (by decide), hmem⟩

/-- A dispatch inside the job moves it on or ends it. -/
theorem underway_resume (p : Params) (mem : List Byte) (s s' : Attached) (ls : List (Label Unit))
    (tr es : List Event) (h : Underway p mem s ls tr) (hrun : Running p mem s ls tr)
    (hd : Dispatch (boundedTarget s.memory) s.device s'.device es)
    (hmem : s'.memory = es.foldl transfer s.memory) :
    Underway p mem s' (ls ++ [.compute ()]) (tr ++ es) ∨ ∃ ok, Ends p mem s' tr es ok := by
  have hjob := inJob_of_reached p mem _ _ hrun.reached
  have hreached := hrun.reached
  generalize hd' : s'.device = d' at hd
  cases hd with
  | enter hpos => rw [hpos] at hjob; exact nomatch hjob
  | spurious hpos _ => rw [hpos] at hjob; exact nomatch hjob
  | refuse hpos _ _ => rw [hpos] at hjob; exact nomatch hjob
  | readA hpos _ _ _ _ _ => rw [hpos] at hjob; exact nomatch hjob
  -- Matrix A was read, since the dispatch goes on; a read moves no byte.
  | readB n a hpos ok hok =>
      rw [hpos] at hreached
      rcases hreached with ⟨hdim, hmem₀, hina, ha⟩
      have hread := read_answer p s.memory s.device .b n.val h.params hdim
      rw [← hok, hmem₀] at hread
      refine Or.inl (underway_move p mem s s' ls tr _ h hrun _ hd' ?_ (by rw [hpos]; rfl)
        (fun ok' hmem' => nomatch List.mem_singleton.mp hmem') rfl)
      rw [hmem]
      refine ⟨hdim, (boundedTransport_read s.memory _ rfl).trans hmem₀, hina.mp rfl, ha rfl,
        hread.1, fun htrue => ?_⟩
      rw [hmem₀]
      exact hread.2 (hread.1.mp htrue)
  | row n a b c i hrows hi =>
      rcases rows_of_reached p mem _ _ n a b c i hreached hrows with
        ⟨hdim, hmem₀, ⟨hina, hinb⟩, ⟨ha, hb, hc⟩, -, hleft⟩
      refine Or.inl (underway_move p mem s s' ls tr _ h hrun _ hd' ?_ ?_
        (fun _ => List.not_mem_nil) rfl)
      · refine ⟨hdim, hmem.trans hmem₀, hina, hinb, ha, hb, hi, ?_⟩
        rw [rowsDone_succ, hc]
      · rw [hleft]
        change n.val - i + 2 = n.val - 1 - i + 2 + 1
        omega
  -- All rows are done, and the write stores them if its range fits.
  | writeC n a b c i hrows hi ok hok =>
      rcases rows_of_reached p mem _ _ n a b c i hreached hrows with
        ⟨hdim, hmem₀, ⟨hina, hinb⟩, ⟨ha, hb, hc⟩, hle, hleft⟩
      have hlast : i = n.val := Nat.le_antisymm hle (Nat.le_of_not_lt hi)
      have hwrite := write_answer p s.memory s.device n.val c h.params hdim
      rw [← hok, hmem₀] at hwrite
      refine Or.inl (underway_move p mem s s' ls tr _ h hrun _ hd' ?_ ?_
        (fun ok' hmem' => nomatch List.mem_singleton.mp hmem') rfl)
      · refine ⟨hdim, hina, hinb, hwrite.1, ?_⟩
        rw [hmem]
        change (boundedTransport s.memory (s.device.writePayload .c c)).2 = _
        rw [hmem₀, hwrite.2, hc, hlast, ha, hb]
        rfl
      · rw [hleft, hlast, Nat.sub_self]
        rfl
  -- A read that was refused has found its operand outside the memory.
  | fail hfail =>
      rcases not_fits_of_readFailed p mem _ _ hreached hfail with ⟨hnot, hmem₀⟩
      refine Or.inr ⟨false, ends_endJob p mem s' _ tr _ false hd' (hrun.busy hjob).2
        (fun ok' => ?_) ?_ (fun hf => absurd hf hnot) (fun _ => ⟨rfl, hmem.trans hmem₀⟩)⟩
      · rw [List.mem_singleton, Event.jobEnded.injEq]
      · rw [jobsBegun_append, hrun.begun]
        rfl
  | finish n ok hpos =>
      rw [hpos] at hreached
      exact Or.inr ⟨ok, ends_written p mem s s' tr n ok hreached hrun.begun (hrun.busy hjob).2 hd'
        hmem⟩

/-- After an accepted START the job is under way. -/
theorem underway_start (p : Params) (s s₀ : Attached) (ps : List (Label Unit)) (go : Payload)
    (tr₀ : List Event) (hparked : Parked s.device) (hidle : Has s.device.regs.regStatus Status.idle)
    (hps : Programmed p ps) (hgo : go.Sets Ctrl.start) (hreset : ¬ go.Sets Ctrl.reset)
    (hprog : system.run s (ps ++ [.bar0 go]) = some (s₀, tr₀)) :
    Underway p s.memory s₀ [] [] := by
  rcases requested_run p s s₀ ps go tr₀ hparked hidle hps hgo hreset hprog with ⟨hreq, hmem⟩
  exact ⟨fun _ => List.not_mem_nil, hreq.params, Or.inl ⟨hreq.position, hreq.runnable,
    hreq.requested, hmem, rfl, rfl⟩⟩

/-- A polite step keeps the description or ends the job. -/
theorem underway_step (p : Params) (mem : List Byte) (s s' : Attached) (ls : List (Label Unit))
    (l : Label Unit) (tr es : List Event) (h : Underway p mem s ls tr) (hl : l.Polite)
    (hstep : system.step s l = some (s', es)) :
    Underway p mem s' (ls ++ [l]) (tr ++ es) ∨ ∃ ok, Ends p mem s' tr es ok := by
  cases l with
  | bar0 t => exact Or.inl (underway_bar0 p mem s s' ls t tr es h hl hstep)
  | compute _ =>
      rcases system_step_inv s s' _ es hstep with ⟨hinv, hmem⟩
      cases hinv with
      | compute _ _ _ _ hd =>
          rcases h.phase with hwait | hrun
          · exact underway_begin p mem s s' ls tr es h hwait hd hmem
          · exact underway_resume p mem s s' ls tr es h hrun hd hmem
  | control => exact Or.inl (underway_kernel p mem s s' ls _ tr es h rfl hstep)
  | update => exact Or.inl (underway_kernel p mem s s' ls _ tr es h rfl hstep)
  | timeout => exact Or.inl (underway_kernel p mem s s' ls _ tr es h rfl hstep)

/-- A polite run in which no job has ended keeps the description. -/
theorem underway_run (p : Params) (mem : List Byte) (s s' : Attached)
    (ls₀ ls : List (Label Unit)) (tr₀ tr : List Event) (h : Underway p mem s ls₀ tr₀)
    (hls : ∀ l ∈ ls, l.Polite) (hrun : system.run s ls = some (s', tr))
    (hnot : ∀ ok, .jobEnded ok ∉ tr) : Underway p mem s' (ls₀ ++ ls) (tr₀ ++ tr) := by
  have hrel := system.run_relation _
    (fun s ls tr => (∃ ok, .jobEnded ok ∈ tr) ∨ Underway p mem s ls tr)
    (fun s ls tr l s' es hJ hl hstep => by
      rcases hJ with ⟨ok, hok⟩ | hu
      · exact Or.inl ⟨ok, List.mem_append_left es hok⟩
      · rcases underway_step p mem s s' ls l tr es hu hl hstep with hu' | ⟨ok, hends⟩
        · exact Or.inr hu'
        · exact Or.inl ⟨ok, List.mem_append_right tr hends.ended⟩)
    s ls₀ tr₀ (Or.inr h) ls (system.along_of_forall_mem _ s ls hls) s' tr hrun
  rcases hrel with ⟨ok, hok⟩ | hu
  · rcases List.mem_append.mp hok with hok | hok
    · exact absurd hok (h.notEnded ok)
    · exact absurd hok (hnot ok)
  · exact hu

/-- With no request pending, every job that begins answers a START accepted in
    the meantime. -/
theorem begun_run (s s' : Attached) (hreq : s.device.regs.computationRequested = false)
    (ls : List (Label Unit)) (tr : List Event) (hrun : system.run s ls = some (s', tr)) :
    jobsBegun tr ≤ startsAccepted tr := by
  have hcount := system.run_trace
    (fun s tr => jobsBegun tr + s.device.regs.computationRequested.toNat ≤ startsAccepted tr)
    (fun s tr l s' es h hstep => begun_append tr es _ _ h
      (begun_step _ _ _ es (system_step_inv s s' l es hstep).1))
    s (by rw [hreq]; exact Nat.le_refl 0) ls s' tr hrun
  exact (Nat.le_add_right _ _).trans hcount

/-- The kernel can make the thread of a job under way runnable. -/
theorem underway_wakes (p : Params) (mem : List Byte) (s : Attached) (ls : List (Label Unit))
    (tr : List Event) (h : Underway p mem s ls tr) :
    ∃ ls' s', (∀ l ∈ ls', l.isKernel = true) ∧ system.run s ls' = some (s', []) ∧
      s'.device.computeThread.runnable = true := by
  rcases h.phase with hwait | hrun
  · exact ⟨[], s, fun _ hl => absurd hl List.not_mem_nil, rfl, hwait.runnable⟩
  · rcases exists_wake s.device (inJob_of_reached p mem _ _ hrun.reached) with
      ⟨ls', d, hls', hd, -, hthread⟩
    refine ⟨ls'.map (Label.map (fun _ => ())), _, fun l hl => ?_,
      system_run_kernel s.device d s.memory ls' hls' [] hd, by rw [hthread]; rfl⟩
    rcases List.mem_map.mp hl with ⟨l₀, hl₀, rfl⟩
    rw [isKernel_map]
    exact hls' l₀ hl₀

/-- The end of the job can be reached by scheduling alone. -/
theorem underway_ends (p : Params) (mem : List Byte) (k : Nat) (s : Attached)
    (ls : List (Label Unit)) (tr : List Event) (h : Underway p mem s ls tr)
    (hk : p.dimN.toNat + 4 ≤ dispatches ls + k) :
    ∃ ls' s' tr' ok, (∀ l ∈ ls', l.isBar0 = false) ∧ system.run s ls' = some (s', tr') ∧
      .jobEnded ok ∈ tr' := by
  -- The induction is on the dispatches left; each round wakes and dispatches.
  induction k generalizing s ls tr with
  | zero =>
      have hlt := dispatches_lt p mem s ls tr h
      omega
  | succ k ih =>
      rcases underway_wakes p mem s ls tr h with ⟨ls₁, u, hls₁, hrun₁, hrunnable⟩
      have hu := underway_run p mem s u ls ls₁ tr [] h
        (fun l hl => polite_of_isKernel l (hls₁ l hl)) hrun₁ (fun _ => List.not_mem_nil)
      have hstep := system_step u (.compute ()) _ _
        (step_compute u.device (boundedTarget u.memory) hrunnable)
      have hfirst := system.run_append s u _ ls₁ [.compute ()] [] _ hrun₁
        ((Machine.run_singleton_iff _ _ _ _ _).mpr hstep)
      have hquiet := isBar0_concat_compute ls₁ () hls₁
      rcases underway_step p mem u _ _ (.compute ()) _ _ hu trivial hstep with hu' | ⟨ok, hends⟩
      · have hmore : p.dimN.toNat + 4 ≤ dispatches (ls ++ ls₁ ++ [.compute ()]) + k := by
          rw [dispatches_append, dispatches, List.countP_append]
          change _ ≤ dispatches ls + dispatches ls₁ + 1 + k
          omega
        rcases ih _ _ _ hu' hmore with ⟨ls', s', tr', ok, hquiet', hrun', hend⟩
        refine ⟨_, s', _, ok, fun l hl => ?_, system.run_append _ _ _ _ ls' _ tr' hfirst hrun',
          List.mem_append_right _ hend⟩
        rcases List.mem_append.mp hl with hl | hl
        · exact hquiet l hl
        · exact hquiet' l hl
      · exact ⟨_, _, _, ok, hquiet, hfirst, hends.ended⟩

/-- A schedule that reaches the end of a job has a first step that ends one. -/
theorem first_end (s t : Attached) (ls : List (Label Unit)) (tr : List Event) (ok : Bool)
    (hquiet : ∀ l ∈ ls, l.isBar0 = false) (hrun : system.run s ls = some (t, tr))
    (hend : .jobEnded ok ∈ tr) :
    ∃ ls₁ l u v tr₁ es ok', ((∀ l' ∈ ls₁, l'.Polite) ∧ l.Polite) ∧
      system.run s ls₁ = some (u, tr₁) ∧ (∀ ok, .jobEnded ok ∉ tr₁) ∧
      system.step u l = some (v, es) ∧ .jobEnded ok' ∈ es := by
  rcases system.run_first (fun e => e.isJobEnded = true) s t ls tr hrun ⟨_, hend, rfl⟩ with
    ⟨ls₁, l, ls₂, u, tr₁, v, es, rfl, h₁, hno, hstep, e, he, hisEnd⟩
  have hpolite : ∀ l' ∈ ls₁ ++ l :: ls₂, l'.Polite := by
    intro l' hl'
    have hq := hquiet l' hl'
    cases l' with
    | bar0 t => exact absurd hq.symm Bool.false_ne_true
    | _ => exact trivial
  cases e with
  | jobEnded ok' =>
      exact ⟨ls₁, l, u, v, tr₁, es, ok', ⟨fun l' hl' => hpolite l' (List.mem_append_left _ hl'),
        hpolite l (List.mem_append_right _ List.mem_cons_self)⟩, h₁,
        fun ok'' hmem => hno _ hmem rfl, hstep, he⟩
  | _ => exact absurd hisEnd Bool.false_ne_true

/-- One job, end to end. The endpoint is attached to a memory that accepts the
    transactions inside it, its compute thread is parked and STATUS has IDLE.
    The host programs the parameters in any order and writes START without
    RESET, and from then on until the job ends its traffic is polite. Then, up
    to the end of the job, at most one job begins, STATUS says BUSY once it
    has, fewer than `n + 4` dispatches have been made, and the end can be
    reached by scheduling alone. The step that ends it leaves exactly one job
    begun, the outcome its parameters and the memory call for, a parked thread
    and no request, so that a START written meanwhile is forgotten: whatever
    happens next, no more jobs begin than STARTs are accepted from then on. -/
theorem job_correct (d : Device) (mem : List Byte) (p : Params) (hparked : Parked d)
    (hidle : Has d.regs.regStatus Status.idle) (ps : List (Label Unit))
    (hps : Programmed p ps) (go : Payload) (hgo : go.Sets Ctrl.start)
    (hreset : ¬ go.Sets Ctrl.reset) (ls : List (Label Unit)) (hls : ∀ l ∈ ls, l.Polite)
    (s₀ s : Attached) (tr₀ tr : List Event)
    (hprog : system.run { device := d, memory := mem } (ps ++ [.bar0 go]) = some (s₀, tr₀))
    (hrun : system.run s₀ ls = some (s, tr)) (hnot : ∀ ok, .jobEnded ok ∉ tr) :
    (jobsBegun tr ≤ 1 ∧ (jobsBegun tr = 1 → s.device.regs.regStatus = Status.busy) ∧
      dispatches ls < p.dimN.toNat + 4) ∧
    (∃ ls' s' tr' ok, (∀ l ∈ ls', l.isBar0 = false) ∧ system.run s ls' = some (s', tr') ∧
      .jobEnded ok ∈ tr') ∧
    ∀ l s' es ok, l.Polite → system.step s l = some (s', es) → .jobEnded ok ∈ es →
      (jobsBegun (tr ++ es) = 1 ∧ Outcome p mem s' ok) ∧
      (Parked s'.device ∧ s'.device.regs.computationRequested = false) ∧
      ∀ ls' t tr', system.run s' ls' = some (t, tr') → jobsBegun tr' ≤ startsAccepted tr' := by
  have hstart := underway_start p _ s₀ ps go tr₀ hparked hidle hps hgo hreset hprog
  have hu := underway_run p mem s₀ s [] ls [] tr hstart hls hrun hnot
  rw [List.nil_append, List.nil_append] at hu
  refine ⟨⟨?_, fun hone => ?_, dispatches_lt p mem s ls tr hu⟩,
    underway_ends p mem (p.dimN.toNat + 4) s ls tr hu (Nat.le_add_left _ _), ?_⟩
  · rcases hu.phase with hwait | hrunning
    · rw [hwait.begun]
      exact Nat.zero_le 1
    · rw [hrunning.begun]
  · rcases hu.phase with hwait | hrunning
    · rw [hwait.begun] at hone
      exact nomatch hone
    · exact (hrunning.busy (inJob_of_reached p mem _ _ hrunning.reached)).1
  · intro l s' es ok hl hstep hok
    rcases underway_step p mem s s' ls l tr es hu hl hstep with hu' | ⟨ok', hends⟩
    · exact absurd (List.mem_append_right tr hok) (hu'.notEnded ok)
    · rw [hends.only ok hok]
      exact ⟨⟨hends.once, hends.outcome⟩, ⟨hends.parked, hends.unrequested⟩,
        fun ls' t tr' => begun_run s' t hends.unrequested ls' tr'⟩

end

/-- The parameters of a job of dimension two on a memory of 48 bytes. -/
def twoParams : Params where
  dimN := 2
  ptr
    | .a => 0
    | .b => 16
    | .c => 32

/-- Programming them, a pointer whole and the others by halves. -/
def twoProgram : List (Label Unit) :=
  [ParamWrite.whole .a, .high .b, .dimN, .low .b, .low .c, .high .c].map
    (fun x => .bar0 (x.payload twoParams))

/-- The job begins, and the host writes another START. -/
def twoBegun : List (Label Unit) :=
  [.compute (), .bar0 (.write32 Register.control.offset Ctrl.start)]

theorem twoProgram_programmed : Programmed twoParams twoProgram where
  only := by
    intro l hl
    rcases List.mem_map.mp hl with ⟨x, -, rfl⟩
    exact Or.inl ⟨x, rfl⟩
  dimN := List.mem_map_of_mem (List.mem_of_getElem? (i := 2) rfl)
  ptr := by
    intro m
    cases m with
    | a => exact Or.inl (List.mem_map_of_mem (List.mem_of_getElem? (i := 0) rfl))
    | b =>
        exact Or.inr ⟨List.mem_map_of_mem (List.mem_of_getElem? (i := 3) rfl),
          List.mem_map_of_mem (List.mem_of_getElem? (i := 1) rfl)⟩
    | c =>
        exact Or.inr ⟨List.mem_map_of_mem (List.mem_of_getElem? (i := 4) rfl),
          List.mem_map_of_mem (List.mem_of_getElem? (i := 5) rfl)⟩

theorem not_jobEnded_of_all (tr : List Event) (h : tr.all (fun e => !e.isJobEnded) = true)
    (ok : Bool) : .jobEnded ok ∉ tr :=
  fun hmem => nomatch List.all_eq_true.mp h _ hmem

/-- The job ends with the product of the matrices at 0 and 16 stored at 32, and
    the second START is forgotten. -/
theorem job_correct_two :
    ∃ s₀ tr₀ s₁ tr₁ ls s tr l s' es, (@system float32Arith).run
        { device := Device.initialized, memory := List.replicate 48 1 }
        (twoProgram ++ [.bar0 (.write32 Register.control.offset Ctrl.start)]) = some (s₀, tr₀) ∧
      (@system float32Arith).run s₀ twoBegun = some (s₁, tr₁) ∧
      (@system float32Arith).run s₁ ls = some (s, tr) ∧
      (@system float32Arith).step s l = some (s', es) ∧
      @Outcome float32Arith twoParams (List.replicate 48 1) s' true ∧
      s'.device.regs.computationRequested = false := by
  let _ := float32Arith
  have hfits : Fits twoParams (List.replicate 48 1) := by decide
  have hruns : ∃ s₀ tr₀ s₁ tr₁, system.run
        { device := Device.initialized, memory := List.replicate 48 1 }
        (twoProgram ++ [.bar0 (.write32 Register.control.offset Ctrl.start)]) = some (s₀, tr₀) ∧
      system.run s₀ twoBegun = some (s₁, tr₁) ∧ tr₁.all (fun e => !e.isJobEnded) = true :=
    ⟨_, _, _, _, rfl, rfl, rfl⟩
  rcases hruns with ⟨s₀, tr₀, s₁, tr₁, hprog, hbegun, hall⟩
  have hnot := not_jobEnded_of_all tr₁ hall
  have hpolite : ∀ l ∈ twoBegun, l.Polite := by decide
  have hjob := job_correct Device.initialized (List.replicate 48 1) twoParams ⟨rfl, rfl⟩
    (by decide) twoProgram twoProgram_programmed (.write32 Register.control.offset Ctrl.start)
    (by decide) (by decide)
  -- The end can be reached, and the first step that ends the job ends it well.
  rcases (hjob twoBegun hpolite s₀ s₁ tr₀ tr₁ hprog hbegun hnot).2.1 with
    ⟨ls', t, tr', ok, hquiet, hrun, hend⟩
  rcases first_end s₁ t ls' tr' ok hquiet hrun hend with
    ⟨ls, l, s, s', tr, es, ok', ⟨hls, hl⟩, hrun', hnot', hstep, hend'⟩
  have hpolite' : ∀ l ∈ twoBegun ++ ls, l.Polite := by
    intro l' hl'
    rcases List.mem_append.mp hl' with hl' | hl'
    · exact hpolite l' hl'
    · exact hls l' hl'
  have hnone : ∀ ok, .jobEnded ok ∉ tr₁ ++ tr := by
    intro ok hmem
    rcases List.mem_append.mp hmem with hmem | hmem
    · exact hnot ok hmem
    · exact hnot' ok hmem
  rcases (hjob (twoBegun ++ ls) hpolite' s₀ s tr₀ (tr₁ ++ tr) hprog
    (system.run_append s₀ s₁ s twoBegun ls tr₁ tr hbegun hrun') hnone).2.2 l s' es ok' hl hstep
    hend' with ⟨⟨-, hout⟩, ⟨-, hreq⟩, -⟩
  rw [(hout.done hfits).1] at hout
  exact ⟨s₀, tr₀, s₁, tr₁, ls, s, tr, l, s', es, hprog, hbegun, hrun', hstep, hout, hreq⟩

end PcieCosim
