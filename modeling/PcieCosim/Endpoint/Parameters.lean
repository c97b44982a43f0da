import PcieCosim.Endpoint.Discipline
import PcieCosim.Endpoint.Handshake

/-!
# The Parameters of a Job

A host programs DIM_N and the three pointers, writes START, and expects the
job to use what it programmed. The job takes no copy: it reads DIM_N and the A
pointer when the compute thread is dispatched, the B pointer when the first
DMA wait has ended and the C pointer after the last row.

`UsesParams` is what the host expects, as a property of the trace: the
transactions of the job a START begins go to the addresses, and have the
length, that the registers held when the START was accepted. In a run without
RESET, `job_uses_params` proves it for hosts that leave each of the four
registers alone until the job has read it. `params_redirected` is a run in
which the C pointer is written for the next job and the current one follows
it.

## Main definitions

* `Since`: What the trace shows since a START.
* `UsesParams`: The transactions of a job use the parameters of its START.
* `Position.awaits`: What a suspended job has yet to read.
* `ParamsKept`: A step that changes no register a job has yet to read.
* `Agrees`: A suspended job and the parameters it was started with.
* `Parameterized`: The relation of device and trace the argument carries.

## Theorems

* `since_append`: A START is in the trace or in its extension.
* `usesParams_concat`: What one more event has to meet.
* `not_usesParams`: What breaks the property.
* `parameterized_frame`: Steps that show no transaction keep the relation.
* `parameterized_dma`: So do those that issue the next one.
* `parameterized_step`: A step without RESET keeps the relation.
* `job_uses_params`: A job uses the parameters it was started with.
* `params_redirected`: A run in which it does not.
-/

namespace PcieCosim

open Bytes Kernel Transition

/-- The trace has a START accepted with the parameters `p`, and `mid` is what
    it shows since. -/
def Since (tr : List Event) (p : Params) (mid : List Event) : Prop :=
  ∃ pre, tr = pre ++ .computationStarted p :: mid

/-- The transaction uses the given parameters. -/
def Params.Match (p : Params) (m : Operand) (t : Payload) : Prop :=
  t.address = p.ptr m ∧ t.data.length = 4 * p.dimN.toNat * p.dimN.toNat

/-- Every DMA transaction of the first job begun after a START uses the
    parameters in force when the START was accepted. -/
def UsesParams (tr : List Event) : Prop :=
  ∀ pre p mid m t ok post, tr = pre ++ .dma m t ok :: post → Since pre p mid →
    jobsBegun mid = 1 → p.Match m t

/-- The operands whose pointer a suspended job has yet to read. -/
def Position.awaits : Position → Operand → Bool
  | .readA _ _ _, .b => true
  | .readA _ _ _, .c => true
  | .readB _ _ _ _, .c => true
  | .row _ _ _ _ _, .c => true
  | _, _ => false

/-- No BAR0 transaction changes a parameter while a request is pending, or the
    pointer of an operand that the suspended job has yet to transfer. Runs
    outside this that do no harm are those of a job that never gets to the
    transfer, its dimension or its read of matrix A being refused, and those
    that change a value back in time. -/
def ParamsKept (d : Device) : Label DmaTarget → Prop
  | .bar0 t =>
      (d.regs.computationRequested = true →
        (d.bar0BTransport t).1.regs.params = d.regs.params) ∧
      ∀ m, d.computeThread.position.awaits m = true →
        (d.bar0BTransport t).1.regs.matrixPtr m = d.regs.matrixPtr m
  | _ => True

instance (d : Device) : (l : Label DmaTarget) → Decidable (ParamsKept d l)
  | .bar0 _ => inferInstanceAs (Decidable ((_ → _) ∧ ∀ m, _ = true → _ = d.regs.matrixPtr m))
  | .compute _ => isTrue trivial
  | .control => isTrue trivial
  | .update => isTrue trivial
  | .timeout => isTrue trivial

/-- What a suspended job has read and will read is what `p` says. -/
def Agrees (d : Device) (p : Params) : Prop :=
  (∀ n, d.computeThread.position.dim = some n → n.val = p.dimN.toNat) ∧
    ∀ m, d.computeThread.position.awaits m = true → d.regs.matrixPtr m = p.ptr m

theorem since_append (tr es : List Event) (p : Params) (mid : List Event)
    (h : Since (tr ++ es) p mid) :
    (∃ mid', Since tr p mid' ∧ mid = mid' ++ es) ∨
      ∃ es₁, es = es₁ ++ .computationStarted p :: mid := by
  rcases h with ⟨pre, hsplit⟩
  rcases append_eq_append_cons tr es pre mid _ hsplit with ⟨mid', htr, hmid⟩ | ⟨es₁, -, hes⟩
  · exact Or.inl ⟨mid', ⟨pre, htr⟩, hmid⟩
  · exact Or.inr ⟨es₁, hes⟩

theorem since_concat (tr : List Event) (e : Event) (hno : ∀ p, e ≠ .computationStarted p)
    (p : Params) (mid : List Event) (h : Since (tr ++ [e]) p mid) :
    ∃ mid', Since tr p mid' ∧ mid = mid' ++ [e] := by
  rcases h with ⟨pre, hsplit⟩
  rcases concat_eq_split tr pre mid e _ hsplit with ⟨mid', htr, hmid⟩ | ⟨-, hlast, -⟩
  · exact ⟨mid', ⟨pre, htr⟩, hmid⟩
  · exact absurd hlast.symm (hno p)

/-- What one more event has to meet. -/
theorem usesParams_concat (tr : List Event) (e : Event) (h : UsesParams tr)
    (he : ∀ m t ok, e = .dma m t ok → ∀ p mid, Since tr p mid → jobsBegun mid = 1 →
      p.Match m t) : UsesParams (tr ++ [e]) := by
  intro pre p mid m t ok post hsplit hsince hone
  rcases concat_eq_split tr pre post e _ hsplit with ⟨post', htr, -⟩ | ⟨rfl, hlast, -⟩
  · exact h pre p mid m t ok post' htr hsince hone
  · exact he m t ok hlast.symm p mid hsince hone

theorem not_usesParams (pre : List Event) (p : Params) (mid : List Event) (m : Operand)
    (t : Payload) (ok : Bool) (hone : jobsBegun mid = 1) (hne : ¬ p.Match m t) :
    ¬ UsesParams (pre ++ (.computationStarted p :: mid ++ [.dma m t ok])) := fun h =>
  hne (h _ p mid m t ok [] (List.append_assoc _ _ _).symm ⟨pre, rfl⟩ hone)

theorem usesParams_append (tr es : List Event) (h : UsesParams tr)
    (hno : ∀ m t ok, .dma m t ok ∉ es) : UsesParams (tr ++ es) := by
  intro pre p mid m t ok post hsplit hsince hone
  rcases append_eq_split tr es pre post _ hsplit with ⟨post', htr, -⟩ | hmem
  · exact h pre p mid m t ok post' htr hsince hone
  · exact absurd hmem (hno m t ok)

/-- What a run without RESET relates: a START no job has begun since is
    pending with its parameters still in the registers, and the job it began
    agrees with them. -/
structure Parameterized (d : Device) (tr : List Event) : Prop where
  busy : BusyInJob d
  pending : ∀ p mid, Since tr p mid → jobsBegun mid = 0 →
    d.regs.computationRequested = true ∧ d.regs.params = p
  agrees : ∀ p mid, Since tr p mid → jobsBegun mid = 1 → Agrees d p
  uses : UsesParams tr

theorem parameterized_constructed : Parameterized Device.constructed [] where
  busy := nofun
  pending := by
    rintro p mid ⟨pre, hnil⟩
    exact absurd hnil (nil_ne_split pre mid _)
  agrees := by
    rintro p mid ⟨pre, hnil⟩
    exact absurd hnil (nil_ne_split pre mid _)
  uses := by
    intro pre p mid m t ok post hnil
    exact absurd hnil (nil_ne_split pre post _)

theorem agrees_of_not_inJob (d : Device) (p : Params)
    (h : d.computeThread.position.inJob = false) : Agrees d p := by
  unfold Agrees
  cases hpos : d.computeThread.position with
  | entry => exact ⟨nofun, nofun⟩
  | waitStart => exact ⟨nofun, nofun⟩
  | readA n ok a => rw [hpos] at h; exact nomatch h
  | readB n a ok b => rw [hpos] at h; exact nomatch h
  | row n a b c i => rw [hpos] at h; exact nomatch h
  | writeC n ok => rw [hpos] at h; exact nomatch h

/-- A step that shows neither a transaction nor the beginning of a job keeps
    the relation, if it keeps the parameters of a pending request and what the
    job agrees with, and leaves the parameters of its own STARTs. -/
theorem parameterized_frame (d d' : Device) (tr es : List Event) (h : Parameterized d tr)
    (hbusy : BusyInJob d')
    (hreq : d.regs.computationRequested = true →
      d'.regs.computationRequested = true ∧ d'.regs.params = d.regs.params)
    (hagrees : ∀ p, Agrees d p → Agrees d' p)
    (hstart : ∀ p, .computationStarted p ∈ es →
      d'.regs.computationRequested = true ∧ d'.regs.params = p)
    (hbegun : jobsBegun es = 0) (hdma : ∀ m t ok, .dma m t ok ∉ es) :
    Parameterized d' (tr ++ es) where
  busy := hbusy
  pending := by
    intro p mid hsince hzero
    -- A START of this step brings its parameters; an older one is still
    -- pending as it was.
    rcases since_append tr es p mid hsince with ⟨mid', hold, rfl⟩ | ⟨es₁, rfl⟩
    · rw [jobsBegun_append, hbegun, Nat.add_zero] at hzero
      rcases h.pending p mid' hold hzero with ⟨hr, hp⟩
      rw [(hreq hr).2]
      exact ⟨(hreq hr).1, hp⟩
    · exact hstart p (List.mem_append_right _ List.mem_cons_self)
  agrees := by
    intro p mid hsince hone
    rcases since_append tr es p mid hsince with ⟨mid', hold, rfl⟩ | ⟨es₁, rfl⟩
    · rw [jobsBegun_append, hbegun, Nat.add_zero] at hone
      exact hagrees p (h.agrees p mid' hold hone)
    · -- No job can have begun since a START of this very step.
      have hnone : jobsBegun mid ≤ 0 := by
        rw [← hbegun, jobsBegun_append]
        exact (List.sublist_cons_self _ mid).countP_le.trans (Nat.le_add_left _ _)
      omega
  uses := usesParams_append tr es h.uses hdma

/-- A step inside a job that issues its next transaction keeps the relation,
    if the transaction and what is left of the job use what the job agrees
    with. -/
theorem parameterized_dma (d d' : Device) (tr : List Event) (m : Operand) (t : Payload)
    (ok : Bool) (h : Parameterized d tr) (hin : d.computeThread.position.inJob = true)
    (hbusy : BusyInJob d') (hagrees : ∀ p, Agrees d p → Agrees d' p ∧ p.Match m t) :
    Parameterized d' (tr ++ [.dma m t ok]) where
  busy := hbusy
  pending := by
    intro p mid hsince hzero
    rcases since_concat tr (.dma m t ok) nofun p mid hsince with ⟨mid', hold, rfl⟩
    rw [jobsBegun_append] at hzero
    -- A START without a job would be pending, and inside a job nothing is.
    have hreq := (h.pending p mid' hold (Nat.eq_zero_of_add_eq_zero_right hzero)).1
    rw [(h.busy hin).2] at hreq
    exact nomatch hreq
  agrees := by
    intro p mid hsince hone
    rcases since_concat tr (.dma m t ok) nofun p mid hsince with ⟨mid', hold, rfl⟩
    rw [jobsBegun_append] at hone
    exact (hagrees p (h.agrees p mid' hold hone)).1
  uses := by
    refine usesParams_concat tr _ h.uses (fun m' t' ok' heq p mid hsince hone => ?_)
    rw [Event.dma.injEq] at heq
    rcases heq with ⟨rfl, rfl, rfl⟩
    exact (hagrees p (h.agrees p mid hsince hone)).2

/-- The dispatch that begins a job keeps the relation, if what it issues and
    what is left of the job use the parameters of the registers. -/
theorem parameterized_begin (d d' : Device) (tr : List Event) (e : Event)
    (h : Parameterized d tr) (hbusy : BusyInJob d')
    (hstart : ∀ p, e ≠ .computationStarted p) (hbegun : e ≠ .jobBegun)
    (hagrees : Agrees d' d.regs.params)
    (hdma : ∀ m t ok, e = .dma m t ok → d.regs.params.Match m t) :
    Parameterized d' (tr ++ [.jobBegun, e]) := by
  -- A START of the extended trace is one of `tr`, with no job begun since.
  have hserved : ∀ p mid, Since (tr ++ [.jobBegun]) p mid →
      0 < jobsBegun mid ∧ (jobsBegun mid = 1 → d.regs.params = p) := by
    intro p mid hsince
    rcases since_concat tr .jobBegun nofun p mid hsince with ⟨mid', hold, rfl⟩
    rw [jobsBegun_append]
    refine ⟨Nat.succ_pos _, fun hone => (h.pending p mid' hold ?_).2⟩
    exact Nat.add_right_cancel (hone.trans (Nat.zero_add 1).symm)
  have hcount : jobsBegun [e] = 0 := by
    cases e with
    | jobBegun => exact absurd rfl hbegun
    | _ => rfl
  rw [List.append_cons]
  refine ⟨hbusy, fun p mid hsince hzero => ?_, fun p mid hsince hone => ?_, ?_⟩
  · rcases since_concat _ e hstart p mid hsince with ⟨mid', hold, rfl⟩
    rw [jobsBegun_append, hcount] at hzero
    exact absurd hzero (hserved p mid' hold).1.ne'
  · rcases since_concat _ e hstart p mid hsince with ⟨mid', hold, rfl⟩
    rw [jobsBegun_append, hcount] at hone
    rw [← (hserved p mid' hold).2 hone]
    exact hagrees
  · refine usesParams_concat _ e (usesParams_concat tr _ h.uses (fun _ _ _ heq => nomatch heq))
      (fun m t ok heq p mid hsince hone => ?_)
    rw [← (hserved p mid hsince).2 hone]
    exact hdma m t ok heq

theorem parameterized_bar0 (d d' : Device) (t : Payload) (tr es : List Event) (r : Response)
    (h : Parameterized d tr) (hbusy : BusyInJob d') (hl : ¬ t.Sets Ctrl.reset)
    (hkept : ParamsKept d (.bar0 t)) (hd' : (d.bar0BTransport t).1 = d')
    (he : Bar0Effect d t d' es) : Parameterized d' (tr ++ (es ++ [.bar0 t r])) := by
  -- The host moves no thread, so what the job agrees with changes only by
  -- what is written to the registers, which the condition rules out.
  have hpos := position_bar0 d d' t es he
  have hreq : d.regs.computationRequested = true → d'.regs.computationRequested = true := by
    cases he with
    | start _ _ _ => exact fun _ => rfl
    | reset hr _ => exact absurd hr hl
    | restart hr _ => exact absurd hr hl
    | _ => exact id
  have hstart : ∀ p, .computationStarted p ∈ es →
      d'.regs.computationRequested = true ∧ d'.regs.params = p := by
    intro p hmem
    cases he with
    | start _ _ _ =>
        rw [List.mem_singleton, Event.computationStarted.injEq] at hmem
        rw [hmem]
        exact ⟨rfl, rfl⟩
    | reset hr _ => exact absurd hr hl
    | restart hr _ => exact absurd hr hl
    | _ => exact absurd hmem List.not_mem_nil
  have hquiet : jobsBegun es = 0 ∧ ∀ m t ok, .dma m t ok ∉ es := by
    cases he with
    | start _ _ _ => exact ⟨rfl, fun _ _ _ hmem => nomatch List.mem_singleton.mp hmem⟩
    | reset hr _ => exact absurd hr hl
    | restart hr _ => exact absurd hr hl
    | _ => exact ⟨rfl, fun _ _ _ => List.not_mem_nil⟩
  refine parameterized_frame d d' tr _ h hbusy (fun hr => ⟨hreq hr, ?_⟩) (fun p hp => ?_)
    (fun p hmem => ?_) ?_ (fun m t' ok hmem => ?_)
  · rw [← hd']
    exact hkept.1 hr
  · refine ⟨fun n hn => hp.1 n (by rw [← hpos]; exact hn), fun m hm => ?_⟩
    rw [hpos] at hm
    rw [← hd', hkept.2 m hm, hp.2 m hm]
  · rcases List.mem_append.mp hmem with hmem | hmem
    · exact hstart p hmem
    · exact nomatch List.mem_singleton.mp hmem
  · rw [jobsBegun_append, hquiet.1]
    rfl
  · rcases List.mem_append.mp hmem with hmem | hmem
    · exact hquiet.2 m t' ok hmem
    · exact nomatch List.mem_singleton.mp hmem

/-- A job that has been started agrees with the registers it was started
    from. -/
theorem agrees_readA (d : Device) (n : Dim) (hn : Dim.check d.regs.regDimN = some n)
    (ok : Bool) (a : FloatMatrix n.val) :
    Agrees ({ d with regs := Device.jobStart d.regs }.suspendAt (.readA n ok a))
      d.regs.params := by
  refine ⟨fun n' hn' => ?_, fun m _ => ?_⟩
  · rw [← Option.some.inj hn']
    exact check_eq_some _ n hn
  · cases m <;> rfl

/-- A job moves on through the row loop with the parameters it has. -/
theorem agrees_of_rowsLeft (d : Device) (n : Dim) (a b c : FloatMatrix n.val) (i : Nat)
    (h : RowsLeft d.computeThread.position n a b c i) (p : Params) (hp : Agrees d p) :
    n.val = p.dimN.toNat ∧ d.regs.matrixPtr .c = p.ptr .c := by
  unfold Agrees at hp
  generalize d.computeThread.position = pos at h hp
  cases h with
  | first _ _ _ => exact ⟨hp.1 n rfl, hp.2 .c rfl⟩
  | next _ _ _ _ _ => exact ⟨hp.1 n rfl, hp.2 .c rfl⟩

theorem parameterized_dispatch [FloatArith] (target : DmaTarget) (d d' : Device)
    (tr es : List Event) (h : Parameterized d tr) (hbusy : BusyInJob d')
    (hd : Dispatch target d d' es) : Parameterized d' (tr ++ es) := by
  have hend : ∀ ok, d.computeThread.position.inJob = true →
      Parameterized (d.endJob ok).1 (tr ++ [.jobEnded ok]) := by
    intro ok hin
    refine parameterized_frame d _ tr _ h nofun (fun hreq => ?_)
      (fun p _ => agrees_of_not_inJob _ p rfl)
      (fun _ hmem => nomatch List.mem_singleton.mp hmem) rfl
      (fun _ _ _ hmem => nomatch List.mem_singleton.mp hmem)
    -- Inside a job nothing is pending.
    rw [(h.busy hin).2] at hreq
    exact nomatch hreq
  cases hd with
  | enter _ =>
      exact parameterized_frame d _ tr [] h hbusy (fun hr => ⟨hr, rfl⟩)
        (fun p _ => agrees_of_not_inJob _ p rfl) (fun _ hmem => absurd hmem List.not_mem_nil) rfl
        (fun _ _ _ => List.not_mem_nil)
  | spurious _ _ =>
      exact parameterized_frame d _ tr [] h hbusy (fun hr => ⟨hr, rfl⟩)
        (fun p _ => agrees_of_not_inJob _ p rfl) (fun _ hmem => absurd hmem List.not_mem_nil) rfl
        (fun _ _ _ => List.not_mem_nil)
  | refuse _ _ _ =>
      exact parameterized_begin d _ tr (.jobEnded false) h hbusy nofun nofun
        (agrees_of_not_inJob _ _ rfl) nofun
  | readA _ _ n hn ok _ =>
      refine parameterized_begin d _ tr _ h hbusy nofun nofun (agrees_readA d n hn ok _)
        (fun m t ok' heq => ?_)
      rw [Event.dma.injEq] at heq
      rcases heq with ⟨rfl, rfl, -⟩
      refine ⟨rfl, ?_⟩
      rw [length_readPayload, check_eq_some _ n hn]
      rfl
  | readB n a hpos ok _ =>
      refine parameterized_dma d _ tr .b _ ok h (by rw [hpos]; rfl) hbusy (fun p hp => ?_)
      rw [Agrees, hpos] at hp
      refine ⟨⟨hp.1, fun m hm => ?_⟩, hp.2 .b rfl, ?_⟩
      · cases m with
        | a => exact nomatch hm
        | b => exact nomatch hm
        | c => exact hp.2 .c rfl
      · rw [length_readPayload, hp.1 n rfl]
  | row n a b c i hrows _ =>
      refine parameterized_frame d _ tr [] h hbusy (fun hr => ⟨hr, rfl⟩) (fun p hp => ?_)
        (fun _ hmem => absurd hmem List.not_mem_nil) rfl (fun _ _ _ => List.not_mem_nil)
      rcases agrees_of_rowsLeft d n a b c i hrows p hp with ⟨hn, hc⟩
      refine ⟨fun n' hn' => ?_, fun m hm => ?_⟩
      · rw [← Option.some.inj hn', hn]
      · cases m with
        | a => exact nomatch hm
        | b => exact nomatch hm
        | c => exact hc
  | writeC n a b c i hrows _ ok _ =>
      refine parameterized_dma d _ tr .c _ ok h (inJob_of_rowsLeft _ n a b c i hrows) hbusy
        (fun p hp => ?_)
      rcases agrees_of_rowsLeft d n a b c i hrows p hp with ⟨hn, hc⟩
      refine ⟨⟨fun n' hn' => ?_, fun m hm => ?_⟩, hc, ?_⟩
      · rw [← Option.some.inj hn', hn]
      · cases m <;> exact nomatch hm
      · rw [length_writePayload, hn]
  | fail hfail => exact hend false (inJob_of_readFailed _ hfail)
  | finish n ok hpos => exact hend ok (by rw [hpos]; rfl)

theorem parameterized_step [FloatArith] (d : Device) (tr : List Event) (l : Label DmaTarget)
    (d' : Device) (es : List Event) (h : Parameterized d tr)
    (hl : l.NotSets Ctrl.reset ∧ ParamsKept d l)
    (hstep : machine.step d l = some (d', es)) : Parameterized d' (tr ++ es) := by
  have hbusy := busyInJob_step d l d' es h.busy hl.1 hstep
  cases step_inv d d' l es hstep with
  | bar0 t _ es' he =>
      have hd' : (d.bar0BTransport t).1 = d' := by
        change Device.step d (.bar0 t) = _ at hstep
        simp only [Device.step, Option.some.injEq, Prod.mk.injEq] at hstep
        exact hstep.1
      exact parameterized_bar0 d d' t tr es' _ h hbusy hl.1 hl.2 hd' he
  | compute target _ _ _ hd => exact parameterized_dispatch target d d' tr es h hbusy hd
  | _ =>
      exact parameterized_frame d _ tr [] h hbusy (fun hr => ⟨hr, rfl⟩) (fun _ hp => hp)
        (fun _ hmem => absurd hmem List.not_mem_nil) rfl (fun _ _ _ => List.not_mem_nil)

/-- In a run without RESET, the transactions of a job use the addresses and
    the dimension the registers held when its START was accepted, if no BAR0
    transaction changes one of them between the START and the dispatch that
    begins the job, or the pointer of an operand that the job has yet to
    transfer. -/
theorem job_uses_params [FloatArith] (ls : List (Label DmaTarget))
    (hnr : ∀ l ∈ ls, l.NotSets Ctrl.reset)
    (hkept : machine.Along ParamsKept Device.constructed ls) (d : Device) (tr : List Event)
    (hrun : machine.run Device.constructed ls = some (d, tr)) : UsesParams tr := by
  have hal := (machine.along_and_iff _ ParamsKept Device.constructed ls).mpr
    ⟨machine.along_of_forall_mem _ _ ls hnr, hkept⟩
  exact (machine.run_history _ Parameterized
    (fun d tr l d' es h hl hstep => parameterized_step d tr l d' es h hl hstep)
    Device.constructed [] parameterized_constructed ls hal d tr hrun).uses

/-- Programming the A pointer for the next job, once the current one has read
    it, leaves the current one alone. -/
theorem job_uses_params_one :
    ∃ d tr, (@machine float32Arith).run Device.constructed
        (.compute acceptAll :: startOne acceptAll ++
          .bar0 (.write64 (Register.matrixPtr .a).offset 64) :: finishOne acceptAll) =
          some (d, tr) ∧
      d.regs.regMatrixAPtr = 64 ∧ jobsBegun tr = 1 ∧ UsesParams tr :=
  ⟨_, _, rfl, rfl, rfl, @job_uses_params float32Arith
    (.compute acceptAll :: startOne acceptAll ++
      .bar0 (.write64 (Register.matrixPtr .a).offset 64) :: finishOne acceptAll)
    (by decide) (by decide) _ _ rfl⟩

/-- Programming the C pointer for the next job redirects the current one: it
    was started with C at 0 and writes its result at 64. -/
theorem params_redirected :
    ∃ d tr d' es t, (@machine float32Arith).run Device.constructed
        [.compute acceptAll, .bar0 (.write32 Register.dimN.offset 1)] = some (d, tr) ∧
      (@machine float32Arith).run d
        [.bar0 (.write32 Register.control.offset Ctrl.start), .compute acceptAll,
          .bar0 (.write64 (Register.matrixPtr .c).offset 64), .timeout, .compute acceptAll,
          .timeout, .compute acceptAll, .timeout, .compute acceptAll] = some (d', es) ∧
      es.head? = some (.computationStarted d.regs.params) ∧ d.regs.params.ptr .c = 0 ∧
      es.getLast? = some (.dma .c t true) ∧ t.address = 64 ∧ ¬ UsesParams (tr ++ es) := by
  refine ⟨_, _, _, _, _, rfl, rfl, rfl, rfl, rfl, rfl, ?_⟩
  exact not_usesParams _ _ [_, _, _, _, _] .c _ true rfl (fun hmatch => nomatch hmatch.1)

end PcieCosim
