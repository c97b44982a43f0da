import PcieCosim.Endpoint.Steps

/-!
# Discipline of the DMA Trace

What holds of every run of the endpoint, whatever the host does and whatever
the DMA target answers.

The trace is cut at the points where a job begins, which `jobBlocks` does, and
each piece is the sequence of DMA transactions of one job. `Discipline` ties
the pieces to the device: the last piece is what the position of the compute
thread says has been issued so far, a pending request is a START that no job
has used up yet, and STATUS and INT_STATUS hold one of the values they are
ever assigned. A BAR0 transaction moves no thread, so it can change the
registers under a job but not the shape of its block.

## Main definitions

* `dmaTransactions`: The DMA transactions of a trace, with their answers.
* `jobBlocks`: The same, one block for each job begun.
* `jobsBegun`, `startsAccepted`: The counts of the two events.
* `IsJobBlock`: A prefix of read, read, write of one length.
* `StatusValid`: The four values STATUS takes.
* `Issued`: The transactions a job has issued, by their answers.
* `Discipline`: The invariant of device and trace.

## Theorems

* `flatten_jobBlocks`: The blocks are the DMA trace cut in pieces.
* `isJobBlock_of_issued`: What a job issues is a block.
* `begun_step`: A job that begins uses up a request, and only a START makes
  one.
* `discipline_step`: A step keeps the invariant.
* `discipline_run`: So does a run.
* `done_gained`: STATUS and INT_STATUS gain their DONE bits at the end of a
  job whose three transactions were answered OK.
* `dma_trace_discipline`: The trace of every run is disciplined.
-/

namespace PcieCosim

open Bytes Kernel Transition

/-- A DMA transaction and whether it was answered OK. -/
abbrev Issue := Payload × Bool

/-- The DMA transaction an event is, if it is one. -/
def Event.issue : Event → Option Issue
  | .dma _ t ok => some (t, ok)
  | _ => none

/-- The DMA transactions of a trace. -/
def dmaTransactions (tr : List Event) : List Issue := tr.filterMap Event.issue

/-- A job opens a block and a transaction goes to the last block. -/
def addToBlocks (bs : List (List Issue)) : Event → List (List Issue)
  | .jobBegun => bs ++ [[]]
  | .dma _ t ok => bs.dropLast ++ [bs.getLastD [] ++ [(t, ok)]]
  | _ => bs

/-- The DMA transactions of a trace, in one block for each job begun. -/
def jobBlocks (tr : List Event) : List (List Issue) := tr.foldl addToBlocks []

/-- The event is the beginning of a job. -/
def Event.isJobBegun : Event → Bool
  | .jobBegun => true
  | _ => false

/-- The event is an accepted START. -/
def Event.isStart : Event → Bool
  | .computationStarted _ => true
  | _ => false

/-- The jobs begun in a trace. -/
def jobsBegun (tr : List Event) : Nat := tr.countP Event.isJobBegun

theorem jobsBegun_append (tr es : List Event) :
    jobsBegun (tr ++ es) = jobsBegun tr + jobsBegun es := List.countP_append

/-- The STARTs accepted in a trace. -/
def startsAccepted (tr : List Event) : Nat := tr.countP Event.isStart

/-- The transactions of one job: a prefix of read, read, write, all of the
    length of one dimension, each but the last answered OK. -/
def IsJobBlock (b : List Issue) : Prop :=
  ∃ n, 1 ≤ n ∧ n ≤ 256 ∧
    b.map (fun x => x.1.command) <+: [Command.read, Command.read, Command.write] ∧
    (∀ x ∈ b, x.1.data.length = 4 * n * n) ∧ ∀ x ∈ b.dropLast, x.2 = true

/-- The four values STATUS takes. -/
def StatusValid (v : Word) : Prop :=
  v = Status.idle ∨ v = Status.busy ∨ v = Status.idle ||| Status.done ∨
    v = Status.idle ||| Status.error

theorem flatten_foldl_addToBlocks (tr : List Event) (bs : List (List Issue)) :
    (tr.foldl addToBlocks bs).flatten = bs.flatten ++ dmaTransactions tr := by
  induction tr generalizing bs with
  | nil => simp only [List.foldl_nil, dmaTransactions, List.filterMap_nil, List.append_nil]
  | cons e tr ih =>
      rw [List.foldl_cons, ih]
      cases e with
      | dma m t ok =>
          simp only [addToBlocks, dmaTransactions, Event.issue, List.filterMap_cons,
            List.flatten_append, List.flatten_cons, List.flatten_nil, List.append_nil]
          rcases List.eq_nil_or_concat bs with rfl | ⟨bs', b, rfl⟩
          · rfl
          · simp only [List.concat_eq_append, List.dropLast_concat, List.getLastD_concat,
              List.flatten_append, List.flatten_cons, List.flatten_nil, List.append_nil,
              List.append_assoc, List.cons_append, List.nil_append]
      | jobBegun =>
          simp only [addToBlocks, dmaTransactions, Event.issue, List.filterMap_cons,
            List.flatten_append, List.flatten_cons, List.flatten_nil, List.append_nil]
      | bar0 t r => rfl
      | deviceReset => rfl
      | computationStarted p => rfl
      | jobEnded s => rfl

/-- The blocks are the DMA trace, cut in pieces. -/
theorem flatten_jobBlocks (tr : List Event) : (jobBlocks tr).flatten = dmaTransactions tr := by
  rw [jobBlocks, flatten_foldl_addToBlocks, List.flatten_nil, List.nil_append]

/-- The transactions a job of dimension `n` has issued, given their
    answers. -/
def Issued (n : Dim) (oks : List Bool) (b : List Issue) : Prop :=
  b.map (fun x => x.1.command) = [Command.read, Command.read, Command.write].take oks.length ∧
    (∀ x ∈ b, x.1.data.length = 4 * n.val * n.val) ∧ b.map (fun x => x.2) = oks

/-- The answers a thread suspended at a position has got in its job. -/
def Position.answers : Position → List Bool
  | .entry => []
  | .waitStart => []
  | .readA _ ok _ => [ok]
  | .readB _ _ ok _ => [true, ok]
  | .row _ _ _ _ _ => [true, true]
  | .writeC _ ok => [true, true, ok]

/-- The dimension of the job a position is in. -/
def Position.dim : Position → Option Dim
  | .entry => none
  | .waitStart => none
  | .readA n _ _ => some n
  | .readB n _ _ _ => some n
  | .row n _ _ _ _ => some n
  | .writeC n _ => some n

theorem isJobBlock_of_issued (n : Dim) (oks : List Bool) (b : List Issue)
    (h : Issued n oks b) (hoks : ∀ ok ∈ oks.dropLast, ok = true) : IsJobBlock b := by
  rcases h with ⟨hcmd, hlen, hok⟩
  refine ⟨n.val, n.pos, n.le, ?_, hlen, fun x hx => ?_⟩
  · rw [hcmd]
    exact List.take_prefix _ _
  · apply hoks
    rw [← hok, ← List.map_dropLast]
    exact List.mem_map_of_mem hx

/-- One more transaction of a job. -/
theorem issued_concat (n : Dim) (oks : List Bool) (b : List Issue) (h : Issued n oks b)
    (t : Payload) (ok : Bool)
    (hcmd : [Command.read, Command.read, Command.write][oks.length]? = some t.command)
    (hlen : t.data.length = 4 * n.val * n.val) : Issued n (oks ++ [ok]) (b ++ [(t, ok)]) := by
  rcases h with ⟨hcmds, hlens, hoks⟩
  refine ⟨?_, ?_, ?_⟩
  · rw [List.map_append, hcmds, List.length_append, List.length_singleton, List.take_add_one,
      hcmd]
    rfl
  · intro x hx
    rcases List.mem_append.mp hx with hx | hx
    · exact hlens x hx
    · rw [List.mem_singleton.mp hx]
      exact hlen
  · rw [List.map_append, hoks]
    rfl

/-- The invariant of every run: what the trace so far is, given the device. -/
structure Discipline (d : Device) (tr : List Event) : Prop where
  blocks : ∀ b ∈ jobBlocks tr, IsJobBlock b
  length : (jobBlocks tr).length = jobsBegun tr
  current : ∀ n, d.computeThread.position.dim = some n →
    ∃ bs b, jobBlocks tr = bs ++ [b] ∧ Issued n d.computeThread.position.answers b
  begun : jobsBegun tr + d.regs.computationRequested.toNat ≤ startsAccepted tr
  status : StatusValid d.regs.regStatus
  intStatus : d.regs.regIntStatus &&& ~~~intDone = 0

theorem discipline_constructed : Discipline Device.constructed [] where
  blocks := fun b hb => absurd hb List.not_mem_nil
  length := rfl
  current := fun n hn => by simp only [Device.constructed, Position.dim, reduceCtorEq] at hn
  begun := by decide
  status := Or.inl rfl
  intStatus := by decide

theorem statusValid_jobResult (success : Bool) (r : Registers) :
    StatusValid (Device.jobResult success r).regStatus := by
  cases success with
  | false => exact Or.inr (Or.inr (Or.inr rfl))
  | true => exact Or.inr (Or.inr (Or.inl rfl))

theorem intStatus_jobResult (success : Bool) (r : Registers)
    (h : r.regIntStatus &&& ~~~intDone = 0) :
    (Device.jobResult success r).regIntStatus &&& ~~~intDone = 0 := by
  cases success with
  | false => exact h
  | true =>
      change (r.regIntStatus ||| intDone) &&& ~~~intDone = 0
      rw [BitVec.and_or_distrib_right, h, BitVec.and_not_self]
      rfl

/-- A request is used up by at most the job that begins, so the count of jobs
    stays behind the count of STARTs. -/
theorem begun_append (tr es : List Event) (k k' : Nat) (h : jobsBegun tr + k ≤ startsAccepted tr)
    (hes : jobsBegun es + k' ≤ k + startsAccepted es) :
    jobsBegun (tr ++ es) + k' ≤ startsAccepted (tr ++ es) := by
  simp only [jobsBegun, startsAccepted, List.countP_append] at h hes ⊢
  omega

theorem begun_bar0 (d d' : Device) (t : Payload) (es : List Event) (r : Response)
    (he : Bar0Effect d t d' es) :
    jobsBegun (es ++ [.bar0 t r]) + d'.regs.computationRequested.toNat ≤
      d.regs.computationRequested.toNat + startsAccepted (es ++ [.bar0 t r]) := by
  cases he with
  | start _ _ _ => exact Nat.le_add_left 1 _
  | restart _ _ => exact Nat.le_add_left 1 _
  | reset _ _ => exact Nat.zero_le _
  | _ => exact Nat.le_of_eq (Nat.zero_add _)

theorem begun_dispatch [FloatArith] (target : DmaTarget) (d d' : Device) (es : List Event)
    (hd : Dispatch target d d' es) :
    jobsBegun es + d'.regs.computationRequested.toNat ≤
      d.regs.computationRequested.toNat + startsAccepted es := by
  cases hd with
  | refuse _ hreq _ => rw [hreq]; exact Nat.le_refl 1
  | readA _ hreq _ _ _ _ => rw [hreq]; exact Nat.le_refl 1
  | finish n ok _ =>
      change 0 + (Device.jobResult ok d.regs).computationRequested.toNat ≤ _
      rw [jobResult_requested, Nat.zero_add]
      exact Nat.le_add_right _ _
  | _ => exact Nat.le_of_eq (Nat.zero_add _)

/-- A job that begins uses up a request, and only a START makes one. -/
theorem begun_step [FloatArith] (d d' : Device) (l : Label DmaTarget) (es : List Event)
    (hstep : Step d l d' es) :
    jobsBegun es + d'.regs.computationRequested.toNat ≤
      d.regs.computationRequested.toNat + startsAccepted es := by
  cases hstep with
  | bar0 t _ es' he => exact begun_bar0 d d' t es' _ he
  | compute target _ _ _ hd => exact begun_dispatch target d d' es hd
  | _ => exact Nat.le_of_eq (Nat.zero_add _)

/-- A step that leaves the compute thread where it was and issues nothing
    keeps the blocks, so only the registers are left to check. -/
theorem discipline_of_still (d d' : Device) (tr es : List Event) (h : Discipline d tr)
    (hpos : d'.computeThread.position = d.computeThread.position)
    (hblocks : jobBlocks (tr ++ es) = jobBlocks tr)
    (hbegun : jobsBegun es = 0)
    (hreq : jobsBegun es + d'.regs.computationRequested.toNat ≤
      d.regs.computationRequested.toNat + startsAccepted es)
    (hstatus : StatusValid d'.regs.regStatus)
    (hint : d'.regs.regIntStatus &&& ~~~intDone = 0) : Discipline d' (tr ++ es) where
  blocks := by rw [hblocks]; exact h.blocks
  length := by
    rw [hblocks, h.length, jobsBegun, jobsBegun, List.countP_append]
    exact (congrArg (jobsBegun tr + ·) hbegun).symm
  current := by
    intro n hn
    rw [hpos] at hn ⊢
    rw [hblocks]
    exact h.current n hn
  begun := begun_append tr es _ _ h.begun hreq
  status := hstatus
  intStatus := hint

theorem discipline_bar0 (d d' : Device) (t : Payload) (tr es : List Event) (r : Response)
    (h : Discipline d tr) (he : Bar0Effect d t d' es) :
    Discipline d' (tr ++ (es ++ [.bar0 t r])) := by
  have hblocks : jobBlocks (tr ++ (es ++ [.bar0 t r])) = jobBlocks tr := by
    cases he <;> simp only [jobBlocks, List.foldl_append, List.foldl_cons, List.foldl_nil,
      addToBlocks]
  have hbegun : jobsBegun (es ++ [.bar0 t r]) = 0 := by
    cases he <;> rfl
  refine discipline_of_still d d' tr _ h ?_ hblocks hbegun (begun_bar0 d d' t es r he) ?_ ?_
  · cases he with
    | start _ _ _ => exact Process.notify_position _ _
    | restart _ _ => exact Process.notify_position _ _
    | _ => rfl
  · cases he with
    | reset _ _ => exact Or.inl rfl
    | restart _ _ => exact Or.inl rfl
    | _ => exact h.status
  · cases he with
    | clear _ v =>
        change (d.regs.regIntStatus &&& ~~~v) &&& ~~~intDone = 0
        rw [BitVec.and_assoc, BitVec.and_comm (~~~v), ← BitVec.and_assoc, h.intStatus]
        exact BitVec.zero_and
    | reset _ _ => exact BitVec.zero_and
    | restart _ _ => exact BitVec.zero_and
    | _ => exact h.intStatus

theorem length_readPayload (d : Device) (m : Operand) (n : Nat) :
    (d.readPayload m n).data.length = 4 * n * n := by
  change (List.replicate (n * n * 4) (0 : Byte)).length = _
  rw [List.length_replicate]
  ring

theorem length_writePayload (d : Device) (m : Operand) (n : Nat) (c : FloatMatrix n) :
    (d.writePayload m c).data.length = 4 * n * n := by
  change (storeWords c.words).length = _
  rw [length_storeWords, c.size]
  ring

/-- Only the beginning of a job and its transactions touch the blocks. -/
theorem jobBlocks_concat (tr : List Event) (e : Event) :
    jobBlocks (tr ++ [e]) = addToBlocks (jobBlocks tr) e := by
  rw [jobBlocks, List.foldl_append]
  rfl

/-- The end of a job closes its block. -/
theorem discipline_endJob (d : Device) (tr : List Event) (success : Bool)
    (h : Discipline d tr) : Discipline (d.endJob success).1 (tr ++ [.jobEnded success]) where
  blocks := by
    rw [jobBlocks_concat]
    exact h.blocks
  length := by
    rw [jobBlocks_concat, jobsBegun_append]
    exact h.length
  current := fun n hn => nomatch hn
  begun := by
    refine begun_append tr _ _ _ h.begun ?_
    change 0 + (Device.jobResult success d.regs).computationRequested.toNat ≤ _
    rw [jobResult_requested, Nat.zero_add]
    exact Nat.le_add_right _ _
  status := statusValid_jobResult success d.regs
  intStatus := intStatus_jobResult success d.regs h.intStatus

/-- A transaction of a job already begun extends its block. -/
theorem discipline_issue (d : Device) (tr : List Event) (h : Discipline d tr) (n : Dim)
    (hn : d.computeThread.position.dim = some n)
    (hall : ∀ ok ∈ d.computeThread.position.answers, ok = true)
    (p : Position) (hp : p.dim = some n) (m : Operand) (t : Payload) (ok : Bool)
    (hans : p.answers = d.computeThread.position.answers ++ [ok])
    (hcmd : [Command.read, Command.read, Command.write][
      d.computeThread.position.answers.length]? = some t.command)
    (hlen : t.data.length = 4 * n.val * n.val) :
    Discipline (d.suspendAt p) (tr ++ [.dma m t ok]) := by
  rcases h.current n hn with ⟨bs, b, hbs, hissued⟩
  have hb : jobBlocks (tr ++ [.dma m t ok]) = bs ++ [b ++ [(t, ok)]] := by
    rw [jobBlocks_concat, hbs, addToBlocks, List.dropLast_concat, List.getLastD_concat]
  have hissued' := issued_concat n _ b hissued t ok hcmd hlen
  refine ⟨?_, ?_, ?_, ?_, h.status, h.intStatus⟩
  · rw [hb]
    intro b' hb'
    rcases List.mem_append.mp hb' with hb' | hb'
    · exact h.blocks b' (by rw [hbs]; exact List.mem_append_left _ hb')
    · rw [List.mem_singleton.mp hb']
      refine isJobBlock_of_issued n _ _ hissued' (fun x hx => hall x ?_)
      rwa [List.dropLast_concat] at hx
  · have hl := h.length
    rw [hbs, List.length_append, List.length_singleton] at hl
    rw [hb, List.length_append, List.length_singleton, hl, jobsBegun, jobsBegun,
      List.countP_append]
    rfl
  -- The job's block is now the one extended, with the same dimension.
  · intro n' hn'
    have hnn : n' = n := by
      have : p.dim = some n' := hn'
      rw [hp, Option.some.injEq] at this
      exact this.symm
    refine ⟨bs, _, hb, ?_⟩
    rw [hnn]
    change Issued n p.answers _
    rw [hans]
    exact hissued'
  · refine begun_append tr _ _ _ h.begun ?_
    exact (Nat.zero_add _).trans_le (Nat.le_add_right _ _)

/-- A job that passes the dimension check opens a block with its first
    read. -/
theorem discipline_begin (d : Device) (tr : List Event) (h : Discipline d tr)
    (hr : d.regs.computationRequested = true) (n : Dim) (ok : Bool) (a : FloatMatrix n.val) :
    Discipline ({ d with regs := Device.jobStart d.regs }.suspendAt (.readA n ok a))
      (tr ++ [.jobBegun, .dma .a (d.readPayload .a n.val) ok]) := by
  have hb : jobBlocks (tr ++ [.jobBegun, .dma .a (d.readPayload .a n.val) ok]) =
      jobBlocks tr ++ [[(d.readPayload .a n.val, ok)]] := by
    simp only [jobBlocks, List.foldl_append, List.foldl_cons, List.foldl_nil, addToBlocks,
      List.dropLast_concat, List.getLastD_concat, List.nil_append]
  have hissued : Issued n [ok] [(d.readPayload .a n.val, ok)] := by
    exact issued_concat n [] [] ⟨rfl, fun x hx => absurd hx List.not_mem_nil, rfl⟩ _ ok rfl
      (length_readPayload d .a n.val)
  refine ⟨?_, ?_, ?_, ?_, Or.inr (Or.inl rfl), h.intStatus⟩
  · rw [hb]
    intro b' hb'
    rcases List.mem_append.mp hb' with hb' | hb'
    · exact h.blocks b' hb'
    · rw [List.mem_singleton.mp hb']
      exact isJobBlock_of_issued n [ok] _ hissued (fun x hx => absurd hx List.not_mem_nil)
  · rw [hb, List.length_append, h.length, jobsBegun, jobsBegun, List.countP_append]
    rfl
  · intro n' hn'
    have hnn : n = n' := by
      have : (Position.readA n ok a).dim = some n' := hn'
      simpa only [Position.dim, Option.some.injEq] using this
    subst hnn
    exact ⟨jobBlocks tr, _, hb, hissued⟩
  · refine begun_append tr _ _ _ h.begun ?_
    rw [hr]
    exact Nat.le_refl 1

/-- A job refused by the dimension check begins and ends in one dispatch, with
    an empty block. -/
theorem discipline_refuse (d : Device) (tr : List Event) (h : Discipline d tr)
    (hpos : d.computeThread.position = .waitStart) (hr : d.regs.computationRequested = true) :
    Discipline (Device.endJob false { d with regs := Device.jobStart d.regs }).1
      (tr ++ [.jobBegun, .jobEnded false]) := by
  -- First the beginning, which opens an empty block, then the end.
  have hopened : Discipline { d with regs := Device.jobStart d.regs } (tr ++ [.jobBegun]) := by
    refine ⟨?_, ?_, ?_, ?_, Or.inr (Or.inl rfl), h.intStatus⟩
    · rw [jobBlocks_concat]
      intro b hb
      rcases List.mem_append.mp hb with hb | hb
      · exact h.blocks b hb
      · rw [List.mem_singleton.mp hb]
        exact ⟨1, by omega, by omega, List.nil_prefix, fun x hx => absurd hx List.not_mem_nil,
          fun x hx => absurd hx List.not_mem_nil⟩
    · rw [jobBlocks_concat, jobsBegun_append, addToBlocks, List.length_append, h.length]
      rfl
    · intro n hn
      have hdim : d.computeThread.position.dim = some n := hn
      rw [hpos] at hdim
      exact nomatch hdim
    · refine begun_append tr _ _ _ h.begun ?_
      rw [hr]
      exact Nat.le_refl 1
  have hclosed := discipline_endJob _ _ false hopened
  rwa [List.append_assoc] at hclosed

/-- A thread in the row loop has had both reads answered OK. -/
theorem answers_of_rowsLeft (p : Position) (n : Dim) (a b c : FloatMatrix n.val) (i : Nat)
    (h : RowsLeft p n a b c i) : p.dim = some n ∧ p.answers = [true, true] := by
  cases h with
  | first _ _ _ => exact ⟨rfl, rfl⟩
  | next _ _ _ _ _ => exact ⟨rfl, rfl⟩

theorem discipline_dispatch [FloatArith] (target : DmaTarget) (d d' : Device)
    (tr es : List Event) (h : Discipline d tr) (hd : Dispatch target d d' es) :
    Discipline d' (tr ++ es) := by
  cases hd with
  | enter _ =>
      rw [List.append_nil]
      exact ⟨h.blocks, h.length, (fun n hn => nomatch hn), h.begun, h.status, h.intStatus⟩
  | spurious _ _ =>
      rw [List.append_nil]
      exact ⟨h.blocks, h.length, (fun n hn => nomatch hn), h.begun, h.status, h.intStatus⟩
  | refuse hpos hr hn => exact discipline_refuse d tr h hpos hr
  | readA hpos hr n hn ok hok => exact discipline_begin d tr h hr n ok _
  | readB n a hpos ok hok =>
      refine discipline_issue d tr h n (by rw [hpos]; rfl) ?_ _ rfl .b _ ok
        (by rw [hpos]; rfl) (by rw [hpos]; rfl) (length_readPayload d .b n.val)
      rw [hpos]
      intro x hx
      exact List.mem_singleton.mp hx
  -- A row issues nothing: the block stays open, with both reads answered.
  | row n a b c i hrows hi =>
      rw [List.append_nil]
      rcases answers_of_rowsLeft _ n a b c i hrows with ⟨hdim, hans⟩
      rcases h.current n hdim with ⟨bs, bl, hbs, hissued⟩
      refine ⟨h.blocks, h.length, fun n' hn' => ?_, h.begun, h.status, h.intStatus⟩
      have hnn : n = n' := by
        have : (Position.row n a b (computeRow a b c i) i).dim = some n' := hn'
        simpa only [Position.dim, Option.some.injEq] using this
      subst hnn
      rw [hans] at hissued
      exact ⟨bs, bl, hbs, hissued⟩
  -- Only a job with both reads answered OK gets to its write.
  | writeC n a b c i hrows hi ok hok =>
      rcases answers_of_rowsLeft _ n a b c i hrows with ⟨hdim, hans⟩
      refine discipline_issue d tr h n hdim ?_ _ rfl .c _ ok (by rw [hans]; rfl)
        (by rw [hans]; rfl) (length_writePayload d .c n.val c)
      rw [hans]
      intro x hx
      rcases List.mem_cons.mp hx with hx | hx
      · exact hx
      · exact List.mem_singleton.mp hx
  | fail hfail => exact discipline_endJob d tr false h
  | finish n ok hpos => exact discipline_endJob d tr ok h

theorem discipline_step [FloatArith] (d : Device) (tr : List Event) (l : Label DmaTarget)
    (d' : Device) (es : List Event) (h : Discipline d tr)
    (hstep : machine.step d l = some (d', es)) : Discipline d' (tr ++ es) := by
  cases step_inv d d' l es hstep with
  | bar0 t _ es' he => exact discipline_bar0 d d' t tr es' _ h he
  | compute target _ _ _ hd => exact discipline_dispatch target d d' tr es h hd
  | enterController _ _ => rw [List.append_nil]; exact ⟨h.1, h.2, h.3, h.4, h.5, h.6⟩
  | control _ _ => rw [List.append_nil]; exact ⟨h.1, h.2, h.3, h.4, h.5, h.6⟩
  | update _ => rw [List.append_nil]; exact ⟨h.1, h.2, h.3, h.4, h.5, h.6⟩
  | timeout _ _ _ => rw [List.append_nil]; exact ⟨h.1, h.2, h.3, h.4, h.5, h.6⟩

theorem discipline_run [FloatArith] (ls : List (Label DmaTarget)) (d : Device)
    (tr : List Event) (hrun : machine.run Device.constructed ls = some (d, tr)) :
    Discipline d tr :=
  machine.run_trace Discipline discipline_step Device.constructed discipline_constructed ls d tr
    hrun

/-- A step in which STATUS or INT_STATUS gains its DONE bit is the end of a
    job whose write of matrix C was answered OK. -/
theorem done_gained [FloatArith] (d d' : Device) (l : Label DmaTarget) (es : List Event)
    (hstep : machine.step d l = some (d', es))
    (hgain : (Has d'.regs.regStatus Status.done ∧ ¬ Has d.regs.regStatus Status.done) ∨
      (Has d'.regs.regIntStatus intDone ∧ ¬ Has d.regs.regIntStatus intDone)) :
    es = [.jobEnded true] ∧ ∃ n, d.computeThread.position = .writeC n true := by
  have hidle : ¬ Has Status.idle Status.done := by decide
  have herror : ¬ Has (Status.idle ||| Status.error) Status.done := by decide
  have hbusy : ¬ Has (Status.busy &&& ~~~Status.idle) Status.done := by decide
  have hzero : ¬ Has 0 intDone := by decide
  cases step_inv d d' l es hstep with
  | bar0 t _ es' he =>
      exfalso
      cases he with
      | clear _ v =>
          rcases hgain with hg | hg
          · exact hg.2 hg.1
          · exact hg.2 (has_of_has_and _ _ _ hg.1)
      | reset _ _ => rcases hgain with hg | hg <;> [exact hidle hg.1; exact hzero hg.1]
      | restart _ _ => rcases hgain with hg | hg <;> [exact hidle hg.1; exact hzero hg.1]
      | _ => rcases hgain with hg | hg <;> exact hg.2 hg.1
  | compute target _ _ _ hd =>
      cases hd with
      | finish n ok hpos =>
          cases ok with
          | true => exact ⟨rfl, n, hpos⟩
          | false => exfalso; rcases hgain with hg | hg <;> [exact herror hg.1; exact hg.2 hg.1]
      | refuse _ _ _ => exfalso; rcases hgain with hg | hg <;> [exact herror hg.1; exact hg.2 hg.1]
      | fail _ => exfalso; rcases hgain with hg | hg <;> [exact herror hg.1; exact hg.2 hg.1]
      | readA _ _ n _ ok _ =>
          exfalso
          rcases hgain with hg | hg <;> [exact hbusy hg.1; exact hg.2 hg.1]
      | _ => exfalso; rcases hgain with hg | hg <;> exact hg.2 hg.1
  | _ => exfalso; rcases hgain with hg | hg <;> exact hg.2 hg.1

/-- The DMA trace of every run is one block for each job begun, no more jobs
    begin than STARTs were accepted, the DONE bits appear only at the end of a
    job whose three transactions were answered OK, and STATUS and INT_STATUS
    hold no other values. -/
theorem dma_trace_discipline [FloatArith] (ls : List (Label DmaTarget)) (d : Device)
    (tr : List Event) (hrun : machine.run Device.constructed ls = some (d, tr)) :
    (dmaTransactions tr = (jobBlocks tr).flatten ∧ (jobBlocks tr).length = jobsBegun tr ∧
      ∀ b ∈ jobBlocks tr, IsJobBlock b) ∧
    jobsBegun tr ≤ startsAccepted tr ∧
    (∀ l d' es, machine.step d l = some (d', es) →
      (Has d'.regs.regStatus Status.done ∧ ¬ Has d.regs.regStatus Status.done) ∨
        (Has d'.regs.regIntStatus intDone ∧ ¬ Has d.regs.regIntStatus intDone) →
      es = [.jobEnded true] ∧ ∃ b, (jobBlocks tr).getLast? = some b ∧
        b.map (fun x => (x.1.command, x.2)) =
          [(Command.read, true), (Command.read, true), (Command.write, true)]) ∧
    StatusValid d.regs.regStatus ∧ d.regs.regIntStatus &&& ~~~intDone = 0 := by
  have h := discipline_run ls d tr hrun
  refine ⟨⟨(flatten_jobBlocks tr).symm, h.length, h.blocks⟩, ?_, ?_, h.status, h.intStatus⟩
  · have hb := h.begun
    omega
  · intro l d' es hstep hgain
    rcases done_gained d d' l es hstep hgain with ⟨hes, n, hpos⟩
    rcases h.current n (by rw [hpos]; rfl) with ⟨bs, b, hbs, hcmd, -, hok⟩
    refine ⟨hes, b, by rw [hbs, List.getLast?_concat], ?_⟩
    rw [hpos] at hcmd hok
    -- The block is read off from its commands and its answers.
    have hzip : b.map (fun x => (x.1.command, x.2)) =
        (b.map (fun x => x.1.command)).zip (b.map (fun x => x.2)) := by
      rw [List.zip_map']
    rw [hzip, hcmd, hok]
    rfl

/-- A job of dimension one on a target that accepts everything is such a
    run. -/
theorem dma_trace_discipline_one :
    ∃ d tr, (@machine float32Arith).run Device.constructed
        (.compute acceptAll :: startOne acceptAll ++ finishOne acceptAll) = some (d, tr) ∧
      (jobBlocks tr).length = 1 ∧ jobsBegun tr ≤ startsAccepted tr ∧
      (∀ b ∈ jobBlocks tr, IsJobBlock b) ∧ StatusValid d.regs.regStatus := by
  refine ⟨_, _, rfl, rfl, ?_⟩
  rcases @dma_trace_discipline float32Arith
    (.compute acceptAll :: startOne acceptAll ++ finishOne acceptAll) _ _ rfl with
    ⟨⟨-, -, hblocks⟩, hcount, -, hstatus, -⟩
  exact ⟨hcount, hblocks, hstatus⟩

end PcieCosim
