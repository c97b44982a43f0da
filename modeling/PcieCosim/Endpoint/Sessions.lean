import PcieCosim.Endpoint.Job

/-!
# Sessions of Jobs

The endpoint over many jobs, one after the other, as an accelerator that
multiplies matrices in a memory.

`accelerate` is what such a device is for, without registers, threads or
transactions: given the parameters of a job and the memory, it stores the
product where the parameters say, or does nothing if they do not fit. The
operands are read before the result is written, so the ranges may overlap.

`Round` is one use of the endpoint by a host: programming in any order, START,
polite traffic, up to the step that ends the job. `session_refines` says that
rounds one after the other do to the memory what `accelerate` does, and report
success exactly for the parameters that fit, whatever the traffic in between
and the schedule. Between two rounds the endpoint is ready again, which is what
the induction carries.

## Main definitions

* `productImage`, `accelerate`, `outcomes`: The accelerator.
* `Ready`: The endpoint can take a job.
* `Round`, `Rounds`: One use of the endpoint, and many.
* `JobEnded`: What the end of a job leaves of the interrupt.

## Theorems

* `multiplied_image`, `multiplied_unique`: The memory after a job is
  determined.
* `dispatch_ended`: What a dispatch that ends a job leaves.
* `round_refines`: One round is one step of the accelerator.
* `round_exists`: A ready endpoint can be taken through a round.
* `session_refines`: Rounds refine the accelerator.
-/

namespace PcieCosim

open Bytes Kernel Transition

section

variable [FloatArith]

/-- The bytes of the product of the `n` by `n` matrices at `a` and `b`. -/
def productImage (mem : List Byte) (n a b : Nat) : List Byte :=
  storeWords ((List.range (n * n)).map (fun x => productCell mem n a b (x / n) (x % n)))

/-- The memory after a job. -/
def accelerate (mem : List Byte) (p : Params) : List Byte :=
  if Fits p mem then
    splice mem (p.ptr .c).toNat
      (productImage mem p.dimN.toNat (p.ptr .a).toNat (p.ptr .b).toNat)
  else mem

/-- Which of the jobs succeed. -/
def outcomes (mem : List Byte) : List Params → List Bool
  | [] => []
  | p :: ps => decide (Fits p mem) :: outcomes (accelerate mem p) ps

theorem length_productImage (mem : List Byte) (n a b : Nat) :
    (productImage mem n a b).length = 4 * n * n := by
  rw [productImage, length_storeWords, List.length_map, List.length_range, Nat.mul_assoc]

/-- The accelerator stores the product. -/
theorem multiplied_image (mem : List Byte) (n a b c : Nat) (h : c + 4 * n * n ≤ mem.length) :
    Multiplied n a b c mem (splice mem c (productImage mem n a b)) := by
  have hlen := length_productImage mem n a b
  refine ⟨fun i j hi hj => ?_, fun p hp => ?_, ?_⟩
  · have hlt := index_lt n i j hi hj
    have hcell : 4 * (i * n + j) + 4 ≤ 4 * n * n := by
      rw [Nat.mul_assoc]
      omega
    have hsize : i * n + j < ((List.range (n * n)).map
        (fun x => productCell mem n a b (x / n) (x % n))).length := by
      rw [List.length_map, List.length_range]
      exact hlt
    have hdiv : (i * n + j) / n = i := by
      rw [Nat.mul_comm, Nat.mul_add_div (by omega), Nat.div_eq_of_lt hj, Nat.add_zero]
    have hmod : (i * n + j) % n = j := by
      rw [Nat.mul_comm, Nat.mul_add_mod, Nat.mod_eq_of_lt hj]
    rw [loadWord_splice mem c _ (by rw [hlen]; exact h) _ (by rw [hlen]; exact hcell),
      productImage, loadWord_storeWords _ _ hsize, List.getElem_map, List.getElem_range, hdiv,
      hmod]
  · exact getElem?_splice_of_not_mem mem c _ (by rw [hlen]; exact h) p (by rw [hlen]; exact hp)
  · exact length_splice mem c _ (by rw [hlen]; exact h)

/-- The product at `c` and the memory before determine the memory after. -/
theorem multiplied_unique (n a b c : Nat) (mem m m' : List Byte)
    (hin : c + 4 * n * n ≤ mem.length) (h : Multiplied n a b c mem m)
    (h' : Multiplied n a b c mem m') : m' = m := by
  have hin' : c + 4 * (n * n) ≤ m.length := by
    rw [h.size, ← Nat.mul_assoc]
    exact hin
  refine eq_of_words m m' c (n * n) (h'.size.trans h.size.symm) hin' (fun p hp => ?_)
    (fun x hx => ?_)
  · rw [← Nat.mul_assoc] at hp
    rw [h'.frame p hp, h.frame p hp]
  · -- The cell with number `x` is in row `x / n`.
    have hn : 0 < n := by
      rcases Nat.eq_zero_or_pos n with rfl | hn
      · exact absurd hx (Nat.not_lt_zero x)
      · exact hn
    have hi : x / n < n := Nat.div_lt_of_lt_mul hx
    have hj : x % n < n := Nat.mod_lt x hn
    have hcell : x / n * n + x % n = x := by
      rw [Nat.mul_comm]
      exact Nat.div_add_mod x n
    have hw := (h'.cells _ _ hi hj).trans (h.cells _ _ hi hj).symm
    rw [hcell] at hw
    exact hw

end

/-- The endpoint can take a job. -/
structure Ready (d : Device) : Prop where
  parked : Parked d
  idle : Has d.regs.regStatus Status.idle

/-- The writes that program `p`, each pointer whole. -/
def wholeProgram (p : Params) : List Payload :=
  [ParamWrite.dimN, .whole .a, .whole .b, .whole .c].map (fun x => x.payload p)

theorem wholeProgram_programmed (p : Params) :
    Programmed p ((wholeProgram p).map (Label.bar0 (δ := Unit))) := by
  refine ⟨fun l hl => ?_, List.mem_cons_self, fun m => Or.inl ?_⟩
  · simp only [wholeProgram, List.map_map, List.mem_map] at hl
    rcases hl with ⟨x, -, rfl⟩
    exact Or.inl ⟨x, rfl⟩
  · simp only [wholeProgram, List.map_map, List.mem_map]
    refine ⟨.whole m, ?_, rfl⟩
    cases m <;> simp only [List.mem_cons, ParamWrite.whole.injEq, reduceCtorEq, or_true,
      List.not_mem_nil, or_false]

/-- What `endJob` leaves of the interrupt. -/
structure JobEnded (d d' : Device) (ok : Bool) : Prop where
  parked : Parked d'
  intStatus : d'.regs.regIntStatus =
    if ok then d.regs.regIntStatus ||| intDone else d.regs.regIntStatus
  intEnable : d'.regs.regIntEnable = d.regs.regIntEnable
  controller : d'.interruptController = d.interruptController.notify (fun _ => true)
  interrupt : d'.interrupt = d.interrupt

theorem jobEnded_endJob (d e : Device) (ok : Bool)
    (hint : e.regs.regIntStatus = d.regs.regIntStatus)
    (hen : e.regs.regIntEnable = d.regs.regIntEnable)
    (hc : e.interruptController = d.interruptController) (hi : e.interrupt = d.interrupt) :
    JobEnded d (e.endJob ok).1 ok := by
  have hnotify : e.interruptController.notify (fun _ => true) =
      d.interruptController.notify (fun _ => true) := congrArg _ hc
  cases ok with
  | false => exact ⟨⟨rfl, rfl⟩, hint, hen, hnotify, hi⟩
  | true => exact ⟨⟨rfl, rfl⟩, congrArg (· ||| intDone) hint, hen, hnotify, hi⟩

/-- A dispatch that ends a job; only the one after the write of matrix C ends
    it with success. -/
theorem dispatch_ended [FloatArith] (target : DmaTarget) (d d' : Device) (es : List Event)
    (ok : Bool) (hd : Dispatch target d d' es) (hend : .jobEnded ok ∈ es) :
    JobEnded d d' ok ∧ (ok = true → ∃ n, d.computeThread.position = .writeC n true) := by
  cases hd with
  | refuse _ _ _ =>
      simp only [List.mem_cons, reduceCtorEq, Event.jobEnded.injEq, List.not_mem_nil, or_false,
        false_or] at hend
      rw [hend]
      exact ⟨jobEnded_endJob d _ false rfl rfl rfl rfl, fun h => absurd h Bool.false_ne_true⟩
  | fail _ =>
      simp only [List.mem_singleton, Event.jobEnded.injEq] at hend
      rw [hend]
      exact ⟨jobEnded_endJob d d false rfl rfl rfl rfl, fun h => absurd h Bool.false_ne_true⟩
  | finish n ok' hpos =>
      simp only [List.mem_singleton, Event.jobEnded.injEq] at hend
      rw [hend]
      exact ⟨jobEnded_endJob d d ok' rfl rfl rfl rfl, fun h => ⟨n, by rw [hpos, h]⟩⟩
  | _ => simp only [List.mem_cons, reduceCtorEq, List.not_mem_nil, or_self] at hend

section

variable [FloatArith]

/-- One use of the endpoint: the host programs the parameters `p`, writes START
    without RESET and is polite until the step that ends the job, which ends it
    with `ok`. -/
def Round (p : Params) (s : Attached) (ok : Bool) (s' : Attached) : Prop :=
  ∃ ps go ls l s₀ u tr₀ tr es, Programmed p ps ∧ go.Sets Ctrl.start ∧ ¬ go.Sets Ctrl.reset ∧
    (∀ l ∈ ls, l.Polite) ∧ l.Polite ∧ system.run s (ps ++ [.bar0 go]) = some (s₀, tr₀) ∧
    system.run s₀ ls = some (u, tr) ∧ (∀ ok, .jobEnded ok ∉ tr) ∧
    system.step u l = some (s', es) ∧ .jobEnded ok ∈ es

/-- Uses of the endpoint one after the other, and how each ended. -/
def Rounds : List Params → Attached → List Bool → Attached → Prop
  | [], s, oks, s' => oks = [] ∧ s' = s
  | p :: ps, s, oks, s' => ∃ u ok oks', oks = ok :: oks' ∧ Round p s ok u ∧ Rounds ps u oks' s'

/-- One round is one step of the accelerator. -/
theorem round_refines (p : Params) (s s' : Attached) (ok : Bool) (hready : Ready s.device)
    (h : Round p s ok s') :
    s'.memory = accelerate s.memory p ∧ ok = decide (Fits p s.memory) ∧ Ready s'.device := by
  rcases h with ⟨ps, go, ls, l, s₀, u, tr₀, tr, es, hps, hgo, hreset, hls, hl, hprog, hrun, hnot,
    hstep, hend⟩
  have hstart := underway_start p s s₀ ps go tr₀ hready.parked hready.idle hps hgo hreset
    hprog
  have hu := underway_run p s.memory s₀ u [] ls [] tr hstart hls hrun hnot
  rcases underway_step p s.memory u s' _ l _ es hu hl hstep with hu' | ⟨ok', hends⟩
  · exact absurd (List.mem_append_right _ hend) (hu'.notEnded ok)
  · have hok := hends.only ok hend
    unfold accelerate
    by_cases hf : Fits p s.memory
    · rcases hends.outcome.done hf with ⟨htrue, hstatus, -, hmul⟩
      rw [if_pos hf, decide_eq_true hf, hok, htrue]
      refine ⟨multiplied_unique _ _ _ _ s.memory _ _ (hf.2 .c)
        (multiplied_image _ _ _ _ _ (hf.2 .c)) hmul, rfl, hends.parked, ?_⟩
      rw [hstatus]
      decide
    · rcases hends.outcome.failed hf with ⟨hfalse, hstatus, hmem⟩
      rw [if_neg hf, decide_eq_false hf, hok, hfalse]
      refine ⟨hmem, rfl, hends.parked, ?_⟩
      rw [hstatus]
      decide

/-- Any transactions can be made. -/
theorem bar0_run (s : Attached) (ts : List Payload) :
    ∃ s' tr, system.run s (ts.map .bar0) = some (s', tr) := by
  induction ts generalizing s with
  | nil => exact ⟨s, [], rfl⟩
  | cons t ts ih =>
      have hstep := system_step s (.bar0 t) _ _
        (rfl : machine.step s.device (.bar0 t) = some (_, _))
      rcases ih _ with ⟨s', tr, hrun⟩
      exact ⟨s', _, (system.run_cons_iff s _ _ s' _).mpr ⟨_, _, tr, hstep, hrun, rfl⟩⟩

/-- A ready endpoint can be taken through a round. -/
theorem round_exists (p : Params) (s : Attached) (hready : Ready s.device) :
    ∃ ok s', Round p s ok s' := by
  have hps := wholeProgram_programmed p
  have hgo : (Payload.write32 Register.control.offset Ctrl.start).Sets Ctrl.start := by decide
  have hreset : ¬ (Payload.write32 Register.control.offset Ctrl.start).Sets Ctrl.reset := by
    decide
  rcases bar0_run s (wholeProgram p ++ [.write32 Register.control.offset Ctrl.start]) with
    ⟨s₀, tr₀, hprog⟩
  rw [List.map_append] at hprog
  have hstart := underway_start p s s₀ _ _ tr₀ hready.parked hready.idle hps hgo hreset hprog
  rcases underway_ends p s.memory (p.dimN.toNat + 4) s₀ [] [] hstart (Nat.le_add_left _ _) with
    ⟨ls, t, tr, ok, hquiet, hrun, hend⟩
  rcases first_end s₀ t ls tr ok hquiet hrun hend with
    ⟨ls₁, l, u, v, tr₁, es, ok', ⟨hls₁, hl⟩, h₁, hno, hstep, he⟩
  exact ⟨ok', v, _, _, ls₁, l, s₀, u, tr₀, tr₁, es, hps, hgo, hreset, hls₁, hl, hprog, h₁, hno,
    hstep, he⟩

/-- The endpoint over any number of jobs, attached to a memory that accepts
    exactly the transactions inside it. From a state in which it is ready, any
    list of jobs can be run on it, and however that is done (with the parameters
    programmed in any order, under polite traffic, under any schedule) the
    memory ends up as the accelerator says, exactly the jobs whose parameters
    fit the memory they find succeed, and the endpoint is ready again. -/
theorem session_refines (s : Attached) (hready : Ready s.device) (ps : List Params) :
    (∃ oks s', Rounds ps s oks s') ∧
      ∀ oks s', Rounds ps s oks s' →
        s'.memory = ps.foldl accelerate s.memory ∧ oks = outcomes s.memory ps ∧
          Ready s'.device := by
  induction ps generalizing s with
  | nil =>
      refine ⟨⟨[], s, rfl, rfl⟩, ?_⟩
      rintro oks s' ⟨rfl, rfl⟩
      exact ⟨rfl, rfl, hready⟩
  | cons p ps ih =>
      constructor
      · rcases round_exists p s hready with ⟨ok, u, hround⟩
        rcases (ih u (round_refines p s u ok hready hround).2.2).1 with ⟨oks, s', hrest⟩
        exact ⟨ok :: oks, s', u, ok, oks, rfl, hround, hrest⟩
      · rintro oks s' ⟨u, ok, oks', rfl, hround, hrest⟩
        rcases round_refines p s u ok hready hround with ⟨hmem, hok, hready'⟩
        rcases (ih u hready').2 oks' s' hrest with ⟨hmem', hoks, hend⟩
        refine ⟨?_, ?_, hend⟩
        · rw [hmem', hmem, List.foldl_cons]
        · rw [hoks, hok, hmem, outcomes]

end

/-- A job that multiplies the result of `twoParams` with the same matrix B,
    in the place of matrix A. -/
def againParams : Params where
  dimN := 2
  ptr
    | .a => 32
    | .b => 16
    | .c => 0

/-- Two jobs of dimension two, the second on the result of the first. -/
theorem session_refines_two :
    ∃ oks s', @Rounds float32Arith [twoParams, againParams]
        { device := Device.initialized, memory := List.replicate 48 1 } oks s' ∧
      s'.memory = @accelerate float32Arith
        (@accelerate float32Arith (List.replicate 48 1) twoParams) againParams := by
  rcases @session_refines float32Arith
    { device := Device.initialized, memory := List.replicate 48 1 } ⟨⟨rfl, rfl⟩, by decide⟩
    [twoParams, againParams] with ⟨⟨oks, s', hrounds⟩, hall⟩
  exact ⟨oks, s', hrounds, (hall oks s' hrounds).1⟩

end PcieCosim
