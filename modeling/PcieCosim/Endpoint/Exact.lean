import Mathlib.Tactic.IntervalCases
import PcieCosim.Endpoint.Sessions
import PcieCosim.Lib.Binary32

/-!
# Exact Products

The endpoint on single-precision arithmetic, for matrices of integers.

The loops of the product round after every multiplication and every addition.
For integers none of these roundings does anything as long as the absolute
terms of each dot product add up to at most `2 ^ 24`, so a job leaves exactly
the integer product in memory, each cell as the conversion of the integer to
`float`. Inputs may be either zero; a zero in the result is the positive one.

## Main definitions

* `binary32Arith`: Single-precision arithmetic.
* `HoldsIntegers`: A matrix of integers in memory.

## Theorems

* `productCell_exact`: A cell of the product of integer matrices.
* `job_exact`: What a job leaves of integer matrices.
-/

namespace PcieCosim

open Bytes Kernel Transition

/-- Single-precision arithmetic, rounding to nearest with ties to even. -/
@[reducible]
def binary32Arith : FloatArith where
  add := Binary32.add
  mul := Binary32.mul

/-- The memory holds at `addr` the `n` by `n` matrix of the integers `f`. -/
def HoldsIntegers (mem : List Byte) (n addr : Nat) (f : Nat → Nat → Int) : Prop :=
  ∀ i j, i < n → j < n → Binary32.Represents (loadWord mem (addr + 4 * (i * n + j))) (f i j)

/-- The absolute terms of every dot product of two matrices add up to at most
    `2 ^ 24`. -/
def SmallProducts (n : Nat) (f g : Nat → Nat → Int) : Prop :=
  ∀ i j, i < n → j < n → ∑ k ∈ Finset.range n, (f i k * g k j).natAbs ≤ 2 ^ 24

theorem productCell_exact (mem : List Byte) (n a b : Nat) (f g : Nat → Nat → Int)
    (ha : HoldsIntegers mem n a f) (hb : HoldsIntegers mem n b g) (hsmall : SmallProducts n f g)
    (i j : Nat) (hi : i < n) (hj : j < n) :
    @productCell binary32Arith mem n a b i j =
      Binary32.ofInt (∑ k ∈ Finset.range n, f i k * g k j) :=
  Binary32.dot_exact (fun k => loadWord mem (a + 4 * (i * n + k)))
    (fun k => loadWord mem (b + 4 * (k * n + j))) (f i) (fun k => g k j) n
    (fun k hk => ha i k hi hk) (fun k hk => hb k j hk hj) (hsmall i j hi hj)

/-- A job on matrices of integers, end to end. The endpoint is attached to a
    memory that holds two of them, its compute thread is parked and STATUS has
    IDLE; the host programs fitting parameters in any order, writes START and
    is polite from then on. Then, whatever the schedule, the step that ends the
    job ends it with success and leaves the integer product at C. -/
theorem job_exact (d : Device) (mem : List Byte) (p : Params) (f g : Nat → Nat → Int)
    (hparked : Parked d) (hidle : Has d.regs.regStatus Status.idle) (hfits : Fits p mem)
    (ha : HoldsIntegers mem p.dimN.toNat (p.ptr .a).toNat f)
    (hb : HoldsIntegers mem p.dimN.toNat (p.ptr .b).toNat g)
    (hsmall : SmallProducts p.dimN.toNat f g) (ps : List (Label Unit))
    (hps : Programmed p ps) (go : Payload) (hgo : go.Sets Ctrl.start)
    (hreset : ¬ go.Sets Ctrl.reset) (ls : List (Label Unit)) (hls : ∀ l ∈ ls, l.Polite)
    (s₀ s s' : Attached) (tr₀ tr es : List Event) (l : Label Unit) (ok : Bool)
    (hprog : (@system binary32Arith).run { device := d, memory := mem } (ps ++ [.bar0 go]) =
      some (s₀, tr₀))
    (hrun : (@system binary32Arith).run s₀ ls = some (s, tr)) (hnot : ∀ ok, .jobEnded ok ∉ tr)
    (hl : l.Polite) (hstep : (@system binary32Arith).step s l = some (s', es))
    (hend : .jobEnded ok ∈ es) :
    ok = true ∧ ∀ i j, i < p.dimN.toNat → j < p.dimN.toNat →
      loadWord s'.memory ((p.ptr .c).toNat + 4 * (i * p.dimN.toNat + j)) =
        Binary32.ofInt (∑ k ∈ Finset.range p.dimN.toNat, f i k * g k j) := by
  let _ := binary32Arith
  have hstart := underway_start p _ s₀ ps go tr₀ hparked hidle hps hgo hreset hprog
  have hu := underway_run p mem s₀ s [] ls [] tr hstart hls hrun hnot
  rcases underway_step p mem s s' _ l _ es hu hl hstep with hu' | ⟨ok', hends⟩
  · exact absurd (List.mem_append_right _ hend) (hu'.notEnded ok)
  · rw [hends.only ok hend]
    rcases hends.outcome.done hfits with ⟨hok, -, -, hmul⟩
    refine ⟨hok, fun i j hi hj => ?_⟩
    rw [hmul.cells i j hi hj]
    exact productCell_exact mem _ _ _ f g ha hb hsmall i j hi hj

/-- The matrices `[3, -5; 2, 1]` and `[1, 2; -4, 7]`. -/
def leftCells : Nat → Nat → Int
  | 0, 0 => 3
  | 0, _ => -5
  | _, 0 => 2
  | _, _ => 1

def rightCells : Nat → Nat → Int
  | 0, 0 => 1
  | 0, _ => 2
  | _, 0 => -4
  | _, _ => 7

/-- A memory with the two where a job of dimension two expects its operands. -/
def twoMatrices : List Byte :=
  ([3, -5, 2, 1, 1, 2, -4, 7].map (fun z => word32 (Binary32.ofInt z))).flatten ++
    List.replicate 16 0

theorem twoMatrices_left : HoldsIntegers twoMatrices 2 0 leftCells := by
  intro i j hi hj
  interval_cases i <;> interval_cases j <;> exact ⟨by decide, by decide⟩

theorem twoMatrices_right : HoldsIntegers twoMatrices 2 16 rightCells := by
  intro i j hi hj
  interval_cases i <;> interval_cases j <;> exact ⟨by decide, by decide⟩

theorem smallProducts_two : SmallProducts 2 leftCells rightCells := by
  intro i j hi hj
  interval_cases i <;> interval_cases j <;> decide

/-- A job of dimension two ends, and the first of the four cells it computes is
    `3 * 1 + -5 * -4 = 23`. -/
theorem job_exact_two :
    ∃ ok s', @Round binary32Arith twoParams
        { device := Device.initialized, memory := twoMatrices } ok s' ∧
      loadWord s'.memory 32 = Binary32.ofInt 23 := by
  let _ := binary32Arith
  have hidle : Has Device.initialized.regs.regStatus Status.idle := by decide
  rcases round_exists twoParams { device := Device.initialized, memory := twoMatrices }
    ⟨⟨rfl, rfl⟩, hidle⟩ with ⟨ok, s', hround⟩
  refine ⟨ok, s', hround, ?_⟩
  rcases hround with ⟨ps, go, ls, l, s₀, s, tr₀, tr, es, hps, hgo, hreset, hls, hl, hprog, hrun,
    hnot, hstep, hend⟩
  exact (job_exact Device.initialized twoMatrices twoParams leftCells rightCells ⟨rfl, rfl⟩ hidle
    (by decide) twoMatrices_left twoMatrices_right smallProducts_two ps hps go hgo hreset ls hls
    s₀ s s' tr₀ tr es l ok hprog hrun hnot hl hstep hend).2 0 0 (by decide) (by decide)

end PcieCosim
