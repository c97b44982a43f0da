import PcieCosim.Endpoint.Machine

/-!
# The Product a Job Computes

The triple loop of `perform_matrix_multiply`, from the bytes it reads to the
bytes it writes.

The loop works on flattened arrays, one row between two waits. `rowsDone` is
the result array after some rows; each row is a loop of assignments to
consecutive cells, so `get_rowsDone` gives every cell at once: the dot product
in the rows done, and the initial zero in the others.

`Multiplied` is what a host expects of its memory afterwards, without the
arrays: each cell of C is the sum over `k`, in the order of the loop, of the
products of words of A and B as they were before, and no byte outside C has
changed. The ranges may overlap.

## Main definitions

* `rowsDone`: The result array after some rows.
* `operand`: The array a DMA read of an operand fills.
* `productCell`: One cell of the product of two matrices in memory.
* `Multiplied`: A memory that holds the product of the matrices of another.

## Theorems

* `get_set`: Assigning one cell.
* `get_assign`: Assigning consecutive cells.
* `get_rowsDone`: The cells after some rows.
* `get_operand`: A cell of an operand is a word of the memory.
* `dotProduct_operand`: A dot product of operands is a cell of the product.
* `multiplied_splice`: Writing the finished array gives the product.
-/

namespace PcieCosim

open Bytes

theorem get_set {n : Nat} (x : FloatMatrix n) (i p : Nat) (v : Word) (hi : i < n * n) :
    (x.set i v).get p = if p = i then v else x.get p := by
  simp only [FloatMatrix.get, FloatMatrix.set, List.getD_eq_getElem?_getD, List.getElem?_set]
  by_cases hp : p = i
  · rw [if_pos hp, if_pos hp.symm, if_pos (by rw [x.size, ← hp]; omega), Option.getD_some]
  · rw [if_neg hp, if_neg (fun h => hp h.symm)]

/-- Assigning `k` consecutive cells. -/
theorem get_assign {n : Nat} (x : FloatMatrix n) (base k : Nat) (v : Nat → Word)
    (hk : base + k ≤ n * n) (p : Nat) :
    ((List.range k).foldl (fun c j => c.set (base + j) (v j)) x).get p =
      if base ≤ p ∧ p < base + k then v (p - base) else x.get p := by
  induction k with
  | zero => rw [List.range_zero, List.foldl_nil, if_neg (by omega)]
  | succ k ih =>
      rw [List.range_succ, List.foldl_append, List.foldl_cons, List.foldl_nil,
        get_set _ _ _ _ (by omega), ih (by omega)]
      -- The last assignment decides its own cell and no other.
      by_cases hp : p = base + k
      · rw [if_pos hp, if_pos (by omega), hp, Nat.add_sub_cancel_left]
      · rw [if_neg hp]
        by_cases hin : base ≤ p ∧ p < base + k
        · rw [if_pos hin, if_pos (by omega)]
        · rw [if_neg hin, if_neg (by omega)]

section

variable [FloatArith] {n : Nat}

/-- The result array after the first `k` rows. -/
def rowsDone (a b : FloatMatrix n) (k : Nat) : FloatMatrix n :=
  (List.range k).foldl (computeRow a b) (.zero n)

theorem rowsDone_succ (a b : FloatMatrix n) (k : Nat) :
    rowsDone a b (k + 1) = computeRow a b (rowsDone a b k) k := by
  rw [rowsDone, List.range_succ, List.foldl_append, List.foldl_cons, List.foldl_nil, rowsDone]

/-- The cells of the rows done are dot products. -/
theorem get_rowsDone (a b : FloatMatrix n) (k : Nat) (hk : k ≤ n) (i j : Nat) (hi : i < k)
    (hj : j < n) : (rowsDone a b k).get (i * n + j) = dotProduct a b i j := by
  induction k with
  | zero => exact absurd hi (Nat.not_lt_zero i)
  | succ k ih =>
      have hrow : k * n + n ≤ n * n := by
        rw [← Nat.succ_mul]
        exact Nat.mul_le_mul_right n hk
      rw [rowsDone_succ, computeRow, get_assign _ (k * n) n _ hrow]
      rcases Nat.lt_or_eq_of_le (Nat.le_of_lt_succ hi) with hlt | rfl
      · -- An earlier row ends before row `k` begins.
        have hend : i * n + n ≤ k * n := by
          rw [← Nat.succ_mul]
          exact Nat.mul_le_mul_right n hlt
        rw [if_neg (by omega)]
        exact ih (by omega) hlt
      · rw [if_pos (by omega), Nat.add_sub_cancel_left]

/-- One cell of the product of the `n` by `n` matrices at `a` and `b`. -/
def productCell (mem : List Byte) (n a b i j : Nat) : Word :=
  (List.range n).foldl (fun sum k =>
    FloatArith.add sum (FloatArith.mul (loadWord mem (a + 4 * (i * n + k)))
      (loadWord mem (b + 4 * (k * n + j))))) 0

/-- The memory `mem'` is `mem` with the product of the matrices at `a` and `b`
    stored at `c`. -/
structure Multiplied (n a b c : Nat) (mem mem' : List Byte) : Prop where
  cells : ∀ i j, i < n → j < n →
    loadWord mem' (c + 4 * (i * n + j)) = productCell mem n a b i j
  frame : ∀ p, p < c ∨ c + 4 * n * n ≤ p → mem'[p]? = mem[p]?
  size : mem'.length = mem.length

end

/-- The array a DMA read of `n` by `n` floats at `addr` fills. -/
def operand (mem : List Byte) (n addr : Nat) : FloatMatrix n :=
  .ofBuffer n (slice mem addr (4 * n * n))

/-- A cell inside the array is one of its cells. -/
theorem index_lt (n i j : Nat) (hi : i < n) (hj : j < n) : i * n + j < n * n := by
  have hrow : i * n + n ≤ n * n := by
    rw [← Nat.succ_mul]
    exact Nat.mul_le_mul_right n hi
  omega

theorem get_operand (mem : List Byte) (n addr i j : Nat) (hi : i < n) (hj : j < n) :
    (operand mem n addr).get (i * n + j) = loadWord mem (addr + 4 * (i * n + j)) := by
  have hlt := index_lt n i j hi hj
  have hcell : 4 * (i * n + j) + 4 ≤ 4 * n * n := by
    rw [Nat.mul_assoc]
    omega
  simp only [operand, FloatMatrix.get, FloatMatrix.ofBuffer, List.getD_eq_getElem?_getD,
    List.getElem?_map, List.getElem?_range hlt, Option.map_some, Option.getD_some]
  exact loadWord_slice mem addr (4 * n * n) _ hcell

variable [FloatArith]

theorem dotProduct_operand (mem : List Byte) (n a b i j : Nat) (hi : i < n) (hj : j < n) :
    dotProduct (operand mem n a) (operand mem n b) i j = productCell mem n a b i j := by
  unfold dotProduct productCell
  refine List.foldl_ext _ _ _ (fun sum k hk => ?_)
  have hk' : k < n := List.mem_range.mp hk
  rw [get_operand mem n a i k hi hk', get_operand mem n b k j hk' hj]

/-- The finished array. -/
def productOf (mem : List Byte) (n a b : Nat) : FloatMatrix n :=
  rowsDone (operand mem n a) (operand mem n b) n

theorem multiplied_splice (mem : List Byte) (n a b c : Nat) (h : c + 4 * n * n ≤ mem.length) :
    Multiplied n a b c mem (splice mem c (storeWords (productOf mem n a b).words)) := by
  have hlen : (storeWords (productOf mem n a b).words).length = 4 * n * n := by
    rw [length_storeWords, (productOf mem n a b).size, Nat.mul_assoc]
  refine ⟨fun i j hi hj => ?_, fun p hp => ?_, ?_⟩
  · have hlt := index_lt n i j hi hj
    have hcell : 4 * (i * n + j) + 4 ≤ 4 * n * n := by
      rw [Nat.mul_assoc]
      omega
    -- From the memory to the array, from the array to the row that set it.
    have hsize : i * n + j < (productOf mem n a b).words.length := by
      rw [(productOf mem n a b).size]
      exact hlt
    rw [loadWord_splice mem c _ (by rw [hlen]; exact h) _ (by rw [hlen]; exact hcell),
      loadWord_storeWords _ _ hsize, ← dotProduct_operand mem n a b i j hi hj,
      ← get_rowsDone _ _ n (Nat.le_refl n) i j hi hj]
    change _ = (productOf mem n a b).words.getD (i * n + j) 0
    rw [List.getD_eq_getElem?_getD, List.getElem?_eq_getElem hsize, Option.getD_some]
  · exact getElem?_splice_of_not_mem mem c _ (by rw [hlen]; exact h) p (by rw [hlen]; exact hp)
  · exact length_splice mem c _ (by rw [hlen]; exact h)

end PcieCosim
