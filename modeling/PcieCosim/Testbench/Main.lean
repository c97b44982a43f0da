import PcieCosim.Testbench.Completion

/-!
# The Program of the Testbench

`sc_main`: it writes two 4 by 4 matrices to `host_memory`, runs the simulation
to `sc_stop` and reads the result back.

## Main definitions

* `preload`: What the two `write_data` before the simulation do to the memory.
* `preloaded`: The memory they leave.

## Theorems

* `preload_some`: The matrices fit into the memory.
* `loadWord_preloaded`: They are where the test expects them.
* `sc_main_product`: What `sc_main` reads back is their product.
-/

namespace PcieCosim

open Bytes Kernel Transition

/-- The memory after the two `write_data` of `sc_main`. -/
def preload (a b : FloatMatrix 4) : Option (List Byte) :=
  match writeData hostMemory 0x1000 (storeWords a.words) with
  | none => none
  | some mem => writeData mem 0x2000 (storeWords b.words)

theorem length_image (a : FloatMatrix 4) : (storeWords a.words).length = 64 := by
  rw [length_storeWords, a.size]

/-- A copy inside the memory passes the guard. -/
theorem guardedCopy_inside (mem : List Byte) (addr : BitVec 64) (len : Nat)
    (copied kept : List Byte) (hmem : mem.length < 2 ^ 64) (h : Inside mem addr len) :
    guardedCopy mem addr len copied kept = some copied := by
  have hle : addr.toNat + len ≤ mem.length := h
  rw [guardedCopy, if_pos ((guard_iff mem addr len (by omega)).mpr (Or.inl h)), if_pos h]

/-- The memory with both matrices in it. -/
def preloaded (a b : FloatMatrix 4) : List Byte :=
  splice (splice hostMemory 0x1000 (storeWords a.words)) 0x2000 (storeWords b.words)

theorem length_splice_hostMemory (a : FloatMatrix 4) :
    (splice hostMemory 0x1000 (storeWords a.words)).length = 0x1000000 := by
  rw [length_splice _ _ _ (by rw [length_image, length_hostMemory]; decide), length_hostMemory]

theorem length_preloaded (a b : FloatMatrix 4) : (preloaded a b).length = 0x1000000 := by
  rw [preloaded, length_splice _ _ _ (by rw [length_image, length_splice_hostMemory]; decide),
    length_splice_hostMemory]

theorem preload_some (a b : FloatMatrix 4) : preload a b = some (preloaded a b) := by
  have hfirst : writeData hostMemory 0x1000 (storeWords a.words) =
      some (splice hostMemory 0x1000 (storeWords a.words)) := by
    refine guardedCopy_inside _ _ _ _ _ (by rw [length_hostMemory]; decide) ?_
    unfold Inside
    rw [length_image, length_hostMemory]
    decide
  have hsecond : writeData (splice hostMemory 0x1000 (storeWords a.words)) 0x2000
      (storeWords b.words) = some (preloaded a b) := by
    refine guardedCopy_inside _ _ _ _ _ (by rw [length_splice_hostMemory]; decide) ?_
    unfold Inside
    rw [length_image, length_splice_hostMemory]
    decide
  rw [preload, hfirst]
  exact hsecond

/-- An element of a stored matrix. -/
theorem loadWord_image (a : FloatMatrix 4) (x : Nat) (hx : x < 16) :
    loadWord (storeWords a.words) (4 * x) = a.get x := by
  have hlt : x < a.words.length := by
    rw [a.size]
    exact hx
  rw [loadWord_storeWords _ _ hlt, FloatMatrix.get, List.getD_eq_getElem?_getD,
    List.getElem?_eq_getElem hlt, Option.getD_some]

/-- The elements of the two matrices in the memory. -/
theorem loadWord_preloaded (a b : FloatMatrix 4) (x : Nat) (hx : x < 16) :
    loadWord (preloaded a b) (0x1000 + 4 * x) = a.get x ∧
      loadWord (preloaded a b) (0x2000 + 4 * x) = b.get x := by
  have ha := length_image a
  have hb := length_image b
  constructor
  · rw [preloaded, loadWord_splice_outside _ _ _ (by rw [hb, length_splice_hostMemory]; decide) _
        (Or.inl (by omega)),
      loadWord_splice _ _ _ (by rw [ha, length_hostMemory]; decide) _ (by rw [ha]; omega),
      loadWord_image a x hx]
  · rw [preloaded, loadWord_splice _ _ _ (by rw [hb, length_splice_hostMemory]; decide) _
        (by rw [hb]; omega),
      loadWord_image b x hx]

/-- A cell of the product of the matrices in memory is the dot product of the
    matrices that were written. -/
theorem productCell_preloaded [FloatArith] (a b : FloatMatrix 4) (i j : Nat) (hi : i < 4)
    (hj : j < 4) : productCell (preloaded a b) 4 0x1000 0x2000 i j = dotProduct a b i j := by
  unfold productCell dotProduct
  refine List.foldl_ext _ _ _ (fun sum k hk => ?_)
  have hk' : k < 4 := List.mem_range.mp hk
  rw [(loadWord_preloaded a b _ (index_lt 4 i k hi hk')).1,
    (loadWord_preloaded a b _ (index_lt 4 k j hk' hj)).2]

/-- The program as a whole, for any two matrices: the simulation can be run to
    `sc_stop`, and whenever it has been, in whatever order its processes were
    dispatched, 540 ns have passed and `read_data` gives back the product. -/
theorem sc_main_product [FloatArith] (a b : FloatMatrix 4) (buffer : List Byte)
    (hbuffer : buffer.length = 64) :
    ∃ mem, preload a b = some mem ∧
      (∃ ls s tr, (testbench testParams).run (Bench.start mem) ls = some (s, tr) ∧
        s.driver.position = .stopped) ∧
      ∀ ls s tr, (testbench testParams).run (Bench.start mem) ls = some (s, tr) →
        s.driver.position = .stopped →
        s.now = 540 ∧ ∃ out, readData s.memory 0x3000 buffer = some out ∧
          ∀ i j, i < 4 → j < 4 → loadWord out (4 * (i * 4 + j)) = dotProduct a b i j := by
  have hlen := length_preloaded a b
  have hmem : (preloaded a b).length < 2 ^ 64 := by
    rw [hlen]
    decide
  have hfits := fits_testParams _ hlen
  refine ⟨preloaded a b, preload_some a b,
    stops_of_scene testParams _ hmem hfits _ (scene_start testParams _),
    fun ls s tr hrun hstop => ?_⟩
  rcases scene_run testParams _ ls s tr hrun with ⟨hscene, -⟩
  have hcleared := (cleared_of_stopped testParams _ s hscene hstop).2
  have hproduct := hcleared.product
  refine ⟨?_, slice s.memory 0x3000 64, ?_, fun i j hi hj => ?_⟩
  · rcases hcleared.driver with ⟨hpos, -⟩ | ⟨hpos, -⟩ | ⟨-, hnow⟩
    · exact absurd (hstop.symm.trans hpos) (by decide)
    · exact absurd (hstop.symm.trans hpos) (by decide)
    · exact hnow
  · have hsize : s.memory.length = 0x1000000 := hproduct.size.trans hlen
    rw [readData, hbuffer]
    refine guardedCopy_inside _ _ _ _ _ (by rw [hsize]; decide) ?_
    unfold Inside
    rw [hsize]
    decide
  · have hlt := index_lt 4 i j hi hj
    rw [loadWord_slice _ _ _ _ (by omega)]
    exact (hproduct.cells i j hi hj).trans (productCell_preloaded a b i j hi hj)

/-- The matrices of the source: the identity and a matrix of twos. -/
def matrixA : FloatMatrix 4 :=
  { words := (List.range 16).map (fun x => if x % 5 = 0 then 0x3F800000 else 0), size := rfl }

/-- See `matrixA`. -/
def matrixB : FloatMatrix 4 := { words := List.replicate 16 0x40000000, size := rfl }

theorem sc_main_identity :
    ∃ mem, preload matrixA matrixB = some mem ∧
      ∃ ls s tr, (@testbench float32Arith testParams).run (Bench.start mem) ls = some (s, tr) ∧
        s.driver.position = .stopped ∧ s.now = 540 := by
  rcases @sc_main_product float32Arith matrixA matrixB (List.replicate 64 0) rfl with
    ⟨mem, hmem, ⟨ls, s, tr, hrun, hstop⟩, hend⟩
  exact ⟨mem, hmem, ls, s, tr, hrun, hstop, (hend ls s tr hrun hstop).1⟩

end PcieCosim
