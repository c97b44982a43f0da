import Mathlib.Data.List.Induction

/-!
# Stores and the Last Value Given

A store of values, as it is after a history of operations, and the same thing
read off the history.

An operation gives values to some keys or clears everything. `contents` runs
the operations; `LastGiven` says of the history alone which value is the last
one a key was given, with no later write to it and no later clearing. The two
theorems make a store a matter of its history: a key holds the value it was
last given, and the cleared value where it was given none.

## Main definitions

* `Op`: An operation on a store.
* `apply`, `contents`: The effect of operations.
* `Op.Spares`: An operation that leaves a key alone.
* `LastGiven`: The value a history last gave a key.

## Theorems

* `contents_of_lastGiven`: A key holds the value it was last given.
* `contents_of_not_given`: Or the cleared value.
-/

namespace Store

variable {κ ν : Type*}

/-- Give values to some keys, or clear the store. -/
inductive Op (κ ν : Type*) where
  | write (f : κ → Option ν)
  | clear

/-- The effect of an operation, `z` being the cleared value. -/
def apply (z : ν) (s : κ → ν) : Op κ ν → κ → ν
  | .write f => fun k => (f k).getD (s k)
  | .clear => fun _ => z

theorem apply_write (z : ν) (s : κ → ν) (f : κ → Option ν) (k : κ) :
    apply z s (.write f) k = (f k).getD (s k) := rfl

/-- A store that was clear, after the operations. -/
def contents (z : ν) (ops : List (Op κ ν)) : κ → ν := ops.foldl (apply z) (fun _ => z)

/-- The operation neither writes the key nor clears it. -/
def Op.Spares (k : κ) : Op κ ν → Prop
  | .write f => f k = none
  | .clear => False

/-- The history gave the key the value, and nothing touched the key since. -/
def LastGiven (k : κ) (ops : List (Op κ ν)) (v : ν) : Prop :=
  ∃ pre f post, ops = pre ++ .write f :: post ∧ f k = some v ∧ ∀ op ∈ post, op.Spares k

theorem contents_concat (z : ν) (ops : List (Op κ ν)) (op : Op κ ν) :
    contents z (ops ++ [op]) = apply z (contents z ops) op := by
  rw [contents, List.foldl_append, contents]
  rfl

/-- Operations that spare a key leave its value. -/
theorem contents_append_of_spares (z : ν) (k : κ) (ops post : List (Op κ ν))
    (h : ∀ op ∈ post, op.Spares k) : contents z (ops ++ post) k = contents z ops k := by
  induction post using List.reverseRecOn with
  | nil => rw [List.append_nil]
  | append_singleton post op ih =>
      have hop := h op (List.mem_append_right post List.mem_cons_self)
      rw [← List.append_assoc, contents_concat,
        ← ih (fun op' hop' => h op' (List.mem_append_left [op] hop'))]
      cases op with
      | write f =>
          have hf : f k = none := hop
          rw [apply_write, hf, Option.getD_none]
      | clear => exact absurd hop id

theorem contents_of_lastGiven (z : ν) (k : κ) (ops : List (Op κ ν)) (v : ν)
    (h : LastGiven k ops v) : contents z ops k = v := by
  rcases h with ⟨pre, f, post, rfl, hf, hpost⟩
  have hsplit : pre ++ .write f :: post = (pre ++ [.write f]) ++ post := by
    rw [List.append_assoc, List.singleton_append]
  rw [hsplit, contents_append_of_spares z k _ post hpost, contents_concat, apply_write, hf,
    Option.getD_some]

theorem contents_of_not_given (z : ν) (k : κ) (ops : List (Op κ ν))
    (h : ∀ v, ¬ LastGiven k ops v) : contents z ops k = z := by
  induction ops using List.reverseRecOn with
  | nil => rfl
  | append_singleton ops op ih =>
      rw [contents_concat]
      cases op with
      | clear => rfl
      | write f =>
          -- The last operation gave nothing, so what was given last stays so.
          have hnone : f k = none := by
            rcases hf : f k with _ | v
            · rfl
            · exact absurd ⟨ops, f, [], rfl, hf, fun op hop => absurd hop List.not_mem_nil⟩ (h v)
          rw [apply_write, hnone, Option.getD_none]
          refine ih (fun v hv => h v ?_)
          rcases hv with ⟨pre, g, post, rfl, hg, hpost⟩
          refine ⟨pre, g, post ++ [.write f], by rw [List.append_assoc, List.cons_append], hg, ?_⟩
          intro op hop
          rcases List.mem_append.mp hop with hop | hop
          · exact hpost op hop
          · rw [List.mem_singleton.mp hop]
            exact hnone

end Store
