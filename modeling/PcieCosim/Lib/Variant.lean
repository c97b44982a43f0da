import PcieCosim.Lib.Transition

/-!
# Variants: Bounded Runs and Reaching a Goal

A variant is a natural number that the steps of a machine decrease.

Where every step decreases it, no run is longer than the variant of its first
state, whatever steps are chosen. Where some step decreases it or reaches a
goal, the goal can be reached. Both are asked of the states of an invariant
only, which the steps in question keep.

## Theorems

* `run_length_le`: A variant bounds the length of every run.
* `reaches_of_variant`: A goal that some step always comes closer to can be
  reached.
-/

namespace Transition

namespace Machine

variable {σ ℓ ε : Type*} (M : Machine σ ℓ ε)

/-- A variant that every step decreases bounds the length of every run. -/
theorem run_length_le (I : σ → Prop) (variant : σ → Nat)
    (hstep : ∀ s l s' es, I s → M.step s l = some (s', es) → I s' ∧ variant s' < variant s)
    (s : σ) (h0 : I s) (ls : List ℓ) (t : σ) (tr : List ε)
    (hrun : M.run s ls = some (t, tr)) : ls.length + variant t ≤ variant s := by
  induction ls generalizing s tr with
  | nil =>
      simp only [run, Option.some.injEq, Prod.mk.injEq] at hrun
      exact Nat.le_of_eq (by rw [hrun.1, List.length_nil, Nat.zero_add])
  | cons l ls ih =>
      rcases (M.run_cons_iff s l ls t tr).mp hrun with ⟨s', es, tr', hs, hrest, -⟩
      rcases hstep s l s' es h0 hs with ⟨hI, hlt⟩
      have hle := ih s' hI tr' hrest
      rw [List.length_cons]
      omega

/-- A goal can be reached if from every other state of the invariant some step
    reaches it or decreases the variant. -/
theorem reaches_of_variant (I goal : σ → Prop) (variant : σ → Nat)
    (hstep : ∀ s, I s → ¬ goal s → ∃ l s' es, M.step s l = some (s', es) ∧ I s' ∧
      (goal s' ∨ variant s' < variant s))
    (s : σ) (h0 : I s) : ∃ ls t tr, M.run s ls = some (t, tr) ∧ I t ∧ goal t := by
  induction hn : variant s using Nat.strongRecOn generalizing s with
  | ind n ih =>
      by_cases hgoal : goal s
      · exact ⟨[], s, [], rfl, h0, hgoal⟩
      · rcases hstep s h0 hgoal with ⟨l, s', es, hs, hI, hnext⟩
        by_cases hgoal' : goal s'
        · exact ⟨[l], s', es, (M.run_singleton_iff s l s' es).mpr hs, hI, hgoal'⟩
        · have hlt : variant s' < n := by
            rw [← hn]
            exact hnext.resolve_left hgoal'
          rcases ih (variant s') hlt s' hI rfl with ⟨ls, t, tr, hrun, hIt, hgt⟩
          exact ⟨l :: ls, t, es ++ tr,
            (M.run_cons_iff s l ls t _).mpr ⟨s', es, tr, hs, hrun, rfl⟩, hIt, hgt⟩

end Machine

end Transition
