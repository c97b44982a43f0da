import Mathlib.Data.List.Basic

/-!
# Labelled Machines and Their Runs

A machine that takes labelled steps and emits events, and the induction
principles its runs support.

The step function is partial and, given its label, deterministic: everything
the environment chooses (which process is dispatched, what a peer answers) is
in the label. A run is therefore a list of labels, its outcome is a state and
the trace of events emitted on the way, and both compute. Nondeterminism comes
back as a quantifier over label lists.

Two predicates follow a run. `Along` asks a condition of every step, given the
state before it and its label; it is how a hypothesis on the traffic is
phrased. `Throughout` asks a condition of every state passed through.
`throughout_iff_along` is the exchange between them: where each step keeps an
invariant exactly when it meets a condition, whole runs do too.

`run_history` is the induction most results use. It carries a relation between
the current state and the trace so far, which is what a property of histories
needs and what an invariant on states alone cannot express.

## Main definitions

* `Machine`: A partial labelled step function emitting events.
* `Machine.run`: Taking a list of steps.
* `Machine.Reachable`: Being the outcome of some run.
* `Machine.Along`: A condition on every step of a run.
* `Machine.Throughout`: A condition on every state of a run.

## Theorems

* `append_eq_append_cons`, `append_eq_split`, `concat_eq_split`: Where an event
  of an extended trace is.
* `nil_ne_split`: The empty trace has no event.
* `run_cons_iff`: A run peels off its first step.
* `run_append_iff`: A run splits at any point.
* `run_append`: Two runs that meet compose.
* `run_first`: The first step that shows an event of a kind.
* `along_cons_iff_of_step`: A condition along a run peels off its first step.
* `along_mono`: Weakening the condition asked of each step.
* `along_and_iff`: Two conditions along a run are their conjunction along it.
* `along_of_forall_mem`: A condition on the labels alone holds along any run.
* `along_congr`, `along_iff_of_kept`: Conditions that agree under an invariant
  agree along a run.
* `run_relation`: Induction on a run, relating the state to the steps and the
  trace.
* `run_history`, `run_trace`: Induction on a run, relating the state to the
  trace.
* `history_iff_along`: A property of traces, exchanged for a condition on
  steps.
* `run_invariant`: Induction on a run for a property of states.
* `throughout_mono`: Weakening the condition asked of each state.
* `throughout_of_along`: An invariant kept by the steps holds throughout.
* `throughout_iff_along`: The same, exactly.
-/

namespace Transition

/-- An event of an extended trace is in the trace or in the extension. -/
theorem append_eq_append_cons {α : Type*} (tr es pre post : List α) (e : α)
    (h : tr ++ es = pre ++ e :: post) :
    (∃ post', tr = pre ++ e :: post' ∧ post = post' ++ es) ∨
      ∃ pre', pre = tr ++ pre' ∧ es = pre' ++ e :: post := by
  rcases List.append_eq_append_iff.mp h with ⟨as, hpre, hes⟩ | ⟨bs, htr, hpost⟩
  · exact Or.inr ⟨as, hpre, hes⟩
  · cases bs with
    | nil =>
        rw [List.append_nil] at htr
        exact Or.inr ⟨[], by rw [htr, List.append_nil], hpost.symm⟩
    | cons b bs =>
        rw [List.cons_append, List.cons.injEq] at hpost
        rcases hpost with ⟨rfl, rfl⟩
        exact Or.inl ⟨bs, htr, rfl⟩

theorem append_eq_split {α : Type*} (tr es pre post : List α) (e : α)
    (h : tr ++ es = pre ++ e :: post) :
    (∃ post', tr = pre ++ e :: post' ∧ post = post' ++ es) ∨ e ∈ es := by
  refine (append_eq_append_cons tr es pre post e h).imp id ?_
  rintro ⟨pre', -, rfl⟩
  exact List.mem_append_right _ List.mem_cons_self

/-- The event is in the trace, or it is the one added. -/
theorem concat_eq_split {α : Type*} (tr pre post : List α) (x e : α)
    (h : tr ++ [x] = pre ++ e :: post) :
    (∃ post', tr = pre ++ e :: post' ∧ post = post' ++ [x]) ∨
      (pre = tr ∧ e = x ∧ post = []) := by
  refine (append_eq_append_cons tr [x] pre post e h).imp id ?_
  rintro ⟨pre', hpre, hx⟩
  rcases List.append_eq_singleton_iff.mp hx.symm with ⟨rfl, hcons⟩ | ⟨-, hnil⟩
  · rw [List.cons.injEq] at hcons
    exact ⟨by rw [hpre, List.append_nil], hcons.1, hcons.2⟩
  · exact nomatch hnil

/-- The empty trace has no event to split at. -/
theorem nil_ne_split {α : Type*} (pre post : List α) (e : α) : [] ≠ pre ++ e :: post :=
  (List.append_ne_nil_of_right_ne_nil pre (List.cons_ne_nil e post)).symm

/-- A machine taking labelled steps. `none` is a step that is not enabled. -/
structure Machine (σ ℓ ε : Type*) where
  step : σ → ℓ → Option (σ × List ε)

namespace Machine

variable {σ ℓ ε : Type*} (M : Machine σ ℓ ε)

/-- Take the listed steps in order, collecting the events. -/
def run : σ → List ℓ → Option (σ × List ε)
  | s, [] => some (s, [])
  | s, l :: ls => match M.step s l with
    | none => none
    | some (s', es) => match run s' ls with
      | none => none
      | some (t, tr) => some (t, es ++ tr)

/-- Some run leads from `s₀` to `s`. -/
def Reachable (s₀ s : σ) : Prop :=
  ∃ ls tr, M.run s₀ ls = some (s, tr)

/-- Every step of the run meets the condition, in the state before it. -/
def Along (P : σ → ℓ → Prop) : σ → List ℓ → Prop
  | _, [] => True
  | s, l :: ls => P s l ∧ ∀ s' es, M.step s l = some (s', es) → Along P s' ls

theorem along_cons_iff_of_step (P : σ → ℓ → Prop) (s s' : σ) (l : ℓ) (ls : List ℓ)
    (es : List ε) (hs : M.step s l = some (s', es)) :
    M.Along P s (l :: ls) ↔ P s l ∧ M.Along P s' ls := by
  simp only [Along, hs, Option.some.injEq, Prod.mk.injEq]
  constructor
  · rintro ⟨hP, hal⟩
    exact ⟨hP, hal s' es ⟨rfl, rfl⟩⟩
  · rintro ⟨hP, hal⟩
    refine ⟨hP, ?_⟩
    rintro _ _ ⟨rfl, rfl⟩
    exact hal

/-- A decidable condition is decidable along a run: the run is followed. -/
instance decidableAlong (P : σ → ℓ → Prop) [∀ s l, Decidable (P s l)] :
    (s : σ) → (ls : List ℓ) → Decidable (M.Along P s ls)
  | _, [] => isTrue trivial
  | s, l :: ls =>
      match hs : M.step s l with
      | none =>
          decidable_of_iff (P s l) ⟨fun h => ⟨h, fun _ _ h' => nomatch hs.symm.trans h'⟩, And.left⟩
      | some (s', es) =>
          have := decidableAlong P s' ls
          decidable_of_iff _ (M.along_cons_iff_of_step P s s' l ls es hs).symm

/-- Every state of the run meets the condition, both ends included. -/
def Throughout (I : σ → Prop) : σ → List ℓ → Prop
  | s, [] => I s
  | s, l :: ls => I s ∧ ∀ s' es, M.step s l = some (s', es) → Throughout I s' ls

theorem run_cons_iff (s : σ) (l : ℓ) (ls : List ℓ) (t : σ) (tr : List ε) :
    M.run s (l :: ls) = some (t, tr) ↔
      ∃ s' es tr', M.step s l = some (s', es) ∧ M.run s' ls = some (t, tr') ∧
        tr = es ++ tr' := by
  constructor
  · intro h
    simp only [run] at h
    rcases hstep : M.step s l with _ | ⟨s', es⟩
    · rw [hstep] at h
      exact absurd h (by simp only [reduceCtorEq, not_false_eq_true])
    · rcases hrest : M.run s' ls with _ | ⟨t', tr'⟩
      · rw [hstep] at h
        simp only [hrest, reduceCtorEq] at h
      · rw [hstep] at h
        simp only [hrest, Option.some.injEq, Prod.mk.injEq] at h
        rcases h with ⟨rfl, rfl⟩
        exact ⟨s', es, tr', rfl, hrest, rfl⟩
  · rintro ⟨s', es, tr', hstep, hrest, rfl⟩
    simp only [run, hstep, hrest]

theorem run_singleton_iff (s : σ) (l : ℓ) (t : σ) (tr : List ε) :
    M.run s [l] = some (t, tr) ↔ M.step s l = some (t, tr) := by
  rw [run_cons_iff]
  constructor
  · rintro ⟨s', es, tr', hstep, hnil, rfl⟩
    simp only [run, Option.some.injEq, Prod.mk.injEq] at hnil
    rcases hnil with ⟨rfl, rfl⟩
    rw [hstep, List.append_nil]
  · intro hstep
    exact ⟨t, tr, [], hstep, rfl, (List.append_nil tr).symm⟩

theorem run_append_iff (s : σ) (ls ls' : List ℓ) (t : σ) (tr : List ε) :
    M.run s (ls ++ ls') = some (t, tr) ↔
      ∃ u tr₁ tr₂, M.run s ls = some (u, tr₁) ∧ M.run u ls' = some (t, tr₂) ∧
        tr = tr₁ ++ tr₂ := by
  induction ls generalizing s tr with
  | nil =>
      constructor
      · intro h
        exact ⟨s, [], tr, rfl, h, rfl⟩
      · rintro ⟨u, tr₁, tr₂, h₁, h₂, rfl⟩
        simp only [run, Option.some.injEq, Prod.mk.injEq] at h₁
        rcases h₁ with ⟨rfl, rfl⟩
        exact h₂
  | cons l ls ih =>
      rw [List.cons_append, run_cons_iff]
      constructor
      · rintro ⟨s', es, tr', hstep, hrest, rfl⟩
        rcases (ih s' tr').mp hrest with ⟨u, tr₁, tr₂, h₁, h₂, rfl⟩
        exact ⟨u, es ++ tr₁, tr₂, (M.run_cons_iff s l ls u _).mpr ⟨s', es, tr₁, hstep, h₁, rfl⟩,
          h₂, (List.append_assoc es tr₁ tr₂).symm⟩
      · rintro ⟨u, tr₁, tr₂, h₁, h₂, rfl⟩
        rcases (M.run_cons_iff s l ls u tr₁).mp h₁ with ⟨s', es, tr', hstep, hrest, rfl⟩
        exact ⟨s', es, tr' ++ tr₂, hstep, (ih s' _).mpr ⟨u, tr', tr₂, hrest, h₂, rfl⟩,
          List.append_assoc es tr' tr₂⟩

theorem run_append (s u t : σ) (ls ls' : List ℓ) (tr tr' : List ε)
    (h : M.run s ls = some (u, tr)) (h' : M.run u ls' = some (t, tr')) :
    M.run s (ls ++ ls') = some (t, tr ++ tr') :=
  (M.run_append_iff s ls ls' t _).mpr ⟨u, tr, tr', h, h', rfl⟩

/-- A run that shows an event of a kind has a first step that does. -/
theorem run_first (P : ε → Prop) (s t : σ) (ls : List ℓ) (tr : List ε)
    (hrun : M.run s ls = some (t, tr)) (h : ∃ e ∈ tr, P e) :
    ∃ ls₁ l ls₂ u tr₁ v es, ls = ls₁ ++ l :: ls₂ ∧ M.run s ls₁ = some (u, tr₁) ∧
      (∀ e ∈ tr₁, ¬ P e) ∧ M.step u l = some (v, es) ∧ ∃ e ∈ es, P e := by
  induction ls generalizing s tr with
  | nil =>
      simp only [run, Option.some.injEq, Prod.mk.injEq] at hrun
      rcases h with ⟨e, he, -⟩
      rw [← hrun.2] at he
      exact absurd he List.not_mem_nil
  | cons l ls ih =>
      rcases (M.run_cons_iff s l ls t tr).mp hrun with ⟨s', es, tr', hs, hrest, rfl⟩
      by_cases hes : ∃ e ∈ es, P e
      · exact ⟨[], l, ls, s, [], s', es, rfl, rfl, fun _ he => absurd he List.not_mem_nil, hs,
          hes⟩
      · have hlater : ∃ e ∈ tr', P e := by
          rcases h with ⟨e, he, hP⟩
          rcases List.mem_append.mp he with he | he
          · exact absurd ⟨e, he, hP⟩ hes
          · exact ⟨e, he, hP⟩
        rcases ih s' tr' hrest hlater with ⟨ls₁, l', ls₂, u, tr₁, v, es', rfl, h₁, hno, hv, hP⟩
        refine ⟨l :: ls₁, l', ls₂, u, es ++ tr₁, v, es', rfl,
          (M.run_cons_iff s l ls₁ u _).mpr ⟨s', es, tr₁, hs, h₁, rfl⟩, fun e he => ?_, hv, hP⟩
        rcases List.mem_append.mp he with he | he
        · exact fun hPe => hes ⟨e, he, hPe⟩
        · exact hno e he

theorem along_mono (P Q : σ → ℓ → Prop) (hPQ : ∀ s l, P s l → Q s l) (s : σ) (ls : List ℓ)
    (h : M.Along P s ls) : M.Along Q s ls := by
  induction ls generalizing s with
  | nil => exact trivial
  | cons l ls ih => exact ⟨hPQ s l h.1, fun s' es hstep => ih s' (h.2 s' es hstep)⟩

theorem along_and_iff (P Q : σ → ℓ → Prop) (s : σ) (ls : List ℓ) :
    M.Along (fun s l => P s l ∧ Q s l) s ls ↔ M.Along P s ls ∧ M.Along Q s ls := by
  constructor
  · intro h
    exact ⟨M.along_mono _ P (fun _ _ hpq => hpq.1) s ls h,
      M.along_mono _ Q (fun _ _ hpq => hpq.2) s ls h⟩
  · induction ls generalizing s with
    | nil => exact fun _ => trivial
    | cons l ls ih =>
        rintro ⟨⟨hP, hPs⟩, ⟨hQ, hQs⟩⟩
        exact ⟨⟨hP, hQ⟩, fun s' es hstep => ih s' ⟨hPs s' es hstep, hQs s' es hstep⟩⟩

theorem along_of_forall_mem (P : ℓ → Prop) (s : σ) (ls : List ℓ) (h : ∀ l ∈ ls, P l) :
    M.Along (fun _ l => P l) s ls := by
  induction ls generalizing s with
  | nil => exact trivial
  | cons l ls ih =>
      exact ⟨h l List.mem_cons_self,
        fun s' _ _ => ih s' (fun l' hl' => h l' (List.mem_cons_of_mem l hl'))⟩

/-- Induction on a run, relating the current state to the steps taken and the
    trace so far. The step hypothesis may use the condition the run meets
    along the way. -/
theorem run_relation (P : σ → ℓ → Prop) (J : σ → List ℓ → List ε → Prop)
    (hstep : ∀ s ls tr l s' es, J s ls tr → P s l → M.step s l = some (s', es) →
      J s' (ls ++ [l]) (tr ++ es))
    (s : σ) (ls₀ : List ℓ) (tr₀ : List ε) (h0 : J s ls₀ tr₀) (ls : List ℓ)
    (hal : M.Along P s ls) (t : σ) (tr : List ε) (hrun : M.run s ls = some (t, tr)) :
    J t (ls₀ ++ ls) (tr₀ ++ tr) := by
  induction ls generalizing s ls₀ tr₀ tr with
  | nil =>
      simp only [run, Option.some.injEq, Prod.mk.injEq] at hrun
      rcases hrun with ⟨rfl, rfl⟩
      rwa [List.append_nil, List.append_nil]
  | cons l ls ih =>
      rcases (M.run_cons_iff s l ls t tr).mp hrun with ⟨s', es, tr', hs, hrest, rfl⟩
      have h1 := hstep s ls₀ tr₀ l s' es h0 hal.1 hs
      have h2 := ih s' (ls₀ ++ [l]) (tr₀ ++ es) h1 (hal.2 s' es hs) tr' hrest
      rwa [List.append_assoc, List.append_assoc] at h2

/-- The same without the steps. -/
theorem run_history (P : σ → ℓ → Prop) (J : σ → List ε → Prop)
    (hstep : ∀ s tr l s' es, J s tr → P s l → M.step s l = some (s', es) → J s' (tr ++ es))
    (s : σ) (tr₀ : List ε) (h0 : J s tr₀) (ls : List ℓ) (hal : M.Along P s ls)
    (t : σ) (tr : List ε) (hrun : M.run s ls = some (t, tr)) : J t (tr₀ ++ tr) :=
  M.run_relation P (fun s _ tr => J s tr)
    (fun s _ tr l s' es h hP hs => hstep s tr l s' es h hP hs) s [] tr₀ h0 ls hal t tr hrun

/-- The same for every run, with nothing asked of its steps. -/
theorem run_trace (J : σ → List ε → Prop)
    (hstep : ∀ s tr l s' es, J s tr → M.step s l = some (s', es) → J s' (tr ++ es))
    (s : σ) (h0 : J s []) (ls : List ℓ) (t : σ) (tr : List ε)
    (hrun : M.run s ls = some (t, tr)) : J t tr :=
  M.run_history (fun _ _ => True) J (fun s tr l s' es h _ hs => hstep s tr l s' es h hs)
    s [] h0 ls (M.along_of_forall_mem (fun _ => True) s ls (fun _ _ => trivial)) t tr hrun

/-- A property of traces that each step extends exactly when it meets a
    condition holds of a run's trace exactly when all its steps meet it. The
    exchange may use a relation between state and trace that the steps keep,
    and a further condition that the run is known to meet. -/
theorem history_iff_along (Q P : σ → ℓ → Prop) (J : σ → List ε → Prop) (F : List ε → Prop)
    (hJ : ∀ s tr l s' es, J s tr → Q s l → M.step s l = some (s', es) → J s' (tr ++ es))
    (hF : ∀ s tr l s' es, J s tr → Q s l → M.step s l = some (s', es) →
      (F (tr ++ es) ↔ F tr ∧ P s l))
    (s : σ) (tr₀ : List ε) (h0 : J s tr₀) (ls : List ℓ) (hal : M.Along Q s ls)
    (t : σ) (tr : List ε) (hrun : M.run s ls = some (t, tr)) :
    F (tr₀ ++ tr) ↔ F tr₀ ∧ M.Along P s ls := by
  induction ls generalizing s tr₀ tr with
  | nil =>
      simp only [run, Option.some.injEq, Prod.mk.injEq] at hrun
      rcases hrun with ⟨rfl, rfl⟩
      rw [List.append_nil]
      exact ⟨fun h => ⟨h, trivial⟩, And.left⟩
  | cons l ls ih =>
      rcases (M.run_cons_iff s l ls t tr).mp hrun with ⟨s', es, tr', hs, hrest, rfl⟩
      have h1 := ih s' (tr₀ ++ es) (hJ s tr₀ l s' es h0 hal.1 hs) (hal.2 s' es hs) tr' hrest
      rw [← List.append_assoc, h1, hF s tr₀ l s' es h0 hal.1 hs, and_assoc,
        M.along_cons_iff_of_step P s s' l ls es hs]

/-- Induction on a run for a property of states. -/
theorem run_invariant (P : σ → ℓ → Prop) (I : σ → Prop)
    (hstep : ∀ s l s' es, I s → P s l → M.step s l = some (s', es) → I s')
    (s : σ) (h0 : I s) (ls : List ℓ) (hal : M.Along P s ls)
    (t : σ) (tr : List ε) (hrun : M.run s ls = some (t, tr)) : I t :=
  M.run_history P (fun s _ => I s) (fun s _ l s' es hI hP hs => hstep s l s' es hI hP hs)
    s [] h0 ls hal t tr hrun

/-- Two conditions that agree wherever an invariant holds agree along any run
    that starts inside it. -/
theorem along_congr (P Q : σ → ℓ → Prop) (I : σ → Prop)
    (hstep : ∀ s l s' es, I s → M.step s l = some (s', es) → I s')
    (hPQ : ∀ s l, I s → (P s l ↔ Q s l)) (s : σ) (h0 : I s) (ls : List ℓ) :
    M.Along P s ls ↔ M.Along Q s ls := by
  induction ls generalizing s with
  | nil => exact Iff.rfl
  | cons l ls ih =>
      constructor
      · rintro ⟨hP, hal⟩
        exact ⟨(hPQ s l h0).mp hP,
          fun s' es hs => (ih s' (hstep s l s' es h0 hs)).mp (hal s' es hs)⟩
      · rintro ⟨hQ, hal⟩
        exact ⟨(hPQ s l h0).mpr hQ,
          fun s' es hs => (ih s' (hstep s l s' es h0 hs)).mpr (hal s' es hs)⟩

/-- Two conditions that agree on every step out of an invariant, and that keep
    it, agree along any run that starts inside it. -/
theorem along_iff_of_kept (P Q : σ → ℓ → Prop) (I : σ → Prop)
    (hPQ : ∀ s l s' es, I s → M.step s l = some (s', es) → (P s l ↔ Q s l))
    (hstep : ∀ s l s' es, I s → Q s l → M.step s l = some (s', es) → I s')
    (s : σ) (h0 : I s) (ls : List ℓ) (t : σ) (tr : List ε) (hrun : M.run s ls = some (t, tr)) :
    M.Along P s ls ↔ M.Along Q s ls := by
  induction ls generalizing s tr with
  | nil => exact Iff.rfl
  | cons l ls ih =>
      rcases (M.run_cons_iff s l ls t tr).mp hrun with ⟨s', es, tr', hs, hrest, -⟩
      rw [M.along_cons_iff_of_step P s s' l ls es hs, M.along_cons_iff_of_step Q s s' l ls es hs,
        hPQ s l s' es h0 hs]
      exact and_congr_right (fun hQ => ih s' (hstep s l s' es h0 hQ hs) tr' hrest)

theorem throughout_head (I : σ → Prop) (s : σ) (ls : List ℓ) (h : M.Throughout I s ls) :
    I s := by
  cases ls with
  | nil => exact h
  | cons l ls => exact h.1

theorem throughout_mono (I K : σ → Prop) (hIK : ∀ s, I s → K s) (s : σ) (ls : List ℓ)
    (h : M.Throughout I s ls) : M.Throughout K s ls := by
  induction ls generalizing s with
  | nil => exact hIK s h
  | cons l ls ih => exact ⟨hIK s h.1, fun s' es hs => ih s' (h.2 s' es hs)⟩

/-- An invariant the steps keep holds in every state passed through. -/
theorem throughout_of_along (P : σ → ℓ → Prop) (I : σ → Prop)
    (hstep : ∀ s l s' es, I s → P s l → M.step s l = some (s', es) → I s')
    (s : σ) (h0 : I s) (ls : List ℓ) (hal : M.Along P s ls) : M.Throughout I s ls := by
  induction ls generalizing s with
  | nil => exact h0
  | cons l ls ih =>
      exact ⟨h0, fun s' es hs => ih s' (hstep s l s' es h0 hal.1 hs) (hal.2 s' es hs)⟩

/-- Where a step keeps the invariant exactly when it meets the condition, a
    run stays inside the invariant exactly when all its steps meet it. -/
theorem throughout_iff_along (P : σ → ℓ → Prop) (I : σ → Prop)
    (hstep : ∀ s l s' es, I s → M.step s l = some (s', es) → (I s' ↔ P s l))
    (s : σ) (h0 : I s) (ls : List ℓ) (t : σ) (tr : List ε)
    (hrun : M.run s ls = some (t, tr)) : M.Throughout I s ls ↔ M.Along P s ls := by
  constructor
  · intro hthr
    induction ls generalizing s tr with
    | nil => exact trivial
    | cons l ls ih =>
        rcases (M.run_cons_iff s l ls t tr).mp hrun with ⟨s', es, tr', hs, hrest, -⟩
        have hI : I s' := M.throughout_head I s' ls (hthr.2 s' es hs)
        exact (M.along_cons_iff_of_step P s s' l ls es hs).mpr
          ⟨(hstep s l s' es h0 hs).mp hI, ih s' hI tr' hrest (hthr.2 s' es hs)⟩
  · intro hal
    exact M.throughout_of_along P I (fun s l s' es hI hP hs => (hstep s l s' es hI hs).mpr hP)
      s h0 ls hal

end Machine

end Transition
