import PcieCosim.Lib.Interaction
import PcieCosim.Lib.Transition

/-!
# Programs Attached to a Machine

A program of accesses whose device is a machine with steps of its own.

`Interaction` runs a program alone: between two accesses nothing happens. A
real device goes on between them. `attached` is the system of the two: the
next access of the program is one step of the machine, its answer read off the
events of that step, and in between the machine takes any steps it takes by
itself.

A program is specified by `Prog.Meets`, which says what accesses it makes and
how it ends, relying on how its accesses are answered. The rules for
sequencing and for the two loops are the ones a specification of straight code
needs. `attached_run` is what such a specification gives for the whole system,
whatever the machine does in between, and `attached_completes` that the
program does end.

## Main definitions

* `Prog.Meets`: A specification of a program.
* `Prog.relabel`: A program under other names for its accesses.
* `AttachedLabel`, `attached`: The system.

## Theorems

* `meets_bind`, `meets_forEach`, `meets_collect`, `meets_collect_any`: Rules for
  programs.
* `meets_and`, `meets_mono`: Rules for specifications.
* `meets_relabel`: The specification under other names.
* `attached_step_inv`: What a step of the system can be.
* `attached_run`: A run of the system is a run of the machine, in which the
  program meets its specification.
* `attached_completes`: The program can always be run to its end.
-/

namespace Interaction

open Transition

variable {ι ω α β γ σ ℓ ε : Type*}

/-- Every access meets `guar`, and if every answer meets `rely` the program
    ends with a result that meets `post`. -/
def Prog.Meets (guar : ι → Prop) (rely : ι → ω → Prop) (post : α → Prop) : Prog ι ω α → Prop
  | .done a => post a
  | .call i next => guar i ∧ ∀ v, rely i v → (next v).Meets guar rely post

section

variable (guar : ι → Prop) (rely : ι → ω → Prop)

theorem meets_bind (x : Prog ι ω α) (f : α → Prog ι ω β) (mid : α → Prop) (post : β → Prop)
    (hx : x.Meets guar rely mid) (hf : ∀ a, mid a → (f a).Meets guar rely post) :
    (x.bind f).Meets guar rely post := by
  induction x with
  | done a => exact hf a hx
  | call i next ih => exact ⟨hx.1, fun v hv => ih v (hx.2 v hv)⟩

theorem meets_forEach (f : γ → ι) (xs : List γ) (hguar : ∀ x ∈ xs, guar (f x)) :
    (forEach f xs).Meets guar rely (fun _ => True) := by
  induction xs with
  | nil => exact trivial
  | cons x xs ih =>
      exact ⟨hguar x List.mem_cons_self,
        fun _ _ => ih (fun y hy => hguar y (List.mem_cons_of_mem x hy))⟩

/-- A read loop whose answers are known stores them. -/
theorem meets_collect (f : γ → ι) (store : β → γ → ω → β) (g : γ → ω) (xs : List γ)
    (hguar : ∀ x ∈ xs, guar (f x)) (hrely : ∀ x ∈ xs, ∀ v, rely (f x) v → v = g x) (b : β) :
    (collect f store xs b).Meets guar rely
      (fun b' => b' = xs.foldl (fun b x => store b x (g x)) b) := by
  induction xs generalizing b with
  | nil => exact rfl
  | cons x xs ih =>
      refine ⟨hguar x List.mem_cons_self, fun v hv => ?_⟩
      rw [hrely x List.mem_cons_self v hv]
      exact ih (fun y hy => hguar y (List.mem_cons_of_mem x hy))
        (fun y hy => hrely y (List.mem_cons_of_mem x hy)) (store b x (g x))

/-- A read loop whose answers are not known. -/
theorem meets_collect_any (f : γ → ι) (store : β → γ → ω → β) (xs : List γ)
    (hguar : ∀ x ∈ xs, guar (f x)) (b : β) :
    (collect f store xs b).Meets guar rely (fun _ => True) := by
  induction xs generalizing b with
  | nil => exact trivial
  | cons x xs ih =>
      exact ⟨hguar x List.mem_cons_self,
        fun v _ => ih (fun y hy => hguar y (List.mem_cons_of_mem x hy)) (store b x v)⟩

/-- Two specifications that rely on the same answers. -/
theorem meets_and (guar' : ι → Prop) (post post' : α → Prop) (x : Prog ι ω α)
    (h : x.Meets guar rely post) (h' : x.Meets guar' rely post') :
    x.Meets (fun i => guar i ∧ guar' i) rely (fun a => post a ∧ post' a) := by
  induction x with
  | done a => exact ⟨h, h'⟩
  | call i next ih => exact ⟨⟨h.1, h'.1⟩, fun v hv => ih v (h.2 v hv) (h'.2 v hv)⟩

/-- A specification that asks for less. -/
theorem meets_mono (guar' : ι → Prop) (post post' : α → Prop) (hguar : ∀ i, guar i → guar' i)
    (hpost : ∀ a, post a → post' a) (x : Prog ι ω α) (h : x.Meets guar rely post) :
    x.Meets guar' rely post' := by
  induction x with
  | done a => exact hpost a h
  | call i next ih => exact ⟨hguar i h.1, fun v hv => ih v (h.2 v hv)⟩

end

/-- The program with its accesses under other names. -/
def Prog.relabel {ι' : Type*} (f : ι → ι') : Prog ι ω α → Prog ι' ω α
  | .done a => .done a
  | .call i next => .call (f i) (fun v => (next v).relabel f)

theorem meets_relabel {ι' : Type*} (f : ι → ι') (guar : ι' → Prop) (rely : ι' → ω → Prop)
    (post : α → Prop) (x : Prog ι ω α)
    (h : x.Meets (fun i => guar (f i)) (fun i => rely (f i)) post) :
    (x.relabel f).Meets guar rely post := by
  induction x with
  | done a => exact h
  | call i next ih => exact ⟨h.1, fun v hv => ih v (h.2 v hv)⟩

/-- The steps of a program and the machine it is attached to. -/
inductive AttachedLabel (ℓ : Type*) where
  /-- The next access of the program. -/
  | access
  /-- A step the machine takes by itself. -/
  | device (l : ℓ)

/-- A program attached to a machine: an access is the machine's step `label`,
    answered by `answer` of its events, and the machine's own steps are those
    that meet `own`. -/
def attached (M : Machine σ ℓ ε) (label : ι → ℓ) (answer : List ε → ω) (own : ℓ → Bool) :
    Machine (σ × Prog ι ω α) (AttachedLabel ℓ) ε where
  step x
    | .access =>
        match x.2 with
        | .done _ => none
        | .call i next => (M.step x.1 (label i)).map (fun y => ((y.1, next (answer y.2)), y.2))
    | .device l => if own l then (M.step x.1 l).map (fun y => ((y.1, x.2), y.2)) else none

section

variable (M : Machine σ ℓ ε) (label : ι → ℓ) (answer : List ε → ω) (own : ℓ → Bool)

/-- What a step of the system can be. -/
inductive AttachedStep (s : σ) (prog : Prog ι ω α) :
    AttachedLabel ℓ → σ → Prog ι ω α → List ε → Prop where
  | access (i : ι) (next : ω → Prog ι ω α) (s' : σ) (es : List ε) (hprog : prog = .call i next)
      (hstep : M.step s (label i) = some (s', es)) :
      AttachedStep s prog .access s' (next (answer es)) es
  | device (l : ℓ) (s' : σ) (es : List ε) (hown : own l = true)
      (hstep : M.step s l = some (s', es)) : AttachedStep s prog (.device l) s' prog es

theorem attached_step_inv (s s' : σ) (prog prog' : Prog ι ω α) (l : AttachedLabel ℓ)
    (es : List ε)
    (h : (attached M label answer own).step (s, prog) l = some ((s', prog'), es)) :
    AttachedStep M label answer own s prog l s' prog' es := by
  cases l with
  | access =>
      cases prog with
      | done a => exact nomatch h
      | call i next =>
          rcases Option.map_eq_some_iff.mp h with ⟨⟨t, es'⟩, hstep, heq⟩
          simp only [Prod.mk.injEq] at heq
          rcases heq with ⟨⟨rfl, rfl⟩, rfl⟩
          -- The answer is read off the events of the machine's own step.
          exact AttachedStep.access i next t es' rfl hstep
  | device l =>
      change (if own l then _ else none) = _ at h
      by_cases hown : own l = true
      · rw [if_pos hown] at h
        rcases Option.map_eq_some_iff.mp h with ⟨⟨t, es'⟩, hstep, heq⟩
        simp only [Prod.mk.injEq] at heq
        rcases heq with ⟨⟨rfl, rfl⟩, rfl⟩
        exact AttachedStep.device l t es' hown hstep
      · rw [if_neg hown] at h
        exact nomatch h

/-- A run of the system is a run of the machine whose steps are its own or
    accesses that meet `guar`, and what is left of the program still meets its
    specification. -/
theorem attached_run (guar : ι → Prop) (rely : ι → ω → Prop) (post : α → Prop)
    (hrely : ∀ s i s' es, M.step s (label i) = some (s', es) → rely i (answer es))
    (ls : List (AttachedLabel ℓ)) (s s' : σ) (prog prog' : Prog ι ω α) (tr : List ε)
    (hprog : prog.Meets guar rely post)
    (hrun : (attached M label answer own).run (s, prog) ls = some ((s', prog'), tr)) :
    prog'.Meets guar rely post ∧ ∃ ls', M.run s ls' = some (s', tr) ∧
      ∀ l ∈ ls', own l = true ∨ ∃ i, guar i ∧ l = label i := by
  induction ls generalizing s prog tr with
  | nil =>
      simp only [Machine.run, Option.some.injEq, Prod.mk.injEq] at hrun
      rcases hrun with ⟨⟨rfl, rfl⟩, rfl⟩
      exact ⟨hprog, [], rfl, fun l hl => absurd hl List.not_mem_nil⟩
  | cons l ls ih =>
      rcases ((attached M label answer own).run_cons_iff _ l ls _ tr).mp hrun with
        ⟨⟨t, prog₁⟩, es, tr', hstep, hrest, rfl⟩
      -- Either way the machine takes one step, and the rest is a shorter run.
      have hone : ∃ l', M.step s l' = some (t, es) ∧ prog₁.Meets guar rely post ∧
          (own l' = true ∨ ∃ i, guar i ∧ l' = label i) := by
        cases attached_step_inv M label answer own s t prog prog₁ l es hstep with
        | access i next _ _ heq hs =>
            rw [heq] at hprog
            exact ⟨label i, hs, hprog.2 _ (hrely s i t es hs), Or.inr ⟨i, hprog.1, rfl⟩⟩
        | device l' _ _ hown hs => exact ⟨l', hs, hprog, Or.inl hown⟩
      rcases hone with ⟨l', hs, hmeets, hl'⟩
      rcases ih t prog₁ tr' hmeets hrest with ⟨hend, ls', hrun', hls'⟩
      refine ⟨hend, l' :: ls', (M.run_cons_iff s l' ls' s' _).mpr ⟨t, es, tr', hs, hrun', rfl⟩, ?_⟩
      intro x hx
      rcases List.mem_cons.mp hx with rfl | hx
      · exact hl'
      · exact hls' x hx

/-- If accesses are always possible, the program can be run to its end. -/
theorem attached_completes (henabled : ∀ s i, ∃ s' es, M.step s (label i) = some (s', es))
    (prog : Prog ι ω α) (s : σ) :
    ∃ ls s' a tr, (attached M label answer own).run (s, prog) ls = some ((s', .done a), tr) := by
  induction prog generalizing s with
  | done a => exact ⟨[], s, a, [], rfl⟩
  | call i next ih =>
      rcases henabled s i with ⟨s', es, hstep⟩
      rcases ih (answer es) s' with ⟨ls, t, a, tr, hrun⟩
      have hfirst : (attached M label answer own).step (s, .call i next) .access =
          some ((s', next (answer es)), es) := by
        change (M.step s (label i)).map _ = _
        rw [hstep]
        rfl
      exact ⟨.access :: ls, t, a, es ++ tr, ((attached M label answer own).run_cons_iff _ _ ls _
        _).mpr ⟨_, es, tr, hfirst, hrun, rfl⟩⟩

end

end Interaction
