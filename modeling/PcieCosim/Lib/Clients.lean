import PcieCosim.Lib.Interaction
import PcieCosim.Lib.Transition
import Mathlib.Logic.Function.Basic

/-!
# Concurrent Calls on a Shared Device

Clients that call the same entry points at the same time, each call a program
of accesses to one device, interleaved one access at a time.

`pool` is the concurrent system: a client enters a call, makes its accesses,
each of which is one step, and leaves with the result. `serial` is the system
in which each call runs alone from entry to result. A concurrent run is
`Serializable` if the calls that have returned can be put in an order, keeping
each client's own, in which a serial run gives every client the same results
and leaves the device with the same observable state.

The way to prove it is `Linearization`: a relation between the concurrent
system and a serial one in which each call takes effect at one of its steps.
`linearized_step` does the bookkeeping of orders once for all, and a use of it
has only to say at which access a call takes effect.

## Main definitions

* `Running`, `Pool`: A call in progress, and the concurrent system's state.
* `PoolLabel`: Its steps.
* `Returned`: The return of a call.
* `pool`, `serial`: The two systems.
* `Serializable`: A concurrent run has the results of a serial one.
* `Linearization`: A relation in which calls take effect at one step.
* `Accounted`: A serial run accounts for a concurrent one.

## Theorems

* `pool_step_inv`: What a step of the pool can be.
* `accounted_access`, `accounted_leave`: An access and a return keep the
  account, with the order extended where the call takes effect.
* `linearized_step`: So does every step.
* `serializable_of_idle`: When no call is in progress the run is
  serializable.
-/

namespace Interaction

open Transition

/-- A call in progress: the accesses made so far and what is left of it. -/
structure Running (χ ι ω ρ : Type*) where
  call : χ
  made : Nat
  rest : Prog ι ω ρ

/-- A shared device and its clients, each with at most one call in
    progress. -/
structure Pool (σ κ χ ι ω ρ : Type*) where
  shared : σ
  client : κ → Option (Running χ ι ω ρ)

/-- The steps of the pool. -/
inductive PoolLabel (κ χ : Type*) where
  | enter (k : κ) (c : χ)
  | access (k : κ)
  | leave (k : κ)

/-- The return of a call. -/
structure Returned (κ χ ρ : Type*) where
  client : κ
  call : χ
  ret : ρ

variable {σ κ χ ι ω ρ : Type*} [DecidableEq κ]

namespace Pool

/-- Replace what one client is doing. -/
def setClient (P : Pool σ κ χ ι ω ρ) (k : κ) (x : Option (Running χ ι ω ρ)) :
    Pool σ κ χ ι ω ρ :=
  { P with client := Function.update P.client k x }

/-- One access of a client. -/
def makeAccess (h : Handler σ ι ω) (P : Pool σ κ χ ι ω ρ) (k : κ) (c : χ) (m : Nat) (i : ι)
    (next : ω → Prog ι ω ρ) : Pool σ κ χ ι ω ρ :=
  { shared := (h P.shared i).1
    client := Function.update P.client k (some ⟨c, m + 1, next (h P.shared i).2⟩) }

/-- One step of the pool, for calls that run `body` on the device `h`. -/
def step (body : χ → Prog ι ω ρ) (h : Handler σ ι ω) (P : Pool σ κ χ ι ω ρ) :
    PoolLabel κ χ → Option (Pool σ κ χ ι ω ρ × List (Returned κ χ ρ))
  | .enter k c =>
      match P.client k with
      | none => some (P.setClient k (some ⟨c, 0, body c⟩), [])
      | some _ => none
  | .access k =>
      match P.client k with
      | some ⟨c, m, .call i next⟩ => some (P.makeAccess h k c m i next, [])
      | _ => none
  | .leave k =>
      match P.client k with
      | some ⟨c, _, .done r⟩ => some (P.setClient k none, [⟨k, c, r⟩])
      | _ => none

/-- No call is in progress. -/
def Idle (P : Pool σ κ χ ι ω ρ) : Prop := ∀ k, P.client k = none

end Pool

/-- The concurrent system. -/
def pool (body : χ → Prog ι ω ρ) (h : Handler σ ι ω) :
    Machine (Pool σ κ χ ι ω ρ) (PoolLabel κ χ) (Returned κ χ ρ) where
  step := Pool.step body h

/-- The system in which each call runs alone. -/
def serial (body : χ → Prog ι ω ρ) (h : Handler σ ι ω) :
    Machine σ (κ × χ) (Returned κ χ ρ) where
  step s x := some (((body x.2).exec h s).1, [⟨x.1, x.2, ((body x.2).exec h s).2⟩])

/-- The returns to one client, in order. -/
def returnsTo (k : κ) (tr : List (Returned κ χ ρ)) : List (Returned κ χ ρ) :=
  tr.filter (fun e => e.client = k)

/-- The returns in `tr`, and the device `s` as far as `obs` shows it, are those
    of a serial run from `s₀` that keeps each client's order. -/
def Serializable {θ : Type*} (body : χ → Prog ι ω ρ) (h : Handler σ ι ω) (obs : σ → θ)
    (s₀ s : σ) (tr : List (Returned κ χ ρ)) : Prop :=
  ∃ order S tr', (serial body h).run s₀ order = some (S, tr') ∧
    (∀ k : κ, returnsTo k tr' = returnsTo k tr) ∧ obs S = obs s

/-- What a step of the pool can be. -/
inductive PoolStep (body : χ → Prog ι ω ρ) (h : Handler σ ι ω) (P : Pool σ κ χ ι ω ρ) :
    PoolLabel κ χ → Pool σ κ χ ι ω ρ → List (Returned κ χ ρ) → Prop where
  | enter (k : κ) (c : χ) (hk : P.client k = none) :
      PoolStep body h P (.enter k c) (P.setClient k (some ⟨c, 0, body c⟩)) []
  | access (k : κ) (c : χ) (m : Nat) (i : ι) (next : ω → Prog ι ω ρ)
      (hk : P.client k = some ⟨c, m, .call i next⟩) :
      PoolStep body h P (.access k) (P.makeAccess h k c m i next) []
  | leave (k : κ) (c : χ) (m : Nat) (r : ρ) (hk : P.client k = some ⟨c, m, .done r⟩) :
      PoolStep body h P (.leave k) (P.setClient k none) [⟨k, c, r⟩]

theorem pool_step_inv (body : χ → Prog ι ω ρ) (h : Handler σ ι ω) (P P' : Pool σ κ χ ι ω ρ)
    (l : PoolLabel κ χ) (es : List (Returned κ χ ρ))
    (hstep : (pool body h).step P l = some (P', es)) : PoolStep body h P l P' es := by
  change Pool.step body h P l = some (P', es) at hstep
  cases l with
  | enter k c =>
      cases hk : P.client k with
      | none =>
          simp only [Pool.step, hk, Option.some.injEq, Prod.mk.injEq] at hstep
          rcases hstep with ⟨rfl, rfl⟩
          exact PoolStep.enter k c hk
      | some run => simp only [Pool.step, hk, reduceCtorEq] at hstep
  | access k =>
      cases hk : P.client k with
      | none => simp only [Pool.step, hk, reduceCtorEq] at hstep
      | some run =>
          rcases run with ⟨c, m, rest⟩
          cases rest with
          | done r => simp only [Pool.step, hk, reduceCtorEq] at hstep
          | call i next =>
              simp only [Pool.step, hk, Option.some.injEq, Prod.mk.injEq] at hstep
              rcases hstep with ⟨rfl, rfl⟩
              exact PoolStep.access k c m i next hk
  | leave k =>
      cases hk : P.client k with
      | none => simp only [Pool.step, hk, reduceCtorEq] at hstep
      | some run =>
          rcases run with ⟨c, m, rest⟩
          cases rest with
          | done r =>
              simp only [Pool.step, hk, Option.some.injEq, Prod.mk.injEq] at hstep
              rcases hstep with ⟨rfl, rfl⟩
              exact PoolStep.leave k c m r hk
          | call i next => simp only [Pool.step, hk, reduceCtorEq] at hstep

/-- A relation between the pool, a serial device and the results of the calls
    in progress that have taken effect already. Each call takes effect at one
    of its accesses, or when it leaves. -/
structure Linearization (body : χ → Prog ι ω ρ) (h : Handler σ ι ω)
    (cond : Pool σ κ χ ι ω ρ → PoolLabel κ χ → Prop)
    (Rel : Pool σ κ χ ι ω ρ → σ → (κ → Option ρ) → Prop) : Prop where
  enter : ∀ P S D k c, Rel P S D → P.client k = none → D k = none →
    Rel (P.setClient k (some ⟨c, 0, body c⟩)) S D
  access : ∀ P S D k c m i next, Rel P S D → cond P (.access k) →
    P.client k = some ⟨c, m, .call i next⟩ →
    Rel (P.makeAccess h k c m i next) S D ∨
      (D k = none ∧ Rel (P.makeAccess h k c m i next) ((body c).exec h S).1
        (Function.update D k (some ((body c).exec h S).2)))
  leave : ∀ P S D k c m r, Rel P S D → P.client k = some ⟨c, m, .done r⟩ →
    (D k = some r ∧ Rel (P.setClient k none) S (Function.update D k none)) ∨
      (D k = none ∧ ((body c).exec h S).2 = r ∧
        Rel (P.setClient k none) ((body c).exec h S).1 D)

/-- The result of a client's call in progress, if it has taken effect. -/
def decided (P : Pool σ κ χ ι ω ρ) (D : κ → Option ρ) (k : κ) : List (Returned κ χ ρ) :=
  match P.client k, D k with
  | some run, some r => [⟨k, run.call, r⟩]
  | _, _ => []

/-- A serial run accounts for the concurrent one: the calls it has run are
    those that have returned, and those in progress that have taken effect. -/
structure Accounted (body : χ → Prog ι ω ρ) (h : Handler σ ι ω) (s₀ : σ)
    (Rel : Pool σ κ χ ι ω ρ → σ → (κ → Option ρ) → Prop) (P : Pool σ κ χ ι ω ρ)
    (tr : List (Returned κ χ ρ)) (order : List (κ × χ)) (S : σ)
    (tr' : List (Returned κ χ ρ)) (D : κ → Option ρ) : Prop where
  run : (serial body h).run s₀ order = some (S, tr')
  rel : Rel P S D
  idle : ∀ k, P.client k = none → D k = none
  returns : ∀ k, returnsTo k tr' = returnsTo k tr ++ decided P D k

omit [DecidableEq κ] in
theorem decided_of_none (P : Pool σ κ χ ι ω ρ) (D : κ → Option ρ) (k : κ) (hD : D k = none) :
    decided P D k = [] := by
  unfold decided
  rw [hD]
  cases P.client k <;> rfl

omit [DecidableEq κ] in
theorem decided_congr (P P' : Pool σ κ χ ι ω ρ) (D D' : κ → Option ρ) (k : κ)
    (hP : P'.client k = P.client k) (hD : D' k = D k) : decided P' D' k = decided P D k := by
  unfold decided
  rw [hP, hD]

theorem returnsTo_concat (k : κ) (tr : List (Returned κ χ ρ)) (e : Returned κ χ ρ) :
    returnsTo k (tr ++ [e]) = returnsTo k tr ++ if e.client = k then [e] else [] := by
  rw [returnsTo, List.filter_append, returnsTo]
  by_cases he : e.client = k
  · rw [if_pos he, List.filter_cons_of_pos (by rw [decide_eq_true he]), List.filter_nil]
  · rw [if_neg he, List.filter_cons_of_neg (by rw [decide_eq_false he]; exact nofun),
      List.filter_nil]

omit [DecidableEq κ] in
/-- The serial run goes on with one more call. -/
theorem serial_concat (body : χ → Prog ι ω ρ) (h : Handler σ ι ω) (s₀ S : σ)
    (order : List (κ × χ)) (tr' : List (Returned κ χ ρ)) (k : κ) (c : χ)
    (hrun : (serial body h).run s₀ order = some (S, tr')) :
    (serial body h).run s₀ (order ++ [(k, c)]) =
      some (((body c).exec h S).1, tr' ++ [⟨k, c, ((body c).exec h S).2⟩]) :=
  (serial body h).run_append s₀ S _ order [(k, c)] tr' _ hrun
    ((Machine.run_singleton_iff _ _ _ _ _).mpr rfl)

variable {body : χ → Prog ι ω ρ} {h : Handler σ ι ω} {s₀ : σ}
  {cond : Pool σ κ χ ι ω ρ → PoolLabel κ χ → Prop}
  {Rel : Pool σ κ χ ι ω ρ → σ → (κ → Option ρ) → Prop}

/-- An access keeps the account, with the call in the order if it takes effect
    there. -/
theorem accounted_access (hlin : Linearization body h cond Rel) (P : Pool σ κ χ ι ω ρ)
    (tr : List (Returned κ χ ρ)) (order : List (κ × χ)) (S : σ) (tr' : List (Returned κ χ ρ))
    (D : κ → Option ρ) (hacc : Accounted body h s₀ Rel P tr order S tr' D) (k : κ) (c : χ)
    (m : Nat) (i : ι) (next : ω → Prog ι ω ρ) (hk : P.client k = some ⟨c, m, .call i next⟩)
    (hcond : cond P (.access k)) :
    ∃ order' S' tr'' D',
      Accounted body h s₀ Rel (P.makeAccess h k c m i next) tr order' S' tr'' D' := by
  have hself : (P.makeAccess h k c m i next).client k =
      some ⟨c, m + 1, next (h P.shared i).2⟩ := Function.update_self ..
  have hother : ∀ k', k' ≠ k → (P.makeAccess h k c m i next).client k' = P.client k' :=
    fun k' hne => Function.update_of_ne hne ..
  rcases hlin.access P S D k c m i next hacc.rel hcond hk with hrel | ⟨hD, hrel⟩
  -- The call has taken effect before or is yet to: the order stays.
  · refine ⟨order, S, tr', D, hacc.run, hrel, fun k' hidle => ?_, fun k' => ?_⟩
    · by_cases hkk : k' = k
      · rw [hkk, hself] at hidle
        exact nomatch hidle
      · exact hacc.idle k' (by rw [← hother k' hkk]; exact hidle)
    · rw [hacc.returns k']
      by_cases hkk : k' = k
      · -- The call in progress is the same one.
        rw [hkk, decided, decided, hself, hk]
        cases D k <;> rfl
      · rw [decided_congr P _ D D k' (hother k' hkk) rfl]
  -- The call takes effect here, so it is the next of the order.
  · refine ⟨_, _, _, _, serial_concat body h s₀ S order tr' k c hacc.run, hrel,
      fun k' hidle => ?_, fun k' => ?_⟩
    · by_cases hkk : k' = k
      · rw [hkk, hself] at hidle
        exact nomatch hidle
      · rw [Function.update_of_ne hkk]
        exact hacc.idle k' (by rw [← hother k' hkk]; exact hidle)
    · rw [returnsTo_concat, hacc.returns k']
      by_cases hkk : k' = k
      · subst hkk
        rw [decided_of_none P D k' hD, List.append_nil, if_pos rfl, decided, hself,
          Function.update_self]
      · rw [if_neg (fun heq => hkk heq.symm), List.append_nil,
          decided_congr P _ D _ k' (hother k' hkk) (Function.update_of_ne hkk ..)]

/-- A return keeps the account: the call has taken effect, or does so now. -/
theorem accounted_leave (hlin : Linearization body h cond Rel) (P : Pool σ κ χ ι ω ρ)
    (tr : List (Returned κ χ ρ)) (order : List (κ × χ)) (S : σ) (tr' : List (Returned κ χ ρ))
    (D : κ → Option ρ) (hacc : Accounted body h s₀ Rel P tr order S tr' D) (k : κ) (c : χ)
    (m : Nat) (r : ρ) (hk : P.client k = some ⟨c, m, .done r⟩) :
    ∃ order' S' tr'' D',
      Accounted body h s₀ Rel (P.setClient k none) (tr ++ [⟨k, c, r⟩]) order' S' tr'' D' := by
  have hother : ∀ k', k' ≠ k → (P.setClient k none).client k' = P.client k' :=
    fun k' hne => Function.update_of_ne hne ..
  rcases hlin.leave P S D k c m r hacc.rel hk with ⟨hD, hrel⟩ | ⟨hD, hr, hrel⟩
  -- It has taken effect, and what it returns was decided then.
  · refine ⟨order, S, tr', _, hacc.run, hrel, fun k' hidle => ?_, fun k' => ?_⟩
    · by_cases hkk : k' = k
      · rw [hkk, Function.update_self]
      · rw [Function.update_of_ne hkk]
        exact hacc.idle k' (by rw [← hother k' hkk]; exact hidle)
    · rw [hacc.returns k', returnsTo_concat]
      by_cases hkk : k' = k
      · subst hkk
        rw [if_pos rfl, decided_of_none _ _ k' (Function.update_self ..), List.append_nil, decided,
          hk, hD]
      · rw [if_neg (fun heq => hkk heq.symm), List.append_nil,
          decided_congr P _ D _ k' (hother k' hkk) (Function.update_of_ne hkk ..)]
  -- It takes effect as it leaves, which adds it to both sides.
  · refine ⟨_, _, _, D, serial_concat body h s₀ S order tr' k c hacc.run, hrel,
      fun k' hidle => ?_, fun k' => ?_⟩
    · by_cases hkk : k' = k
      · rw [hkk, hD]
      · exact hacc.idle k' (by rw [← hother k' hkk]; exact hidle)
    · rw [returnsTo_concat, returnsTo_concat, hacc.returns k', hr]
      by_cases hkk : k' = k
      · subst hkk
        rw [decided_of_none P D k' hD, decided_of_none _ D k' hD, List.append_nil,
          List.append_nil]
      · rw [if_neg (fun heq => hkk heq.symm), List.append_nil, List.append_nil,
          decided_congr P _ D D k' (hother k' hkk) rfl]

theorem linearized_step (hlin : Linearization body h cond Rel) (P P' : Pool σ κ χ ι ω ρ)
    (l : PoolLabel κ χ) (tr es : List (Returned κ χ ρ))
    (hacc : ∃ order S tr' D, Accounted body h s₀ Rel P tr order S tr' D) (hcond : cond P l)
    (hstep : (pool body h).step P l = some (P', es)) :
    ∃ order S tr' D, Accounted body h s₀ Rel P' (tr ++ es) order S tr' D := by
  rcases hacc with ⟨order, S, tr', D, hacc⟩
  cases pool_step_inv body h P P' l es hstep with
  | enter k c hk =>
      rw [List.append_nil]
      have hD := hacc.idle k hk
      refine ⟨order, S, tr', D, hacc.run, hlin.enter P S D k c hacc.rel hk hD,
        fun k' hidle => ?_, fun k' => ?_⟩
      · by_cases hkk : k' = k
        · rw [hkk, hD]
        · exact hacc.idle k' (by rw [← hidle]; exact (Function.update_of_ne hkk ..).symm)
      · rw [hacc.returns k']
        by_cases hkk : k' = k
        · rw [hkk, decided_of_none P D k hD, decided_of_none _ D k hD]
        · rw [decided_congr P (P.setClient k _) D D k' (Function.update_of_ne hkk ..) rfl]
  | access k c m i next hk =>
      rw [List.append_nil]
      exact accounted_access hlin P tr order S tr' D hacc k c m i next hk hcond
  | leave k c m r hk => exact accounted_leave hlin P tr order S tr' D hacc k c m r hk

/-- A run in which every step meets the condition, and which ends with no call
    in progress, is serializable. -/
theorem serializable_of_idle {θ : Type*} (hlin : Linearization body h cond Rel) (obs : σ → θ)
    (hobs : ∀ P S D, Rel P S D → P.Idle → obs S = obs P.shared) (P₀ P : Pool σ κ χ ι ω ρ)
    (hrel₀ : Rel P₀ s₀ (fun _ => none)) (ls : List (PoolLabel κ χ))
    (hal : (pool body h).Along cond P₀ ls) (tr : List (Returned κ χ ρ))
    (hrun : (pool body h).run P₀ ls = some (P, tr)) (hidle : P.Idle) :
    Serializable body h obs s₀ P.shared tr := by
  -- The account starts with the empty order, and at the end nothing is left
  -- in progress that the order has and the returns do not.
  have hstart : ∃ order S tr' D, Accounted body h s₀ Rel P₀ [] order S tr' D := by
    refine ⟨[], s₀, [], fun _ => none, rfl, hrel₀, fun _ _ => rfl, fun k => ?_⟩
    rw [decided_of_none P₀ _ k rfl]
    rfl
  rcases (pool body h).run_history cond
    (fun P tr => ∃ order S tr' D, Accounted body h s₀ Rel P tr order S tr' D)
    (fun P tr l P' es hacc hcond hstep => linearized_step hlin P P' l tr es hacc hcond hstep)
    P₀ [] hstart ls hal P tr hrun with ⟨order, S, tr', D, hacc⟩
  refine ⟨order, S, tr', hacc.run, fun k => ?_, hobs P S D hacc.rel hidle⟩
  rw [hacc.returns k, decided_of_none P D k (hacc.idle k (hidle k)), List.append_nil,
    List.nil_append]

end Interaction
