import PcieCosim.Lib.Attached
import PcieCosim.Lib.Clients

/-!
# Concurrent Calls on a Machine

Clients that call entry points at the same time, on a device that is a machine
with steps of its own.

`Clients` interleaves calls on a device that does nothing between accesses, and
`Attached` puts one program on a device that does. `shared` is both at once:
any number of clients enter calls, make accesses, each of which is one step of
the machine, and leave, while the machine takes its own steps in between.

The rule is that of the single program. If every call, taken alone, makes only
accesses that meet `guar` and ends with a result that meets `post`, relying
only on how accesses are answered whatever the machine's state, then the same
holds of all calls together: what others do between two accesses changes the
machine's state, and nothing that the specification depends on. Where accesses
are answered like that only as long as the machine shows events of some kind,
the rule is about the runs that show no others.

## Main definitions

* `SharedLabel`, `SharedEvent`: The steps of the system and what it shows.
* `shared`: The system.
* `deviceEvents`: What the machine shows.
* `Together`: What every run keeps.

## Theorems

* `shared_step_inv`: What a step of the system can be.
* `together_step`: A step keeps it.
* `shared_run`: A run of the system is one of the machine, and every call that
  has returned meets its specification.
-/

namespace Interaction

open Transition

/-- The steps of clients and the machine they share. -/
inductive SharedLabel (κ χ ℓ : Type*) where
  | enter (k : κ) (c : χ)
  | access (k : κ)
  | leave (k : κ)
  /-- A step the machine takes by itself. -/
  | device (l : ℓ)

/-- What the system shows: the machine's events and the returns of calls. -/
inductive SharedEvent (κ χ ρ ε : Type*) where
  | device (e : ε)
  | returned (r : Returned κ χ ρ)

variable {σ κ χ ι ω ρ ℓ ε : Type*} [DecidableEq κ]

/-- Clients whose calls run `body` on a machine. Accesses and the machine's own
    steps are as for `attached`. -/
def shared (M : Machine σ ℓ ε) (label : ι → ℓ) (answer : List ε → ω) (own : ℓ → Bool)
    (body : χ → Prog ι ω ρ) :
    Machine (Pool σ κ χ ι ω ρ) (SharedLabel κ χ ℓ) (SharedEvent κ χ ρ ε) where
  step P
    | .enter k c =>
        match P.client k with
        | none => some (P.setClient k (some ⟨c, 0, body c⟩), [])
        | some _ => none
    | .access k =>
        match P.client k with
        | some ⟨c, m, .call i next⟩ =>
            (M.step P.shared (label i)).map (fun y =>
              ({ P.setClient k (some ⟨c, m + 1, next (answer y.2)⟩) with shared := y.1 },
                y.2.map .device))
        | _ => none
    | .leave k =>
        match P.client k with
        | some ⟨c, _, .done r⟩ => some (P.setClient k none, [.returned ⟨k, c, r⟩])
        | _ => none
    | .device l =>
        if own l then
          (M.step P.shared l).map (fun y => ({ P with shared := y.1 }, y.2.map .device))
        else none

theorem setClient_self (P : Pool σ κ χ ι ω ρ) (k : κ) (x : Option (Running χ ι ω ρ)) :
    (P.setClient k x).client k = x := Function.update_self ..

theorem setClient_of_ne (P : Pool σ κ χ ι ω ρ) (k k' : κ) (x : Option (Running χ ι ω ρ))
    (h : k' ≠ k) : (P.setClient k x).client k' = P.client k' := Function.update_of_ne h ..

/-- The machine's events. -/
def deviceEvents : List (SharedEvent κ χ ρ ε) → List ε
  | [] => []
  | .device e :: tr => e :: deviceEvents tr
  | .returned _ :: tr => deviceEvents tr

omit [DecidableEq κ] in
theorem deviceEvents_append (tr tr' : List (SharedEvent κ χ ρ ε)) :
    deviceEvents (tr ++ tr') = deviceEvents tr ++ deviceEvents tr' := by
  induction tr with
  | nil => rfl
  | cons x tr ih =>
      cases x with
      | device e => exact congrArg (List.cons e) ih
      | returned r => exact ih

omit [DecidableEq κ] in
theorem deviceEvents_map (es : List ε) :
    deviceEvents (es.map (SharedEvent.device (κ := κ) (χ := χ) (ρ := ρ))) = es := by
  induction es with
  | nil => rfl
  | cons e es ih => exact congrArg (List.cons e) ih

omit [DecidableEq κ] in
theorem mem_deviceEvents (e : ε) (tr : List (SharedEvent κ χ ρ ε)) :
    e ∈ deviceEvents tr ↔ .device e ∈ tr := by
  induction tr with
  | nil => exact ⟨fun h => absurd h List.not_mem_nil, fun h => absurd h List.not_mem_nil⟩
  | cons x tr ih =>
      cases x with
      | device e' =>
          simp only [deviceEvents, List.mem_cons, ih, SharedEvent.device.injEq]
      | returned r =>
          simp only [deviceEvents, List.mem_cons, ih, reduceCtorEq, false_or]

section

variable (M : Machine σ ℓ ε) (label : ι → ℓ) (answer : List ε → ω) (own : ℓ → Bool)
  (body : χ → Prog ι ω ρ)

/-- What a step of the system can be. -/
inductive SharedStep (P : Pool σ κ χ ι ω ρ) :
    SharedLabel κ χ ℓ → Pool σ κ χ ι ω ρ → List (SharedEvent κ χ ρ ε) → Prop where
  | enter (k : κ) (c : χ) (hk : P.client k = none) :
      SharedStep P (.enter k c) (P.setClient k (some ⟨c, 0, body c⟩)) []
  | access (k : κ) (c : χ) (m : Nat) (i : ι) (next : ω → Prog ι ω ρ) (s' : σ) (es : List ε)
      (hk : P.client k = some ⟨c, m, .call i next⟩)
      (hstep : M.step P.shared (label i) = some (s', es)) :
      SharedStep P (.access k)
        { P.setClient k (some ⟨c, m + 1, next (answer es)⟩) with shared := s' }
        (es.map .device)
  | leave (k : κ) (c : χ) (m : Nat) (r : ρ) (hk : P.client k = some ⟨c, m, .done r⟩) :
      SharedStep P (.leave k) (P.setClient k none) [.returned ⟨k, c, r⟩]
  | device (l : ℓ) (s' : σ) (es : List ε) (hown : own l = true)
      (hstep : M.step P.shared l = some (s', es)) :
      SharedStep P (.device l) { P with shared := s' } (es.map .device)

theorem shared_step_inv (P P' : Pool σ κ χ ι ω ρ) (l : SharedLabel κ χ ℓ)
    (es : List (SharedEvent κ χ ρ ε))
    (h : (shared M label answer own body).step P l = some (P', es)) :
    SharedStep M label answer own body P l P' es := by
  cases l with
  | enter k c =>
      cases hk : P.client k with
      | none =>
          simp only [shared, hk, Option.some.injEq, Prod.mk.injEq] at h
          rcases h with ⟨rfl, rfl⟩
          exact SharedStep.enter k c hk
      | some run => simp only [shared, hk, reduceCtorEq] at h
  | access k =>
      cases hk : P.client k with
      | none => simp only [shared, hk, reduceCtorEq] at h
      | some run =>
          rcases run with ⟨c, m, rest⟩
          cases rest with
          | done r => simp only [shared, hk, reduceCtorEq] at h
          | call i next =>
              simp only [shared, hk] at h
              rcases Option.map_eq_some_iff.mp h with ⟨⟨s', es'⟩, hstep, heq⟩
              simp only [Prod.mk.injEq] at heq
              rcases heq with ⟨rfl, rfl⟩
              exact SharedStep.access k c m i next s' es' hk hstep
  | leave k =>
      cases hk : P.client k with
      | none => simp only [shared, hk, reduceCtorEq] at h
      | some run =>
          rcases run with ⟨c, m, rest⟩
          cases rest with
          | done r =>
              simp only [shared, hk, Option.some.injEq, Prod.mk.injEq] at h
              rcases h with ⟨rfl, rfl⟩
              exact SharedStep.leave k c m r hk
          | call i next => simp only [shared, hk, reduceCtorEq] at h
  | device l =>
      change (if own l then _ else none) = _ at h
      by_cases hown : own l = true
      · rw [if_pos hown] at h
        rcases Option.map_eq_some_iff.mp h with ⟨⟨s', es'⟩, hstep, heq⟩
        simp only [Prod.mk.injEq] at heq
        rcases heq with ⟨rfl, rfl⟩
        exact SharedStep.device l s' es' hown hstep
      · simp only [if_neg hown, reduceCtorEq] at h

variable (guar : ι → Prop) (rely : ι → ω → Prop) (post : χ → ρ → Prop) (good : ε → Prop)

/-- What every run keeps: the calls in progress meet what is left of their
    specification, the calls that have returned met it, and the machine has
    made a run of its own steps and of accesses that meet `guar`. -/
structure Together (s₀ : σ) (P : Pool σ κ χ ι ω ρ) (tr : List (SharedEvent κ χ ρ ε)) :
    Prop where
  running : ∀ k c m rest, P.client k = some ⟨c, m, rest⟩ → rest.Meets guar rely (post c)
  returned : ∀ r, .returned r ∈ tr → post r.call r.ret
  machine : ∃ ls, M.run s₀ ls = some (P.shared, deviceEvents tr) ∧
    ∀ l ∈ ls, own l = true ∨ ∃ i, guar i ∧ l = label i

variable {M label answer own body guar rely post good}

omit [DecidableEq κ] in
/-- A step of the machine goes on with its run. -/
theorem together_machine (s₀ : σ) (P : Pool σ κ χ ι ω ρ) (tr : List (SharedEvent κ χ ρ ε))
    (h : Together M label own guar rely post s₀ P tr) (l : ℓ) (s' : σ) (es : List ε)
    (hl : own l = true ∨ ∃ i, guar i ∧ l = label i) (hstep : M.step P.shared l = some (s', es)) :
    ∃ ls, M.run s₀ ls = some (s', deviceEvents (tr ++ es.map .device)) ∧
      ∀ l ∈ ls, own l = true ∨ ∃ i, guar i ∧ l = label i := by
  rcases h.machine with ⟨ls, hrun, hls⟩
  refine ⟨ls ++ [l], ?_, fun l' hl' => ?_⟩
  · rw [deviceEvents_append, deviceEvents_map]
    exact M.run_append s₀ P.shared s' ls [l] _ es hrun
      ((Machine.run_singleton_iff M P.shared l s' es).mpr hstep)
  · rcases List.mem_append.mp hl' with hl' | hl'
    · exact hls l' hl'
    · rw [List.mem_singleton.mp hl']
      exact hl

omit [DecidableEq κ] in
theorem returned_of_map (r : Returned κ χ ρ) (es : List ε) :
    SharedEvent.returned r ∉ es.map SharedEvent.device := by
  intro h
  rcases List.mem_map.mp h with ⟨e, -, heq⟩
  simp only [reduceCtorEq] at heq

theorem together_step (hbody : ∀ c, (body c).Meets guar rely (post c))
    (hrely : ∀ s i s' es, M.step s (label i) = some (s', es) → (∀ e ∈ es, good e) →
      rely i (answer es))
    (s₀ : σ) (P P' : Pool σ κ χ ι ω ρ) (tr es : List (SharedEvent κ χ ρ ε))
    (l : SharedLabel κ χ ℓ) (h : Together M label own guar rely post s₀ P tr)
    (hgood : ∀ e, .device e ∈ es → good e)
    (hstep : (shared M label answer own body).step P l = some (P', es)) :
    Together M label own guar rely post s₀ P' (tr ++ es) := by
  -- Replacing what one client does, by something that meets its part.
  have hset : ∀ k c m rest, rest.Meets guar rely (post c) → ∀ k' c' m' rest',
      (P.setClient k (some ⟨c, m, rest⟩)).client k' = some ⟨c', m', rest'⟩ →
        rest'.Meets guar rely (post c') := by
    intro k c m rest hrest k' c' m' rest' hk'
    by_cases hkk : k' = k
    · rw [hkk, setClient_self, Option.some.injEq, Running.mk.injEq] at hk'
      rcases hk' with ⟨rfl, -, rfl⟩
      exact hrest
    · rw [setClient_of_ne P k k' _ hkk] at hk'
      exact h.running k' c' m' rest' hk'
  have hreturned : ∀ (es : List ε) r, .returned r ∈ tr ++ es.map .device →
      post r.call r.ret := by
    intro es r hr
    rcases List.mem_append.mp hr with hr | hr
    · exact h.returned r hr
    · exact absurd hr (returned_of_map r es)
  cases shared_step_inv M label answer own body P P' l es hstep with
  | enter k c hk =>
      rw [List.append_nil]
      exact ⟨hset k c 0 _ (hbody c), h.returned, h.machine⟩
  | access k c m i next s' es' hk hs =>
      have hmeets := h.running k c m _ hk
      have hanswer := hrely _ i s' es' hs (fun e he => hgood e (List.mem_map_of_mem he))
      exact ⟨hset k c (m + 1) _ (hmeets.2 _ hanswer), hreturned es',
        together_machine s₀ P tr h (label i) s' es' (Or.inr ⟨i, hmeets.1, rfl⟩) hs⟩
  | leave k c m r hk =>
      refine ⟨fun k' c' m' rest' hk' => ?_, fun r' hr' => ?_, ?_⟩
      · by_cases hkk : k' = k
        · simp only [hkk, setClient_self, reduceCtorEq] at hk'
        · rw [setClient_of_ne P k k' _ hkk] at hk'
          exact h.running k' c' m' rest' hk'
      · rcases List.mem_append.mp hr' with hr' | hr'
        · exact h.returned r' hr'
        · rw [List.mem_singleton, SharedEvent.returned.injEq] at hr'
          rw [hr']
          exact h.running k c m _ hk
      · rw [deviceEvents_append, deviceEvents, deviceEvents, List.append_nil]
        exact h.machine
  | device l' s' es' hown hs =>
      exact ⟨h.running, hreturned es', together_machine s₀ P tr h l' s' es' (Or.inl hown) hs⟩

/-- From a state without calls in progress, the system makes a run of the
    machine's own steps and of accesses that meet `guar`, and every call that
    returns meets its specification, if the machine shows good events only. -/
theorem shared_run (hbody : ∀ c, (body c).Meets guar rely (post c))
    (hrely : ∀ s i s' es, M.step s (label i) = some (s', es) → (∀ e ∈ es, good e) →
      rely i (answer es))
    (P₀ P : Pool σ κ χ ι ω ρ) (hidle : P₀.Idle) (ls : List (SharedLabel κ χ ℓ))
    (tr : List (SharedEvent κ χ ρ ε))
    (hrun : (shared M label answer own body).run P₀ ls = some (P, tr))
    (hgood : ∀ e, .device e ∈ tr → good e) :
    Together M label own guar rely post P₀.shared P tr := by
  have hstart : Together M label own guar rely post P₀.shared P₀ [] := by
    refine ⟨fun k c m rest hk => ?_, fun r hr => absurd hr List.not_mem_nil, [], rfl,
      fun l hl => absurd hl List.not_mem_nil⟩
    simp only [hidle k, reduceCtorEq] at hk
  exact (shared M label answer own body).run_trace
    (fun P tr => (∀ e, .device e ∈ tr → good e) →
      Together M label own guar rely post P₀.shared P tr)
    (fun P tr l P' es h hstep hall => together_step hbody hrely P₀.shared P P' tr es l
      (h (fun e he => hall e (List.mem_append_left _ he)))
      (fun e he => hall e (List.mem_append_right _ he)) hstep)
    P₀ (fun _ => hstart) ls P tr hrun hgood

end

end Interaction
