import Mathlib.Data.Multiset.AddSub

/-!
# Ledgers of Held Resources

Who holds what, and the calls that change it.

A ledger lists the items that are held, each with the owner that acquired it,
oldest first. The same item may be held more than once, by one owner or by
several. A release names an item and not an owner, so it takes the oldest
holding of that item, whoever acquired it, and does nothing where there is
none. That is how a release can go wrong without any call failing, and it is
what `Proper` rules out: a proper release finds its item held, by the owner
that gives it up.

Some calls hand over no item but write over the object behind items that are
held already. `overwrite` is such a call, and it is proper if all those items
are the caller's own.

Two views of a ledger matter. `items` forgets owners and order and is the set
of what is held, each item as often as it is held. `holdings` is what one
owner has, and calls that are all proper leave the holdings of everybody else
alone.

`Leaves` follows the calls of one owner on what it has acquired itself, with
no ledger in sight: what it releases it must have acquired before. Two
theorems carry this over to ledgers in which others hold things too.

## Main definitions

* `Hold`: An item and its owner.
* `Call`: What can be asked.
* `holder`, `giveUp`: The release of an item.
* `perform`, `performAll`: The effect of calls.
* `Proper`, `AllProper`: Calls that release and overwrite only what is the
  caller's.
* `items`, `holdings`, `own`: What is held, and by one owner.
* `Leaves`: Calls that release only what was acquired, and what they leave.

## Theorems

* `items_acquire`, `items_release`: The effect of calls on what is held.
* `holdings_performAll`: Proper calls leave other owners alone.
* `leaves_releases`: Releasing everything in any order.
* `performAll_of_leaves`: On a ledger where others hold other things.
* `items_of_leaves`: On any ledger, up to owners and order.
* `holder_append_of_mem`: A release takes the oldest holding.
* `mem_of_proper_release`: A proper release finds an item of its caller.
-/

namespace Ledger

/-- An item that is held, and who acquired it. -/
structure Hold (ω ρ : Type*) where
  owner : ω
  item : ρ
  deriving DecidableEq

/-- What can be asked of the ledger. -/
inductive Call (ρ : Type*) where
  | acquire (r : ρ)
  | release (r : ρ)
  /-- Write over the object behind every item that `p` selects. -/
  | overwrite (p : ρ → Bool)

variable {ω ρ : Type*}

/-- The items held, each as often as it is held. -/
def items (h : List (Hold ω ρ)) : Multiset ρ := (h.map Hold.item : List ρ)

/-- What one owner holds. -/
def holdings [DecidableEq ω] (o : ω) (h : List (Hold ω ρ)) : List (Hold ω ρ) :=
  h.filter (fun x => x.owner = o)

variable [DecidableEq ρ]

/-- The owner whose holding a release of the item takes: the oldest. -/
def holder (h : List (Hold ω ρ)) (r : ρ) : Option ω :=
  (h.find? (fun x => x.item = r)).map Hold.owner

/-- The ledger after a release of the item. -/
def giveUp (h : List (Hold ω ρ)) (r : ρ) : List (Hold ω ρ) :=
  h.eraseP (fun x => x.item = r)

/-- The effect of a call by `o`. -/
def perform (o : ω) (h : List (Hold ω ρ)) : Call ρ → List (Hold ω ρ)
  | .acquire r => h ++ [⟨o, r⟩]
  | .release r => giveUp h r
  | .overwrite _ => h

/-- The effect of calls by `o`, one after another. -/
def performAll (o : ω) (h : List (Hold ω ρ)) (cs : List (Call ρ)) : List (Hold ω ρ) :=
  cs.foldl (perform o) h

/-- A release by `o` takes a holding of `o`, and what `o` writes over is its
    own. -/
def Proper (o : ω) (h : List (Hold ω ρ)) : Call ρ → Prop
  | .acquire _ => True
  | .release r => holder h r = some o
  | .overwrite p => ∀ x ∈ h, p x.item = true → x.owner = o

/-- Every one of the calls is proper when it is made. -/
def AllProper (o : ω) : List (Hold ω ρ) → List (Call ρ) → Prop
  | _, [] => True
  | h, c :: cs => Proper o h c ∧ AllProper o (perform o h c) cs

instance [DecidableEq ω] (o : ω) (h : List (Hold ω ρ)) : (c : Call ρ) → Decidable (Proper o h c)
  | .acquire _ => isTrue trivial
  | .release r => inferInstanceAs (Decidable (holder h r = some o))
  | .overwrite p => inferInstanceAs (Decidable (∀ x ∈ h, p x.item = true → x.owner = o))

instance decidableAllProper [DecidableEq ω] (o : ω) :
    (h : List (Hold ω ρ)) → (cs : List (Call ρ)) → Decidable (AllProper o h cs)
  | _, [] => isTrue trivial
  | h, c :: cs =>
      have := decidableAllProper o (perform o h c) cs
      inferInstanceAs (Decidable (Proper o h c ∧ AllProper o (perform o h c) cs))

/-- Acquiring adds one item. -/
theorem items_acquire (o : ω) (h : List (Hold ω ρ)) (r : ρ) :
    items (perform o h (.acquire r)) = r ::ₘ items h := by
  rw [items, perform, List.map_append, ← Multiset.coe_add, Multiset.add_comm]
  rfl

/-- Releasing takes one away, if there is one. -/
theorem items_release (o : ω) (h : List (Hold ω ρ)) (r : ρ) :
    items (perform o h (.release r)) = (items h).erase r := by
  rw [items, items, Multiset.coe_erase, List.erase_eq_eraseP, List.eraseP_map, perform, giveUp]
  congr 3
  funext x
  exact decide_eq_decide.mpr eq_comm

theorem holder_cons (x : Hold ω ρ) (h : List (Hold ω ρ)) (r : ρ) :
    holder (x :: h) r = if x.item = r then some x.owner else holder h r := by
  unfold holder
  by_cases hx : x.item = r
  · have hp : decide (x.item = r) = true := decide_eq_true hx
    rw [if_pos hx, List.find?_cons, hp, Option.map_some]
  · have hp : decide (x.item = r) = false := decide_eq_false hx
    rw [if_neg hx, List.find?_cons, hp]

theorem giveUp_cons (x : Hold ω ρ) (h : List (Hold ω ρ)) (r : ρ) :
    giveUp (x :: h) r = if x.item = r then h else x :: giveUp h r := by
  unfold giveUp
  by_cases hx : x.item = r
  · have hp : decide (x.item = r) = true := decide_eq_true hx
    rw [if_pos hx, List.eraseP_cons, hp, cond_true]
  · have hp : decide (x.item = r) = false := decide_eq_false hx
    rw [if_neg hx, List.eraseP_cons, hp, cond_false]

/-- A release that takes a holding of `o` leaves other owners alone. -/
theorem holdings_giveUp [DecidableEq ω] (o o' : ω) (hne : o' ≠ o) (h : List (Hold ω ρ)) (r : ρ)
    (hh : holder h r = some o) : holdings o' (giveUp h r) = holdings o' h := by
  induction h with
  | nil => exact nomatch hh
  | cons x h ih =>
      rw [holder_cons] at hh
      rw [giveUp_cons]
      by_cases hx : x.item = r
      · rw [if_pos hx, Option.some.injEq] at hh
        rw [if_pos hx, holdings, holdings, List.filter_cons_of_neg]
        simpa only [hh, decide_eq_true_eq] using hne.symm
      · rw [if_neg hx] at hh
        rw [if_neg hx]
        simp only [holdings, List.filter_cons] at ih ⊢
        rw [ih hh]

/-- Proper calls leave other owners alone. -/
theorem holdings_performAll [DecidableEq ω] (o o' : ω) (hne : o' ≠ o) (cs : List (Call ρ))
    (h : List (Hold ω ρ)) (hp : AllProper o h cs) :
    holdings o' (performAll o h cs) = holdings o' h := by
  induction cs generalizing h with
  | nil => rfl
  | cons c cs ih =>
      refine (ih (perform o h c) hp.2).trans ?_
      cases c with
      | acquire r =>
          rw [perform, holdings, List.filter_append, List.filter_cons_of_neg, List.filter_nil,
            List.append_nil, holdings]
          simpa only [decide_eq_true_eq] using hne.symm
      | release r => exact holdings_giveUp o o' hne h r hp.1
      | overwrite p => rfl

theorem holder_append (h t : List (Hold ω ρ)) (r : ρ) (hav : ∀ x ∈ h, x.item ≠ r) :
    holder (h ++ t) r = holder t r := by
  induction h with
  | nil => rfl
  | cons x h ih =>
      rw [List.cons_append, holder_cons, if_neg (hav x List.mem_cons_self)]
      exact ih (fun y hy => hav y (List.mem_cons_of_mem x hy))

theorem giveUp_append (h t : List (Hold ω ρ)) (r : ρ) (hav : ∀ x ∈ h, x.item ≠ r) :
    giveUp (h ++ t) r = h ++ giveUp t r := by
  induction h with
  | nil => rfl
  | cons x h ih =>
      rw [List.cons_append, giveUp_cons, if_neg (hav x List.mem_cons_self), List.cons_append,
        ih (fun y hy => hav y (List.mem_cons_of_mem x hy))]

/-- Everything one owner holds. -/
def own (o : ω) (rs : List ρ) : List (Hold ω ρ) := rs.map (Hold.mk o)

theorem holder_own (o : ω) (rs : List ρ) (r : ρ) (hr : r ∈ rs) : holder (own o rs) r = some o := by
  induction rs with
  | nil => exact absurd hr List.not_mem_nil
  | cons r' rs ih =>
      rw [own, List.map_cons, holder_cons]
      by_cases hx : r' = r
      · rw [if_pos hx]
      · rw [if_neg hx]
        exact ih (List.mem_of_ne_of_mem (Ne.symm hx) hr)

theorem giveUp_own (o : ω) (rs : List ρ) (r : ρ) : giveUp (own o rs) r = own o (rs.erase r) := by
  induction rs with
  | nil => rfl
  | cons r' rs ih =>
      simp only [own, List.map_cons, giveUp_cons, List.erase_cons, beq_iff_eq] at ih ⊢
      split
      · rfl
      · rw [List.map_cons, ih]

/-- Calls that turn the items acquired so far into those that are left,
    releasing and overwriting only what satisfies `P`. -/
inductive Leaves (P : ρ → Prop) : List ρ → List (Call ρ) → List ρ → Prop where
  | done (rs : List ρ) : Leaves P rs [] rs
  | acquire (rs : List ρ) (r : ρ) (cs : List (Call ρ)) (left : List ρ)
      (h : Leaves P (rs ++ [r]) cs left) : Leaves P rs (.acquire r :: cs) left
  | release (rs : List ρ) (r : ρ) (cs : List (Call ρ)) (left : List ρ) (hP : P r) (hr : r ∈ rs)
      (h : Leaves P (rs.erase r) cs left) : Leaves P rs (.release r :: cs) left
  | overwrite (rs : List ρ) (p : ρ → Bool) (cs : List (Call ρ)) (left : List ρ)
      (hP : ∀ r, p r = true → P r) (h : Leaves P rs cs left) :
      Leaves P rs (.overwrite p :: cs) left

/-- Releasing in any order all that was acquired leaves nothing. -/
theorem leaves_releases (P : ρ → Prop) (rs rs' : List ρ) (hperm : rs'.Perm rs)
    (hP : ∀ r ∈ rs', P r) : Leaves P rs (rs'.map .release) [] := by
  induction rs' generalizing rs with
  | nil =>
      rw [List.nil_perm.mp hperm]
      exact Leaves.done []
  | cons r rs' ih =>
      refine Leaves.release rs r _ [] (hP r List.mem_cons_self)
        (hperm.subset List.mem_cons_self) (ih (rs.erase r) ?_ ?_)
      · exact (List.cons_perm_iff_perm_erase.mp hperm).2
      · exact fun r' hr' => hP r' (List.mem_cons_of_mem r hr')

/-- Such calls do the same to the ledger, and are proper, where the items of
    other owners do not satisfy `P`. -/
theorem performAll_of_leaves (P : ρ → Prop) (o : ω) (h : List (Hold ω ρ))
    (hh : ∀ x ∈ h, ¬ P x.item) (rs : List ρ) (cs : List (Call ρ)) (left : List ρ)
    (hl : Leaves P rs cs left) :
    performAll o (h ++ own o rs) cs = h ++ own o left ∧ AllProper o (h ++ own o rs) cs := by
  have havoid : ∀ r, P r → ∀ x ∈ h, x.item ≠ r := fun r hP x hx heq => hh x hx (heq ▸ hP)
  induction hl with
  | done rs => exact ⟨rfl, trivial⟩
  | acquire rs r cs left _ ih =>
      have hstep : perform o (h ++ own o rs) (.acquire r) = h ++ own o (rs ++ [r]) := by
        rw [perform, own, own, List.map_append, List.append_assoc]
        rfl
      rw [← hstep] at ih
      exact ⟨ih.1, trivial, ih.2⟩
  | release rs r cs left hP hr _ ih =>
      have hstep : perform o (h ++ own o rs) (.release r) = h ++ own o (rs.erase r) := by
        rw [perform, giveUp_append h _ r (havoid r hP), giveUp_own]
      rw [← hstep] at ih
      refine ⟨ih.1, ?_, ih.2⟩
      rw [Proper, holder_append h _ r (havoid r hP)]
      exact holder_own o rs r hr
  | overwrite rs p cs left hP _ ih =>
      refine ⟨ih.1, fun x hx hpx => ?_, ih.2⟩
      rcases List.mem_append.mp hx with hxh | hxo
      · exact absurd (hP x.item hpx) (hh x hxh)
      · rcases List.mem_map.mp hxo with ⟨r, -, rfl⟩
        rfl

/-- Whatever else is held, they add to it what is left in place of what was
    acquired. -/
theorem items_of_leaves (P : ρ → Prop) (o : ω) (m : Multiset ρ) (rs : List ρ)
    (cs : List (Call ρ)) (left : List ρ) (hl : Leaves P rs cs left) (h : List (Hold ω ρ))
    (hh : items h = m + rs) : items (performAll o h cs) = m + left := by
  induction hl generalizing h with
  | done rs => exact hh
  | acquire rs r cs left _ ih =>
      refine ih _ ?_
      rw [items_acquire, hh, ← Multiset.coe_add, ← Multiset.add_assoc, Multiset.coe_singleton,
        Multiset.add_comm _ {r}, Multiset.singleton_add]
  | release rs r cs left _ hr _ ih =>
      refine ih _ ?_
      rw [items_release, hh, Multiset.erase_add_right_pos _ (Multiset.mem_coe.mpr hr),
        Multiset.coe_erase]
  | overwrite rs p cs left _ _ ih => exact ih h hh

/-- The holder of an item holds it. -/
theorem mem_of_holder (h : List (Hold ω ρ)) (r : ρ) (o : ω) (hh : holder h r = some o) :
    ⟨o, r⟩ ∈ h := by
  induction h with
  | nil => exact nomatch hh
  | cons x h ih =>
      rw [holder_cons] at hh
      by_cases hx : x.item = r
      · rw [if_pos hx, Option.some.injEq] at hh
        rw [← hh, ← hx]
        exact List.mem_cons_self
      · rw [if_neg hx] at hh
        exact List.mem_cons_of_mem x (ih hh)

/-- An item that is held is released by somebody who holds it, in the oldest
    part of the ledger that has it. -/
theorem holder_append_of_mem (h t : List (Hold ω ρ)) (x : Hold ω ρ) (hx : x ∈ h) :
    ∃ y ∈ h, holder (h ++ t) x.item = some y.owner := by
  induction h with
  | nil => exact absurd hx List.not_mem_nil
  | cons y h ih =>
      rw [List.cons_append, holder_cons]
      by_cases hy : y.item = x.item
      · exact ⟨y, List.mem_cons_self, if_pos hy⟩
      · have hxh : x ∈ h := List.mem_of_ne_of_mem (fun heq => hy (heq ▸ rfl)) hx
        rcases ih hxh with ⟨z, hz, hholder⟩
        exact ⟨z, List.mem_cons_of_mem y hz, (if_neg hy).trans hholder⟩

/-- Where all of a list of releases are proper, every item is the caller's. -/
theorem mem_of_proper_release (o : ω) (rs : List ρ) (h : List (Hold ω ρ)) (r : ρ) (hr : r ∈ rs)
    (hp : AllProper o h (rs.map .release)) : ⟨o, r⟩ ∈ h := by
  induction rs generalizing h with
  | nil => exact absurd hr List.not_mem_nil
  | cons r' rs ih =>
      rcases List.mem_cons.mp hr with rfl | hr
      · exact mem_of_holder h r o hp.1
      · exact List.mem_of_mem_eraseP (ih (giveUp h r') hr hp.2)

end Ledger
