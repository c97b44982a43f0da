import PcieCosim.Driver.Probe
import PcieCosim.Lib.Transition

/-!
# Devices Bound to the Driver

The PCI core probing and removing any number of devices.

The core probes a device that is not bound and takes it as bound unless the
probe returns a negative value; it removes devices that are bound. `pci_probe`
returns 1 when it fails, so a device whose probe failed is bound all the same,
and its remove releases what it does not hold. And since all devices share one
set of globals, a device probed while another is in use takes its place in
them.

The kernel answers a probe as it likes, within limits: it hands out no number
or mapping that is in use, refuses a class whose name is registered, and a BAR
that is requested.

`Settled` is what holds as long as nothing has gone wrong: the ledger consists
of what the bound devices' probes left, oldest first, and at most one of them,
after which no other was given a number, is in the globals. `safeStep_iff`
says exactly which steps keep to their own resources then: a probe that is
given a number needs that no bound device's probe succeeded, and a remove that
its own device's did, mapping included, and that no bound device whose probe
was rejected after `request_irq` is left on the same line.

## Main definitions

* `Answers.Admissible`: The limits of what the kernel answers.
* `Core`, `core`: The devices bound to the driver, and the core's calls.
* `SafeStep`: A call that releases only what its device holds.
* `Orderly`: The condition for it.
* `Settled`: Nothing has gone wrong so far.

## Theorems

* `mem_flatMap_holds`: What bound devices hold.
* `orderly_probe`, `orderly_remove`: What orderly calls release.
* `orderly_of_proper_probe`, `orderly_of_proper_remove`: Calls that release only
  what their device holds are orderly.
* `settled_probe`, `settled_remove`: Orderly calls leave nothing wrong.
* `safeStep_iff`: Which steps are safe.
* `releases_owned_iff`: Which runs are.
* `releases_unowned`: Runs that are not.
-/

namespace PcieCosim

open Bytes Ledger Transition

variable {κ : Type}

/-- The probe succeeds. -/
def Answers.succeeds (a : Answers) : Bool := a.enables && a.attaches

/-- The probe is rejected after `request_irq`, on the given line. -/
def Answers.strandsIrq (a : Answers) (line : Byte) : Bool :=
  a.enables && a.pciRequestRegion && a.requestIrq && !a.resourceMem && a.interruptLine == line

/-- The globals are those of a probe. -/
def Globals.Of (g : Globals κ) (a : Answers) : Prop :=
  g.pciIrq = a.interruptLine ∧ g.mmio = a.pciIomap ∧ g.node = a.node κ

theorem mem_bar_iff (a : Answers) (dev : κ) (r : Resource κ) :
    r ∈ a.bar dev ↔ a.pciRequestRegion = true ∧
      (r = .region dev ∨ (r = .iomap a.pciIomap ∧ a.pciIomap ≠ 0) ∨
        (r = .irq a.interruptLine ∧ a.requestIrq = true)) := by
  unfold Answers.bar
  cases a.pciRequestRegion with
  | false => simp
  | true =>
      simp only [if_true, List.cons_append, List.mem_cons, List.mem_append, true_and]
      refine or_congr_right (or_congr ?_ ?_)
      · by_cases hp : a.pciIomap = 0
        · simp only [hp, if_true, List.not_mem_nil, ne_eq, not_true_eq_false, and_false]
        · simp only [hp, if_false, List.mem_singleton, ne_eq, not_false_eq_true, and_true]
      · cases a.requestIrq with
        | false => simp only [Bool.false_eq_true, if_false, List.not_mem_nil, and_false]
        | true => simp only [if_true, List.mem_singleton, and_true]

theorem not_node_of_mem_bar (a : Answers) (dev : κ) (r : Resource κ) (hr : r ∈ a.bar dev) :
    ¬ r.IsNode := by
  rcases ((mem_bar_iff a dev r).mp hr).2 with rfl | ⟨rfl, -⟩ | ⟨rfl, -⟩ <;> exact id

theorem node_of_mem_node (a : Answers) (r : Resource κ) (hr : r ∈ a.node κ) : r.IsNode := by
  unfold Answers.node at hr
  split at hr
  · exact absurd hr List.not_mem_nil
  · simp only [List.mem_cons, List.not_mem_nil, or_false] at hr
    rcases hr with rfl | rfl | rfl | rfl <;> exact trivial

theorem kept_of_succeeds (a : Answers) (dev : κ) (h : a.succeeds = true) :
    a.kept dev = a.node κ ++ a.bar dev := by
  simp only [Answers.succeeds, Bool.and_eq_true] at h
  rw [Answers.kept, if_pos h.1, if_pos h.2]

theorem kept_of_not_succeeds (a : Answers) (dev : κ) (h : a.succeeds = false) :
    a.kept dev = if a.enables then a.bar dev else [] := by
  rw [Answers.kept]
  cases hen : a.enables with
  | false => rfl
  | true =>
      simp only [Answers.succeeds, hen, Bool.true_and] at h
      simp only [h, if_true, Bool.false_eq_true, if_false, List.nil_append]

theorem kept_eq_nil (a : Answers) (dev : κ) (h : a.allocChrdevRegion = none) :
    a.kept dev = [] := by
  rw [Answers.kept, Answers.enables, h]
  rfl

theorem succeeds_eq_false (a : Answers) (h : a.allocChrdevRegion = none) :
    a.succeeds = false := by
  rw [Answers.succeeds, Answers.enables, h]
  rfl

/-- Of what is kept, all but the node is of the BAR. -/
theorem mem_bar_of_mem_kept (a : Answers) (dev : κ) (r : Resource κ) (hnot : ¬ r.IsNode)
    (hr : r ∈ a.kept dev) : a.enables = true ∧ r ∈ a.bar dev := by
  cases h : a.succeeds with
  | false =>
      rw [kept_of_not_succeeds a dev h] at hr
      by_cases hen : a.enables = true
      · rw [if_pos hen] at hr
        exact ⟨hen, hr⟩
      · rw [if_neg hen] at hr
        exact absurd hr List.not_mem_nil
  | true =>
      rw [kept_of_succeeds a dev h] at hr
      simp only [Answers.succeeds, Bool.and_eq_true] at h
      exact ⟨h.1, (List.mem_append.mp hr).resolve_left
        (fun hnode => hnot (node_of_mem_node a r hnode))⟩

/-- A probe keeps a node only if it succeeds. -/
theorem succeeds_of_mem_kept (a : Answers) (dev : κ) (r : Resource κ) (hnode : r.IsNode)
    (hr : r ∈ a.kept dev) : a.succeeds = true := by
  by_contra h
  rw [kept_of_not_succeeds a dev (Bool.eq_false_of_not_eq_true h)] at hr
  split at hr
  · exact not_node_of_mem_bar a dev r hr hnode
  · exact absurd hr List.not_mem_nil

theorem iomap_mem_kept (a : Answers) (dev : κ) (p : Pointer) (hp : .iomap p ∈ a.kept dev) :
    p = a.pciIomap ∧ a.pciIomap ≠ 0 := by
  rcases ((mem_bar_iff a dev _).mp (mem_bar_of_mem_kept a dev _ id hp).2).2 with
    heq | ⟨heq, hne⟩ | ⟨heq, -⟩
  · exact nomatch heq
  · exact ⟨Resource.iomap.inj heq, hne⟩
  · exact nomatch heq

theorem region_mem_kept (a : Answers) (dev dev' : κ) (h : .region dev' ∈ a.kept dev) :
    dev' = dev := by
  rcases ((mem_bar_iff a dev _).mp (mem_bar_of_mem_kept a dev _ id h).2).2 with
    heq | ⟨heq, -⟩ | ⟨heq, -⟩
  · exact Resource.region.inj heq
  · exact nomatch heq
  · exact nomatch heq

theorem irq_mem_kept (a : Answers) (dev : κ) (line : Byte) (h : .irq line ∈ a.kept dev) :
    a.enables = true ∧ a.pciRequestRegion = true ∧ a.requestIrq = true ∧
      line = a.interruptLine := by
  rcases mem_bar_of_mem_kept a dev _ id h with ⟨hen, hbar⟩
  rcases (mem_bar_iff a dev _).mp hbar with ⟨hreg, heq | ⟨heq, -⟩ | ⟨heq, hirq⟩⟩
  · exact nomatch heq
  · exact nomatch heq
  · exact ⟨hen, hreg, hirq, Resource.irq.inj heq⟩

/-- A failed probe keeps an interrupt line exactly if it strands it. -/
theorem irq_mem_kept_iff (a : Answers) (dev : κ) (h : a.succeeds = false) (line : Byte) :
    .irq line ∈ a.kept dev ↔ a.strandsIrq line = true := by
  unfold Answers.strandsIrq
  constructor
  · intro hr
    rcases irq_mem_kept a dev line hr with ⟨hen, hreg, hirq, rfl⟩
    simp only [Answers.succeeds, Answers.attaches, hen, hreg, hirq, Bool.true_and] at h
    simp only [hen, hreg, hirq, h, Bool.true_and, Bool.not_false, beq_self_eq_true]
  · intro hs
    simp only [Bool.and_eq_true, Bool.not_eq_true', beq_iff_eq] at hs
    rcases hs with ⟨⟨⟨⟨hen, hreg⟩, hirq⟩, -⟩, rfl⟩
    rw [kept_of_not_succeeds a dev h, if_pos hen]
    exact (mem_bar_iff a dev _).mpr ⟨hreg, Or.inr (Or.inr ⟨rfl, hirq⟩)⟩

/-- The globals a probe that succeeds leaves. -/
theorem globals_of_succeeds (dev : κ) (a : Answers) (g : Globals κ) (h : a.succeeds = true) :
    (pciProbe dev a g).globals.Of a := by
  simp only [Answers.succeeds, Answers.attaches, Bool.and_eq_true] at h
  rcases h with ⟨hen, ⟨hreg, hirq⟩, hmem⟩
  rcases isSome_of_enables a hen with ⟨n, halloc⟩
  rw [Globals.Of, (pciProbe_of_enables dev a g n halloc hen).2.2, Answers.node, halloc]
  unfold probeBar probeIrq probeChecks
  simp only [hreg, hirq, hmem, if_true]
  exact ⟨rfl, rfl, rfl⟩

/-- With these globals a remove releases what the probe acquired, the other
    way round. -/
theorem pciRemove_eq (dev : κ) (a : Answers) (g : Globals κ) (hg : g.Of a)
    (h : a.succeeds = true) (hp : a.pciIomap ≠ 0) :
    pciRemove dev g = (a.kept dev).reverse := by
  rcases hg with ⟨hirq, hmmio, hnode⟩
  have hsplit : pciRemove dev g =
      [.irq g.pciIrq, .iomap g.mmio, .region dev] ++ g.node.reverse := rfl
  rw [kept_of_succeeds a dev h, List.reverse_append, hsplit, hnode, hirq, hmmio]
  simp only [Answers.succeeds, Answers.attaches, Bool.and_eq_true] at h
  rw [Answers.bar, if_pos h.2.1.1, if_neg hp, if_pos h.2.1.2]
  rfl

/-- The class is registered. -/
def Resource.isClass : Resource κ → Bool
  | .cls _ => true
  | _ => false

/-- The kernel hands out what is free. -/
structure Answers.Admissible (a : Answers) (dev : κ) (held : List (Hold κ (Resource κ))) :
    Prop where
  number : ∀ x ∈ held, a.allocChrdevRegion.map .chrdevRegion ≠ some x.item
  cls : ∀ x ∈ held, x.item.isClass = true → isErr a.classCreate = true
  region : ∀ x ∈ held, x.item = .region dev → a.pciRequestRegion = false
  mapping : ∀ x ∈ held, x.item = .iomap a.pciIomap → a.pciIomap = 0

/-- A bound device, and how its probe was answered. -/
structure Binding (κ : Type) where
  device : κ
  answers : Answers

/-- The driver and the devices bound to it, in the order they were probed. -/
structure Core (κ : Type) where
  driver : Loaded κ
  bound : List (Binding κ)

/-- The calls of the PCI core. -/
inductive CoreLabel (κ : Type) where
  | probe (dev : κ) (a : Answers)
  | remove (dev : κ)

/-- The device of a call. -/
def CoreLabel.device : CoreLabel κ → κ
  | .probe dev _ => dev
  | .remove dev => dev

/-- What a call asks of the kernel. -/
def Core.calls (s : Core κ) : CoreLabel κ → List (Ledger.Call (Resource κ))
  | .probe dev a => (pciProbe dev a s.driver.globals).calls
  | .remove dev => (pciRemove dev s.driver.globals).map .release

/-- A probe that is given a number is made while no bound device's probe has
    succeeded. A remove is of a device whose probe succeeded and mapped the
    BAR, while no other bound device's probe was rejected after `request_irq`
    on the same line. -/
def Orderly (s : Core κ) : CoreLabel κ → Prop
  | .probe _ a => a.allocChrdevRegion = none ∨ ∀ b ∈ s.bound, b.answers.succeeds = false
  | .remove dev => ∀ b ∈ s.bound, b.device = dev →
      b.answers.succeeds = true ∧ b.answers.pciIomap ≠ 0 ∧
        ∀ b' ∈ s.bound, b'.device ≠ dev → b'.answers.strandsIrq b.answers.interruptLine = false

/-- What the probe of a bound device left acquired. -/
def Binding.holds (b : Binding κ) : List (Hold κ (Resource κ)) :=
  own b.device (b.answers.kept b.device)

/-- Nothing has gone wrong so far. -/
structure Settled (s : Core κ) : Prop where
  held : s.driver.held = s.bound.flatMap Binding.holds
  nodup : (s.bound.map Binding.device).Nodup
  last : ∀ older b newer, s.bound = older ++ b :: newer → b.answers.succeeds = true →
    (∀ b' ∈ newer, b'.answers.allocChrdevRegion = none) ∧ s.driver.globals.Of b.answers ∧
      b.answers.Admissible b.device (older.flatMap Binding.holds)

/-- The module has been loaded. -/
def Core.loaded (κ : Type) : Core κ := { driver := .fresh κ, bound := [] }

theorem settled_loaded : Settled (Core.loaded κ) where
  held := rfl
  nodup := List.nodup_nil
  last := by
    intro older b newer hsplit _
    exact absurd hsplit (nil_ne_split older newer b)

/-- What bound devices hold. -/
theorem mem_flatMap_holds (bs : List (Binding κ)) (o : κ) (r : Resource κ) :
    ⟨o, r⟩ ∈ bs.flatMap Binding.holds ↔ ∃ b ∈ bs, b.device = o ∧ r ∈ b.answers.kept o := by
  rw [List.mem_flatMap]
  constructor
  · rintro ⟨b, hb, hmem⟩
    rcases List.mem_map.mp hmem with ⟨r', hr', heq⟩
    rw [Hold.mk.injEq] at heq
    rcases heq with ⟨rfl, rfl⟩
    exact ⟨b, hb, rfl, hr'⟩
  · rintro ⟨b, hb, rfl, hr⟩
    exact ⟨b, hb, List.mem_map.mpr ⟨r, hr, rfl⟩⟩

/-- Devices that were given no number hold nothing. -/
theorem flatMap_holds_eq_nil (bs : List (Binding κ))
    (h : ∀ b ∈ bs, b.answers.allocChrdevRegion = none) : bs.flatMap Binding.holds = [] := by
  refine List.flatMap_eq_nil_iff.mpr (fun b hb => ?_)
  rw [Binding.holds, kept_eq_nil b.answers b.device (h b hb)]
  rfl

/-- A device that is bound, in the order of probing: nobody else is it. -/
theorem bound_split (s : Core κ) (h : Settled s) (dev : κ)
    (hdev : dev ∈ s.bound.map Binding.device) :
    ∃ older b newer, s.bound = older ++ b :: newer ∧ b.device = dev ∧
      ∀ b' ∈ older ++ newer, b'.device ≠ dev := by
  rcases List.mem_map.mp hdev with ⟨b, hb, rfl⟩
  rcases List.append_of_mem hb with ⟨older, newer, hsplit⟩
  refine ⟨older, b, newer, hsplit, rfl, fun b' hb' heq => ?_⟩
  have hnodup := h.nodup
  rw [hsplit, List.map_append, List.map_cons] at hnodup
  have hnot := (List.nodup_cons.mp (List.nodup_middle.mp hnodup)).1
  rw [← List.map_append] at hnot
  exact hnot (List.mem_map.mpr ⟨b', hb', heq⟩)

/-- Before the device in the globals, no probe has succeeded. -/
theorem older_not_succeeds (s : Core κ) (h : Settled s) (older newer : List (Binding κ))
    (b : Binding κ) (hsplit : s.bound = older ++ b :: newer) (hb : b.answers.succeeds = true) :
    ∀ b' ∈ older, b'.answers.succeeds = false := by
  intro b' hb'
  rw [← Bool.not_eq_true]
  intro hs
  rcases List.append_of_mem hb' with ⟨pre, post, rfl⟩
  have hlast := h.last pre b' (post ++ b :: newer) (by rw [hsplit, List.append_assoc]; rfl) hs
  have hnone := hlast.1 b (List.mem_append_right post List.mem_cons_self)
  exact Bool.false_ne_true ((succeeds_eq_false b.answers hnone).symm.trans hb)

/-- Nor has one that was given no number. -/
theorem newer_not_succeeds (s : Core κ) (h : Settled s) (older newer : List (Binding κ))
    (b : Binding κ) (hsplit : s.bound = older ++ b :: newer) (hb : b.answers.succeeds = true) :
    ∀ b' ∈ newer, b'.answers.succeeds = false :=
  fun b' hb' => succeeds_eq_false b'.answers ((h.last older b newer hsplit hb).1 b' hb')

/-- Nothing that the probe of a device in orderly use acquired is held by an
    older one as well. -/
theorem fresh_of_orderly (s : Core κ) (h : Settled s) (dev : κ) (older newer : List (Binding κ))
    (b : Binding κ) (hsplit : s.bound = older ++ b :: newer) (hb : b.device = dev)
    (hother : ∀ b' ∈ older ++ newer, b'.device ≠ dev) (ho : Orderly s (.remove dev))
    (r : Resource κ) (hr : r ∈ b.answers.kept dev) :
    ∀ x ∈ older.flatMap Binding.holds, x.item ≠ r := by
  rintro ⟨o, r'⟩ hx rfl
  rcases ho b (hsplit ▸ List.mem_append_cons_self) hb with ⟨hsucc, -, hirq⟩
  rcases (mem_flatMap_holds older o r').mp hx with ⟨b', hb', rfl, hr'⟩
  have hfail := older_not_succeeds s h older newer b hsplit hsucc b' hb'
  have hne := hother b' (List.mem_append_left newer hb')
  -- The kernel hands out no BAR or mapping that is held; a line may be shared.
  cases r' with
  | region d => exact hne ((region_mem_kept _ _ _ hr').symm.trans (region_mem_kept _ _ _ hr))
  | iomap p =>
      rcases iomap_mem_kept _ _ _ hr with ⟨rfl, hne0⟩
      exact hne0 ((h.last older b newer hsplit hsucc).2.2.mapping _ hx rfl)
  | irq line =>
      have hstrands := hirq b' (by rw [hsplit]; exact List.mem_append_left _ hb') hne
      rw [← (irq_mem_kept _ _ _ hr).2.2.2] at hstrands
      exact Bool.false_ne_true
        (hstrands.symm.trans ((irq_mem_kept_iff _ _ hfail line).mp hr'))
  | _ =>
      exact Bool.false_ne_true
        (hfail.symm.trans (succeeds_of_mem_kept _ _ _ (by exact trivial) hr'))

/-- A probe that is given no number asks nothing of the kernel. -/
theorem pciProbe_none (dev : κ) (a : Answers) (g : Globals κ) (h : a.allocChrdevRegion = none) :
    pciProbe dev a g = errorReturn g := by
  rw [pciProbe, h]

variable [DecidableEq κ]

instance (a : Answers) (dev : κ) (held : List (Hold κ (Resource κ))) :
    Decidable (a.Admissible dev held) :=
  decidable_of_iff
    ((∀ x ∈ held, a.allocChrdevRegion.map .chrdevRegion ≠ some x.item) ∧
      (∀ x ∈ held, x.item.isClass = true → isErr a.classCreate = true) ∧
      (∀ x ∈ held, x.item = .region dev → a.pciRequestRegion = false) ∧
      (∀ x ∈ held, x.item = .iomap a.pciIomap → a.pciIomap = 0))
    ⟨fun h => ⟨h.1, h.2.1, h.2.2.1, h.2.2.2⟩, fun h => ⟨h.number, h.cls, h.region, h.mapping⟩⟩

instance (s : Core κ) : (l : CoreLabel κ) → Decidable (Orderly s l)
  | .probe _ a => inferInstanceAs (Decidable (a.allocChrdevRegion = none ∨
      ∀ b ∈ s.bound, b.answers.succeeds = false))
  | .remove dev => inferInstanceAs (Decidable (∀ b ∈ s.bound, b.device = dev →
      b.answers.succeeds = true ∧ b.answers.pciIomap ≠ 0 ∧
        ∀ b' ∈ s.bound, b'.device ≠ dev → b'.answers.strandsIrq b.answers.interruptLine = false))

/-- One call of the PCI core. -/
def Core.step (s : Core κ) (l : CoreLabel κ) :
    Option (Core κ × List (Ledger.Call (Resource κ))) :=
  match l with
  | .probe dev a =>
      if dev ∉ s.bound.map Binding.device ∧ a.Admissible dev s.driver.held then
        let p := s.driver.probe dev a
        -- A value of at least 0 is taken as success.
        some ({ driver := p.1
                bound := if p.2 < 0 then s.bound else s.bound ++ [⟨dev, a⟩] }, s.calls l)
      else none
  | .remove dev =>
      if dev ∈ s.bound.map Binding.device then
        some ({ driver := s.driver.remove dev
                bound := s.bound.filter (fun b => b.device ≠ dev) }, s.calls l)
      else none

/-- The PCI core with the driver. -/
def core : Machine (Core κ) (CoreLabel κ) (Ledger.Call (Resource κ)) where
  step := Core.step

/-- Every release of the call targets a resource that is held and was acquired
    by the probe of the call's device, and the resources of other devices are
    untouched. -/
def SafeStep (s : Core κ) (l : CoreLabel κ) : Prop :=
  AllProper l.device s.driver.held (s.calls l) ∧
    ∀ s' es, core.step s l = some (s', es) → ∀ other, other ≠ l.device →
      holdings other s'.driver.held = holdings other s.driver.held ∧
        s'.driver.enableCnt other = s.driver.enableCnt other

theorem step_probe_inv (s s' : Core κ) (dev : κ) (a : Answers)
    (es : List (Ledger.Call (Resource κ))) (h : core.step s (.probe dev a) = some (s', es)) :
    (dev ∉ s.bound.map Binding.device ∧ a.Admissible dev s.driver.held) ∧
      s' = { driver := (s.driver.probe dev a).1, bound := s.bound ++ [⟨dev, a⟩] } := by
  change Core.step s (.probe dev a) = some (s', es) at h
  simp only [Core.step] at h
  split at h
  · rename_i hg
    simp only [Option.some.injEq, Prod.mk.injEq] at h
    -- The value returned is 0 or 1.
    have hret : ¬ (s.driver.probe dev a).2 < 0 := by
      have hval : (s.driver.probe dev a).2 = _ := pciProbe_ret dev a s.driver.globals
      rw [hval]
      split <;> decide
    rw [if_neg hret] at h
    exact ⟨hg, h.1.symm⟩
  · exact nomatch h

theorem step_remove_inv (s s' : Core κ) (dev : κ) (es : List (Ledger.Call (Resource κ)))
    (h : core.step s (.remove dev) = some (s', es)) :
    dev ∈ s.bound.map Binding.device ∧
      s' = { driver := s.driver.remove dev
             bound := s.bound.filter (fun b => b.device ≠ dev) } := by
  change Core.step s (.remove dev) = some (s', es) at h
  simp only [Core.step] at h
  split at h
  · rename_i hg
    simp only [Option.some.injEq, Prod.mk.injEq] at h
    exact ⟨hg, h.1.symm⟩
  · exact nomatch h

/-- An orderly probe gives up nothing but what it acquired, and adds what it
    keeps. -/
theorem orderly_probe (s : Core κ) (h : Settled s) (dev : κ) (a : Answers)
    (ho : Orderly s (.probe dev a)) :
    performAll dev s.driver.held (s.calls (.probe dev a)) =
        s.driver.held ++ own dev (a.kept dev) ∧
      AllProper dev s.driver.held (s.calls (.probe dev a)) := by
  rcases ho with hnone | hbound
  · rw [Core.calls, pciProbe_none dev a _ hnone, kept_eq_nil a dev hnone]
    exact ⟨(List.append_nil _).symm, trivial⟩
  · have hbar : ∀ x ∈ s.driver.held, ¬ x.item.IsNode := by
      rintro ⟨o, r⟩ hx hnode
      rw [h.held] at hx
      rcases (mem_flatMap_holds _ o r).mp hx with ⟨b, hb, -, hr⟩
      exact Bool.false_ne_true
        ((hbound b hb).symm.trans (succeeds_of_mem_kept b.answers o r hnode hr))
    have hl := performAll_of_leaves Resource.IsNode dev s.driver.held hbar [] _ _
      (pciProbe_leaves dev a s.driver.globals)
    rw [own, List.map_nil, List.append_nil] at hl
    exact hl

/-- An orderly remove gives up exactly what the device's probe acquired. -/
theorem orderly_remove (s : Core κ) (h : Settled s) (dev : κ) (older newer : List (Binding κ))
    (b : Binding κ) (hsplit : s.bound = older ++ b :: newer) (hb : b.device = dev)
    (hother : ∀ b' ∈ older ++ newer, b'.device ≠ dev) (ho : Orderly s (.remove dev)) :
    performAll dev s.driver.held (s.calls (.remove dev)) = older.flatMap Binding.holds ∧
      AllProper dev s.driver.held (s.calls (.remove dev)) := by
  rcases ho b (hsplit ▸ List.mem_append_cons_self) hb with ⟨hsucc, hmap, -⟩
  rcases h.last older b newer hsplit hsucc with ⟨hnewer, hglobals, -⟩
  have hheld : s.driver.held = older.flatMap Binding.holds ++ own dev (b.answers.kept dev) := by
    rw [h.held, hsplit, List.flatMap_append, List.flatMap_cons, flatMap_holds_eq_nil newer hnewer,
      List.append_nil, Binding.holds, hb]
  have hfresh := fresh_of_orderly s h dev older newer b hsplit hb hother ho
  have hl := performAll_of_leaves (fun r => ∀ x ∈ older.flatMap Binding.holds, x.item ≠ r) dev
    (older.flatMap Binding.holds) (fun x hx hP => hP x hx rfl) _ _ []
    (leaves_releases _ _ _ (List.reverse_perm (b.answers.kept dev))
      (fun r hr => hfresh r (List.mem_reverse.mp hr)))
  rw [Core.calls, hheld, pciRemove_eq dev b.answers _ hglobals hsucc hmap]
  rw [show own dev ([] : List (Resource κ)) = [] from rfl, List.append_nil] at hl
  exact hl

/-- A probe writes over `cpcidev_cdev`, so it is safe only if no bound device
    uses it. -/
theorem orderly_of_proper_probe (s : Core κ) (h : Settled s) (dev : κ) (a : Answers)
    (hdev : dev ∉ s.bound.map Binding.device)
    (hp : AllProper dev s.driver.held (s.calls (.probe dev a))) : Orderly s (.probe dev a) := by
  cases halloc : a.allocChrdevRegion with
  | none => exact Or.inl halloc
  | some n =>
      refine Or.inr (fun b hb => ?_)
      rw [← Bool.not_eq_true]
      intro hsucc
      rw [Core.calls, pciProbe, halloc] at hp
      -- The call after the allocation of the number.
      have hinit : ∀ x ∈ s.driver.held ++ [⟨dev, .chrdevRegion n⟩], x.item.isCdev = true →
          x.owner = dev := hp.2.1
      rcases isSome_of_enables b.answers (by
        simp only [Answers.succeeds, Bool.and_eq_true] at hsucc
        exact hsucc.1) with ⟨n', halloc'⟩
      have hcdev : ⟨b.device, .cdev n'⟩ ∈ s.driver.held := by
        rw [h.held]
        refine (mem_flatMap_holds _ _ _).mpr ⟨b, hb, rfl, ?_⟩
        rw [kept_of_succeeds _ _ hsucc, Answers.node, halloc']
        simp
      exact hdev (List.mem_map.mpr ⟨b, hb, hinit _ (List.mem_append_left _ hcdev) rfl⟩)

/-- A remove releases a number, a mapping and an interrupt line, so it is safe
    only if they are the device's. -/
theorem orderly_of_proper_remove (s : Core κ) (h : Settled s) (dev : κ)
    (older newer : List (Binding κ)) (b : Binding κ) (hsplit : s.bound = older ++ b :: newer)
    (hb : b.device = dev) (hother : ∀ b' ∈ older ++ newer, b'.device ≠ dev)
    (hp : AllProper dev s.driver.held (s.calls (.remove dev))) : Orderly s (.remove dev) := by
  have hunique : ∀ b' ∈ s.bound, b'.device = dev → b' = b := by
    intro b' hb' hdev
    rw [hsplit] at hb'
    rcases List.mem_append.mp hb' with hold | hnew
    · exact absurd hdev (hother b' (List.mem_append_left newer hold))
    · rcases List.mem_cons.mp hnew with rfl | hnew
      · rfl
      · exact absurd hdev (hother b' (List.mem_append_right older hnew))
  have hkept : ∀ r ∈ pciRemove dev s.driver.globals, r ∈ b.answers.kept dev := by
    intro r hr
    have hheld := mem_of_proper_release dev _ _ r hr hp
    rw [h.held] at hheld
    rcases (mem_flatMap_holds _ dev r).mp hheld with ⟨b', hb', hdev, hmem⟩
    rw [← hunique b' hb' hdev]
    exact hmem
  have hsucc : b.answers.succeeds = true :=
    succeeds_of_mem_kept b.answers dev (.chrdevRegion s.driver.globals.devNum) trivial
      (hkept _ (by simp [pciRemove]))
  have hmap := (iomap_mem_kept b.answers dev s.driver.globals.mmio
    (hkept _ (by simp [pciRemove]))).2
  intro b' hb' hdev
  rw [hunique b' hb' hdev]
  refine ⟨hsucc, hmap, fun b'' hb'' hne => ?_⟩
  rw [← Bool.not_eq_true]
  intro hstrands
  rcases h.last older b newer hsplit hsucc with ⟨hnewer, hglobals, -⟩
  -- A line stranded by an older device: `free_irq` takes the oldest handler.
  have hfail : b''.answers.succeeds = false := by
    simp only [Answers.strandsIrq, Bool.and_eq_true, Bool.not_eq_true'] at hstrands
    rw [Answers.succeeds, Answers.attaches, hstrands.1.2, Bool.and_false, Bool.and_false]
  have hirq := (irq_mem_kept_iff b''.answers b''.device hfail _).mpr hstrands
  have hold : b'' ∈ older := by
    rw [hsplit] at hb''
    rcases List.mem_append.mp hb'' with hold | hnew
    · exact hold
    · rcases List.mem_cons.mp hnew with rfl | hnew
      · exact absurd hb hne
      · rw [kept_eq_nil _ _ (hnewer b'' hnew)] at hirq
        exact absurd hirq List.not_mem_nil
  have hmem : ⟨b''.device, .irq b.answers.interruptLine⟩ ∈ older.flatMap Binding.holds :=
    (mem_flatMap_holds _ _ _).mpr ⟨b'', hold, rfl, hirq⟩
  rcases holder_append_of_mem _ ((b :: newer).flatMap Binding.holds) _ hmem with ⟨y, hy, hholder⟩
  rw [← List.flatMap_append, ← hsplit, ← h.held, ← hglobals.1] at hholder
  have howner : y.owner = dev := Option.some.inj (hholder.symm.trans hp.1)
  rcases (mem_flatMap_holds _ _ _).mp hy with ⟨b₀, hb₀, hdev₀, -⟩
  exact hother b₀ (List.mem_append_left newer hb₀) (hdev₀.trans howner)

/-- An orderly probe leaves nothing wrong. -/
theorem settled_probe (s : Core κ) (h : Settled s) (dev : κ) (a : Answers)
    (hdev : dev ∉ s.bound.map Binding.device) (hadm : a.Admissible dev s.driver.held)
    (ho : Orderly s (.probe dev a)) :
    Settled { driver := (s.driver.probe dev a).1, bound := s.bound ++ [⟨dev, a⟩] } where
  held := by
    rw [List.flatMap_append, ← h.held, List.flatMap_singleton]
    exact (orderly_probe s h dev a ho).1
  nodup := by
    rw [List.map_append, List.map_singleton]
    refine List.nodup_append.mpr ⟨h.nodup, List.nodup_singleton dev, fun x hx y hy heq => ?_⟩
    rw [heq, List.mem_singleton.mp hy] at hx
    exact hdev hx
  last := by
    intro older b newer hsplit hb
    rcases concat_eq_split _ _ _ _ _ hsplit with ⟨newer', hold, rfl⟩ | ⟨rfl, rfl, rfl⟩
    -- An older device is in the globals: this one was given no number.
    · rcases h.last older b newer' hold hb with ⟨hnewer, hglobals, hadm'⟩
      have hnone : a.allocChrdevRegion = none := by
        refine ho.resolve_right (fun hbound => ?_)
        have hmem : b ∈ s.bound := hold ▸ List.mem_append_cons_self
        exact Bool.false_ne_true ((hbound b hmem).symm.trans hb)
      refine ⟨fun b' hb' => ?_, ?_, hadm'⟩
      · rcases List.mem_append.mp hb' with hb' | hb'
        · exact hnewer b' hb'
        · rw [List.mem_singleton.mp hb']
          exact hnone
      · change (pciProbe dev a s.driver.globals).globals.Of b.answers
        rw [pciProbe_none dev a _ hnone]
        exact hglobals
    · refine ⟨fun b' hb' => absurd hb' List.not_mem_nil, ?_, ?_⟩
      · exact globals_of_succeeds dev a s.driver.globals hb
      · rw [← h.held]
        exact hadm

/-- An orderly remove leaves nothing wrong. -/
theorem settled_remove (s : Core κ) (h : Settled s) (dev : κ)
    (hdev : dev ∈ s.bound.map Binding.device) (ho : Orderly s (.remove dev)) :
    Settled { driver := s.driver.remove dev
              bound := s.bound.filter (fun b => b.device ≠ dev) } := by
  rcases bound_split s h dev hdev with ⟨older, b, newer, hsplit, hb, hother⟩
  have hsucc := (ho b (hsplit ▸ List.mem_append_cons_self) hb).1
  have hfilter : s.bound.filter (fun b => b.device ≠ dev) = older ++ newer := by
    rw [hsplit, List.filter_append, List.filter_cons_of_neg (by simp [hb]),
      List.filter_eq_self.mpr (fun b' hb' => by
        simpa using hother b' (List.mem_append_left newer hb')),
      List.filter_eq_self.mpr (fun b' hb' => by
        simpa using hother b' (List.mem_append_right older hb'))]
  have hfailed : ∀ b' ∈ older ++ newer, b'.answers.succeeds = false := by
    intro b' hb'
    rcases List.mem_append.mp hb' with hold | hnew
    · exact older_not_succeeds s h older newer b hsplit hsucc b' hold
    · exact newer_not_succeeds s h older newer b hsplit hsucc b' hnew
  refine ⟨?_, ?_, ?_⟩
  · rw [hfilter, List.flatMap_append,
      flatMap_holds_eq_nil newer (h.last older b newer hsplit hsucc).1, List.append_nil]
    exact (orderly_remove s h dev older newer b hsplit hb hother ho).1
  · exact h.nodup.sublist (List.filter_sublist.map _)
  -- No device is left whose probe succeeded.
  · intro older' b' newer' hsplit' hsucc'
    have hmem : b' ∈ older ++ newer := by
      rw [hfilter.symm.trans hsplit']
      exact List.mem_append_right older' List.mem_cons_self
    exact absurd hsucc' (by rw [hfailed b' hmem]; exact Bool.false_ne_true)

/-- A call whose releases are proper is safe. -/
theorem safeStep_of_proper (s : Core κ) (l : CoreLabel κ)
    (hp : AllProper l.device s.driver.held (s.calls l)) : SafeStep s l := by
  refine ⟨hp, fun s' es hstep other hother => ?_⟩
  have hheld := holdings_performAll l.device other hother _ _ hp
  cases l with
  | probe dev a =>
      rcases step_probe_inv s s' dev a es hstep with ⟨-, rfl⟩
      refine ⟨hheld, ?_⟩
      exact (enableCnt_probe s.driver dev a other).trans (if_neg (fun h => hother h.1))
  | remove dev =>
      rcases step_remove_inv s s' dev es hstep with ⟨-, rfl⟩
      exact ⟨hheld, rfl⟩

/-- As long as nothing has gone wrong, the safe steps are the orderly ones. -/
theorem safeStep_iff (s s' : Core κ) (l : CoreLabel κ) (es : List (Ledger.Call (Resource κ)))
    (h : Settled s) (hstep : core.step s l = some (s', es)) : SafeStep s l ↔ Orderly s l := by
  cases l with
  | probe dev a =>
      rcases step_probe_inv s s' dev a es hstep with ⟨⟨hdev, -⟩, -⟩
      exact ⟨fun hsafe => orderly_of_proper_probe s h dev a hdev hsafe.1,
        fun ho => safeStep_of_proper s _ (orderly_probe s h dev a ho).2⟩
  | remove dev =>
      rcases step_remove_inv s s' dev es hstep with ⟨hdev, -⟩
      rcases bound_split s h dev hdev with ⟨older, b, newer, hsplit, hb, hother⟩
      exact ⟨fun hsafe => orderly_of_proper_remove s h dev older newer b hsplit hb hother hsafe.1,
        fun ho => safeStep_of_proper s _
          (orderly_remove s h dev older newer b hsplit hb hother ho).2⟩

theorem settled_step (s : Core κ) (l : CoreLabel κ) (s' : Core κ)
    (es : List (Ledger.Call (Resource κ))) (h : Settled s) (ho : Orderly s l)
    (hstep : core.step s l = some (s', es)) : Settled s' := by
  cases l with
  | probe dev a =>
      rcases step_probe_inv s s' dev a es hstep with ⟨⟨hdev, hadm⟩, rfl⟩
      exact settled_probe s h dev a hdev hadm ho
  | remove dev =>
      rcases step_remove_inv s s' dev es hstep with ⟨hdev, rfl⟩
      exact settled_remove s h dev hdev ho

/-- For any sequence of probes and removes of any devices, answered in any way
    the kernel may answer: all of them release only what their own device
    holds and leave the resources of others untouched exactly if all of them
    are orderly. -/
theorem releases_owned_iff (ls : List (CoreLabel κ)) (s : Core κ)
    (tr : List (Ledger.Call (Resource κ))) (hrun : core.run (Core.loaded κ) ls = some (s, tr)) :
    core.Along SafeStep (Core.loaded κ) ls ↔ core.Along Orderly (Core.loaded κ) ls :=
  core.along_iff_of_kept SafeStep Orderly Settled
    (fun s l s' es h hstep => safeStep_iff s s' l es h hstep)
    (fun s l s' es h ho hstep => settled_step s l s' es h ho hstep)
    (Core.loaded κ) settled_loaded ls s tr hrun

/-- Two devices, probed and removed in turn. -/
theorem releases_owned_in_turn :
    core.Along SafeStep (Core.loaded (Fin 2))
      [.probe 0 .granted, .remove 0, .probe 1 .granted, .remove 1] :=
  (releases_owned_iff _ _ _ rfl).mpr (by decide)

/-- A second device, probed while the first is in use: the class is already
    registered. -/
def Answers.refusedClass : Answers :=
  { Answers.granted with
    allocChrdevRegion := some 0x0FC00000
    classCreate := -17
    pciIomap := 0x4000 }

/-- A device whose probe failed at `request_irq` is removed all the same and
    frees an interrupt it does not have. And a second device, whose probe
    fails because the first is in use, writes over the first one's
    `cpcidev_cdev`, and frees the first one's interrupt when it is removed. -/
theorem releases_unowned :
    (∃ s tr, core.run (Core.loaded (Fin 2))
        [.probe 0 { Answers.granted with requestIrq := false }] = some (s, tr) ∧
      (core.step s (.remove 0)).isSome = true ∧ holder s.driver.held (.irq 11) = none ∧
      ¬ SafeStep s (.remove 0)) ∧
    (∃ s tr, core.run (Core.loaded (Fin 2)) [.probe 0 .granted] = some (s, tr) ∧
      (core.step s (.probe 1 .refusedClass)).isSome = true ∧
      ¬ SafeStep s (.probe 1 .refusedClass)) ∧
    (∃ s tr, core.run (Core.loaded (Fin 2)) [.probe 0 .granted, .probe 1 .refusedClass] =
        some (s, tr) ∧
      (core.step s (.remove 1)).isSome = true ∧ holder s.driver.held (.irq 11) = some 0 ∧
      ¬ SafeStep s (.remove 1)) := by
  refine ⟨⟨_, _, rfl, by decide, by decide, fun h => ?_⟩, ⟨_, _, rfl, by decide, fun h => ?_⟩,
    ⟨_, _, rfl, by decide, by decide, fun h => ?_⟩⟩
  · exact absurd h.1 (by decide)
  · exact absurd h.1 (by decide)
  · exact absurd h.1 (by decide)

end PcieCosim
