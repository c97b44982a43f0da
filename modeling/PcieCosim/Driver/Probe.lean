import PcieCosim.Driver.Ioctl
import PcieCosim.Lib.Ledger

/-!
# Probing and Removing a Device

`pci_probe` and `pci_remove` as the calls they make to the kernel.

Everything the kernel answers to a probe is in `Answers`: for each acquisition
whether it succeeds and what it hands out, and what the configuration space
says. What the driver does with the answers is then a function: the globals it
assigns, the calls it makes, in order, and the value it returns. The chain of
labels at the end of `pci_probe` is a chain of definitions, each of which makes
the call of its label and falls through to the next.

The calls go to a ledger of what is held. The enable count of a device, which
`pci_enable_device` raises and only `pci_disable_device` would lower, is kept
apart from it.

All globals are shared by all devices. In particular there is one `struct
cdev`, so `cdev_init` writes over the one behind every character device that
is still added, and `cdev_del` takes away the device number the structure was
last added under.

The labels undo exactly the four acquisitions before `pci_enable_device`.
Nothing undoes the later ones, and `pci_remove` does not disable the device,
so a probe leaves things as they were, by failing or by being followed by a
remove, exactly if it does not get past `pci_enable_device`.

## Main definitions

* `Resource`: What the driver acquires.
* `Answers`: What the kernel answers to a probe.
* `Globals`: The file-scope variables.
* `pciProbe`, `pciRemove`: The two functions.
* `Loaded`: The driver with what it holds.
* `Loaded.probe`, `Loaded.remove`: A probe and a remove, carried out.
* `Answers.enables`, `Answers.attaches`: How far a probe gets.
* `Answers.kept`: What a probe leaves acquired.
* `Leakless`: A probe, or a probe and a remove, leave things as they were.

## Theorems

* `pciProbe_ret`, `pciProbe_enabled`: What a probe returns and whether it
  enables the device.
* `pciProbe_leaves`: A probe undoes only its own acquisitions, and leaves what
  `Answers.kept` says.
* `probe_leakless_iff`: When probe and remove leak nothing.
* `probe_leaks`: Probes that do.
-/

namespace PcieCosim

open Bytes Ledger

/-- A device number. -/
abbrev DevNum := BitVec 32

/-- A pointer of the kernel; 0 is NULL. -/
abbrev Pointer := BitVec 64

/-- `IS_ERR`: the pointers that are error codes. -/
def isErr (p : Pointer) : Bool := 0xFFFFFFFFFFFFF001 ≤ p

/-- What the driver acquires for a device, devices being named by `κ`. -/
inductive Resource (κ : Type) where
  /-- A region of character device numbers, here of one. -/
  | chrdevRegion (n : DevNum)
  /-- `cpcidev_cdev`, added under a number. -/
  | cdev (n : DevNum)
  /-- The class `cpcidev_class`. -/
  | cls (p : Pointer)
  /-- A device node of a class. -/
  | device (p : Pointer) (n : DevNum)
  /-- The BAR of a device. -/
  | region (dev : κ)
  /-- A mapping. -/
  | iomap (p : Pointer)
  /-- `irq_handler` on an interrupt line, with the cookie `&major`. -/
  | irq (line : Byte)
  deriving DecidableEq

/-- `cpcidev_cdev` is behind the resource. -/
def Resource.isCdev {κ : Type} : Resource κ → Bool
  | .cdev _ => true
  | _ => false

/-- One of the resources behind the device node, which the labels at the end
    of `pci_probe` give up. -/
def Resource.IsNode {κ : Type} : Resource κ → Prop
  | .chrdevRegion _ => True
  | .cdev _ => True
  | .cls _ => True
  | .device _ _ => True
  | .region _ => False
  | .iomap _ => False
  | .irq _ => False

/-- What the kernel answers to the calls of a probe. -/
structure Answers where
  /-- The number handed out, unless the call fails. -/
  allocChrdevRegion : Option DevNum
  cdevAdd : Bool
  classCreate : Pointer
  deviceCreate : Pointer
  pciEnableDevice : Bool
  pciRequestRegion : Bool
  pciIomap : Pointer
  /-- The byte at `PCI_INTERRUPT_LINE`. -/
  interruptLine : Byte
  requestIrq : Bool
  /-- The BAR is `IORESOURCE_MEM`. -/
  resourceMem : Bool
  deriving DecidableEq

/-- The file-scope variables. Of `cpcidev_cdev` it is the device number that
    `cdev_add` stores in it. -/
structure Globals (κ : Type) where
  pciIrq : Byte
  major : Word
  pdev : Option κ
  mmio : Pointer
  cpcidevClass : Pointer
  cpcidevDevice : Pointer
  cpcidevCdev : DevNum
  devNum : DevNum

/-- The resources behind the device node, as the globals name them. -/
def Globals.node {κ : Type} (g : Globals κ) : List (Resource κ) :=
  [.chrdevRegion g.devNum, .cdev g.cpcidevCdev, .cls g.cpcidevClass,
    .device g.cpcidevClass g.devNum]

/-- The globals when the module is loaded. -/
def Globals.zero (κ : Type) : Globals κ :=
  { pciIrq := 0
    major := 0
    pdev := none
    mmio := 0
    cpcidevClass := 0
    cpcidevDevice := 0
    cpcidevCdev := 0
    devNum := 0 }

/-- A probe in which nothing fails. -/
def Answers.granted : Answers :=
  { allocChrdevRegion := some 0x0FB00000
    cdevAdd := true
    classCreate := 0x1000
    deviceCreate := 0x2000
    pciEnableDevice := true
    pciRequestRegion := true
    pciIomap := 0x3000
    interruptLine := 11
    requestIrq := true
    resourceMem := true }

/-- What a probe does. -/
structure Probed (κ : Type) where
  globals : Globals κ
  calls : List (Ledger.Call (Resource κ))
  /-- The enable count of the device is raised. -/
  enabled : Bool
  accesses : List Access
  ret : Int

variable {κ : Type}

/-- Make calls first. -/
def Probed.after (cs : List (Ledger.Call (Resource κ))) (p : Probed κ) : Probed κ :=
  { p with calls := cs ++ p.calls }

/-- The label `error`. -/
def errorReturn (g : Globals κ) : Probed κ :=
  { globals := g, calls := [], enabled := false, accesses := [], ret := 1 }

/-- The label `error_cdev_add`. -/
def errorCdevAdd (g : Globals κ) : Probed κ :=
  (errorReturn g).after [.release (.chrdevRegion g.devNum)]

/-- The label `error_class`. -/
def errorClass (g : Globals κ) : Probed κ :=
  (errorCdevAdd g).after [.release (.cdev g.cpcidevCdev)]

/-- The label `error_device`. -/
def errorDevice (g : Globals κ) : Probed κ :=
  (errorClass g).after [.release (.cls g.cpcidevClass)]

/-- The label `error_pci`. -/
def errorPci (g : Globals κ) : Probed κ :=
  (errorDevice g).after [.release (.device g.cpcidevClass g.devNum)]

/-- The sanity checks and the end of `pci_probe`. -/
def probeChecks (a : Answers) (g : Globals κ) : Probed κ :=
  if a.resourceMem then
    { globals := g, calls := [], enabled := false, accesses := [.iowrite32 0xAB 0], ret := 0 }
  else errorPci g

/-- From the IRQ setup on. -/
def probeIrq (a : Answers) (g : Globals κ) : Probed κ :=
  let g := { g with pciIrq := a.interruptLine }
  if a.requestIrq then (probeChecks a g).after [.acquire (.irq g.pciIrq)]
  else errorPci g

/-- From `pci_request_region` on. That `pci_iomap` succeeds is not checked. -/
def probeBar (dev : κ) (a : Answers) (g : Globals κ) : Probed κ :=
  if a.pciRequestRegion then
    let g := { g with mmio := a.pciIomap }
    (probeIrq a g).after
      (.acquire (.region dev) :: if a.pciIomap = 0 then [] else [.acquire (.iomap a.pciIomap)])
  else errorPci g

/-- From `pci_enable_device` on. -/
def probePci (dev : κ) (a : Answers) (g : Globals κ) : Probed κ :=
  let g := { g with pdev := some dev }
  if a.pciEnableDevice then { probeBar dev a g with enabled := true }
  else errorPci g

/-- From `device_create` on. -/
def probeDevice (dev : κ) (a : Answers) (g : Globals κ) : Probed κ :=
  let g := { g with cpcidevDevice := a.deviceCreate }
  if isErr g.cpcidevDevice then errorDevice g
  else (probePci dev a g).after [.acquire (.device g.cpcidevClass g.devNum)]

/-- From `class_create` on. -/
def probeClass (dev : κ) (a : Answers) (g : Globals κ) : Probed κ :=
  let g := { g with cpcidevClass := a.classCreate }
  if isErr g.cpcidevClass then errorClass g
  else (probeDevice dev a g).after [.acquire (.cls g.cpcidevClass)]

/-- From `cdev_init` on. `cdev_add` stores the number whether or not it
    succeeds. -/
def probeCdev (dev : κ) (a : Answers) (g : Globals κ) : Probed κ :=
  let g := { g with cpcidevCdev := g.devNum }
  Probed.after [.overwrite Resource.isCdev]
    (if a.cdevAdd then (probeClass dev a g).after [.acquire (.cdev g.devNum)]
    else errorCdevAdd g)

/-- `pci_probe`. -/
def pciProbe (dev : κ) (a : Answers) (g : Globals κ) : Probed κ :=
  match a.allocChrdevRegion with
  | none => errorReturn g
  | some n =>
      let g := { g with devNum := n, major := n >>> 20 }
      (probeCdev dev a g).after [.acquire (.chrdevRegion n)]

/-- What `pci_remove` releases, in order. -/
def pciRemove (dev : κ) (g : Globals κ) : List (Resource κ) :=
  [.irq g.pciIrq, .iomap g.mmio, .region dev, .device g.cpcidevClass g.devNum,
    .cls g.cpcidevClass, .cdev g.cpcidevCdev, .chrdevRegion g.devNum]

/-- The driver, with what is held and how often each device is enabled. -/
structure Loaded (κ : Type) where
  globals : Globals κ
  held : List (Hold κ (Resource κ))
  enableCnt : κ → Nat

/-- The driver when the module is loaded, holding nothing. -/
def Loaded.fresh (κ : Type) : Loaded κ :=
  { globals := .zero κ, held := [], enableCnt := fun _ => 0 }

namespace Answers

/-- The probe gets past `pci_enable_device`. -/
def enables (a : Answers) : Bool :=
  a.allocChrdevRegion.isSome && a.cdevAdd && !isErr a.classCreate && !isErr a.deviceCreate &&
    a.pciEnableDevice

/-- Nothing after `pci_enable_device` makes the probe fail. -/
def attaches (a : Answers) : Bool := a.pciRequestRegion && a.requestIrq && a.resourceMem

/-- The resources behind the device node. -/
def node (κ : Type) (a : Answers) : List (Resource κ) :=
  match a.allocChrdevRegion with
  | none => []
  | some n => [.chrdevRegion n, .cdev n, .cls a.classCreate, .device a.classCreate n]

/-- The resources acquired after `pci_enable_device`. -/
def bar (dev : κ) (a : Answers) : List (Resource κ) :=
  if a.pciRequestRegion then
    (.region dev :: if a.pciIomap = 0 then [] else [.iomap a.pciIomap]) ++
      (if a.requestIrq then [.irq a.interruptLine] else [])
  else []

/-- What a probe leaves acquired. -/
def kept (dev : κ) (a : Answers) : List (Resource κ) :=
  if a.enables then (if a.attaches then a.node κ else []) ++ a.bar dev else []

end Answers

/-- The globals a probe that gets past `pci_enable_device` has by then. -/
def Globals.enabling (g : Globals κ) (dev : κ) (a : Answers) (n : DevNum) : Globals κ :=
  { g with
    devNum := n
    major := n >>> 20
    cpcidevCdev := n
    cpcidevClass := a.classCreate
    cpcidevDevice := a.deviceCreate
    pdev := some dev }

theorem isSome_of_enables (a : Answers) (h : a.enables = true) :
    ∃ n, a.allocChrdevRegion = some n := by
  simp only [Answers.enables, Bool.and_eq_true] at h
  exact Option.isSome_iff_exists.mp h.1.1.1.1

/-- A probe that does not get past `pci_enable_device`. -/
theorem pciProbe_of_not_enables (dev : κ) (a : Answers) (g : Globals κ) (h : a.enables = false) :
    (pciProbe dev a g).enabled = false ∧ (pciProbe dev a g).ret = 1 ∧
      (pciProbe dev a g).globals.mmio = g.mmio := by
  simp only [Answers.enables] at h
  unfold pciProbe
  cases halloc : a.allocChrdevRegion with
  | none => exact ⟨rfl, rfl, rfl⟩
  | some n =>
      unfold probeCdev probeClass probeDevice probePci
      -- Each of the other four calls has its label.
      cases hcdev : a.cdevAdd with
      | false => exact ⟨rfl, rfl, rfl⟩
      | true =>
          cases hcls : isErr a.classCreate with
          | true => simp only [hcls, if_true]; exact ⟨rfl, rfl, rfl⟩
          | false =>
              cases hdev : isErr a.deviceCreate with
              | true => simp only [hcls, hdev, if_true]; exact ⟨rfl, rfl, rfl⟩
              | false =>
                  simp only [halloc, hcdev, hcls, hdev, Option.isSome_some, Bool.not_false,
                    Bool.and_self, Bool.true_and] at h
                  simp only [hcls, hdev, h]
                  exact ⟨rfl, rfl, rfl⟩

/-- One that does goes on with the BAR. -/
theorem pciProbe_of_enables (dev : κ) (a : Answers) (g : Globals κ) (n : DevNum)
    (halloc : a.allocChrdevRegion = some n) (h : a.enables = true) :
    (pciProbe dev a g).enabled = true ∧
      (pciProbe dev a g).ret = (probeBar dev a (g.enabling dev a n)).ret ∧
      (pciProbe dev a g).globals = (probeBar dev a (g.enabling dev a n)).globals := by
  simp only [Answers.enables, Bool.and_eq_true, Bool.not_eq_true'] at h
  rcases h with ⟨⟨⟨⟨-, hcdev⟩, hcls⟩, hdev⟩, hen⟩
  unfold pciProbe probeCdev probeClass probeDevice probePci
  simp only [halloc, hcdev, hcls, hdev, hen]
  exact ⟨rfl, rfl, rfl⟩

theorem probeBar_ret (dev : κ) (a : Answers) (g : Globals κ) :
    (probeBar dev a g).ret = if a.attaches then 0 else 1 := by
  unfold probeBar probeIrq probeChecks Answers.attaches
  cases a.pciRequestRegion with
  | false => rfl
  | true =>
      cases a.requestIrq with
      | false => rfl
      | true => cases a.resourceMem <;> rfl

/-- What a probe returns. -/
theorem pciProbe_ret (dev : κ) (a : Answers) (g : Globals κ) :
    (pciProbe dev a g).ret = if a.enables && a.attaches then 0 else 1 := by
  cases h : a.enables with
  | false => exact (pciProbe_of_not_enables dev a g h).2.1
  | true =>
      rcases isSome_of_enables a h with ⟨n, halloc⟩
      exact (pciProbe_of_enables dev a g n halloc h).2.1.trans (probeBar_ret dev a _)

/-- Whether it enables the device. -/
theorem pciProbe_enabled (dev : κ) (a : Answers) (g : Globals κ) :
    (pciProbe dev a g).enabled = a.enables := by
  cases h : a.enables with
  | false => exact (pciProbe_of_not_enables dev a g h).1
  | true =>
      rcases isSome_of_enables a h with ⟨n, halloc⟩
      exact (pciProbe_of_enables dev a g n halloc h).1

section

variable [DecidableEq κ]

/-- A probe, carried out: the state afterwards and the value returned. -/
def Loaded.probe (s : Loaded κ) (dev : κ) (a : Answers) : Loaded κ × Int :=
  let p := pciProbe dev a s.globals
  ({ globals := p.globals
     held := performAll dev s.held p.calls
     enableCnt := fun x =>
       if x = dev ∧ p.enabled = true then s.enableCnt x + 1 else s.enableCnt x },
    p.ret)

/-- A remove, carried out. -/
def Loaded.remove (s : Loaded κ) (dev : κ) : Loaded κ :=
  { s with held := performAll dev s.held ((pciRemove dev s.globals).map .release) }

/-- The same resources are held, each as often, and every device is enabled
    as often. -/
def SameHeld (s t : Loaded κ) : Prop :=
  items s.held = items t.held ∧ s.enableCnt = t.enableCnt

/-- A probe that fails leaves everything as it was, and so does one that
    succeeds once the device is removed. -/
def Leakless (s : Loaded κ) (dev : κ) (a : Answers) : Prop :=
  ((s.probe dev a).2 ≠ 0 → SameHeld (s.probe dev a).1 s) ∧
    ((s.probe dev a).2 = 0 → SameHeld ((s.probe dev a).1.remove dev) s)

theorem errorReturn_leaves (g : Globals κ) (t : List (Resource κ)) :
    Leaves Resource.IsNode t (errorReturn g).calls t := Leaves.done t

theorem errorCdevAdd_leaves (g : Globals κ) (t : List (Resource κ)) :
    Leaves Resource.IsNode (.chrdevRegion g.devNum :: t) (errorCdevAdd g).calls t := by
  refine Leaves.release _ _ _ t trivial List.mem_cons_self ?_
  rw [List.erase_cons_head]
  exact errorReturn_leaves g t

theorem errorClass_leaves (g : Globals κ) (t : List (Resource κ)) :
    Leaves Resource.IsNode (.chrdevRegion g.devNum :: .cdev g.cpcidevCdev :: t)
      (errorClass g).calls t := by
  refine Leaves.release _ _ _ t trivial (by simp) ?_
  have herase : (.chrdevRegion g.devNum :: .cdev g.cpcidevCdev :: t : List (Resource κ)).erase
      (.cdev g.cpcidevCdev) = .chrdevRegion g.devNum :: t := by simp
  rw [herase]
  exact errorCdevAdd_leaves g t

theorem errorDevice_leaves (g : Globals κ) (t : List (Resource κ)) :
    Leaves Resource.IsNode
      (.chrdevRegion g.devNum :: .cdev g.cpcidevCdev :: .cls g.cpcidevClass :: t)
      (errorDevice g).calls t := by
  refine Leaves.release _ _ _ t trivial (by simp) ?_
  have herase : (.chrdevRegion g.devNum :: .cdev g.cpcidevCdev :: .cls g.cpcidevClass :: t :
      List (Resource κ)).erase (.cls g.cpcidevClass) =
        .chrdevRegion g.devNum :: .cdev g.cpcidevCdev :: t := by simp
  rw [herase]
  exact errorClass_leaves g t

theorem errorPci_leaves (g : Globals κ) (t : List (Resource κ)) :
    Leaves Resource.IsNode (g.node ++ t) (errorPci g).calls t := by
  refine Leaves.release _ _ _ t trivial (by simp [Globals.node]) ?_
  have herase : (g.node ++ t).erase (.device g.cpcidevClass g.devNum) =
      .chrdevRegion g.devNum :: .cdev g.cpcidevCdev :: .cls g.cpcidevClass :: t := by
    simp [Globals.node]
  rw [herase]
  exact errorDevice_leaves g t

theorem probeChecks_leaves (a : Answers) (g : Globals κ) (t : List (Resource κ)) :
    Leaves Resource.IsNode (g.node ++ t) (probeChecks a g).calls
      ((if a.resourceMem then g.node else []) ++ t) := by
  unfold probeChecks
  cases a.resourceMem with
  | true => exact Leaves.done _
  | false => exact errorPci_leaves g t

theorem probeIrq_leaves (a : Answers) (g : Globals κ) (t : List (Resource κ)) :
    Leaves Resource.IsNode (g.node ++ t) (probeIrq a g).calls
      ((if a.requestIrq && a.resourceMem then g.node else []) ++
        (t ++ if a.requestIrq then [.irq a.interruptLine] else [])) := by
  unfold probeIrq
  cases a.requestIrq with
  | true =>
      refine Leaves.acquire _ _ _ _ ?_
      rw [List.append_assoc]
      exact probeChecks_leaves a { g with pciIrq := a.interruptLine } (t ++ [.irq a.interruptLine])
  | false =>
      simp only [Bool.false_and, Bool.false_eq_true, if_false, List.nil_append, List.append_nil]
      exact errorPci_leaves _ t

/-- The mapping is acquired or not, and the probe goes on. -/
theorem leaves_iomap (p : Pointer) (rs : List (Resource κ))
    (cs : List (Ledger.Call (Resource κ))) (left : List (Resource κ))
    (h : Leaves Resource.IsNode (rs ++ if p = 0 then [] else [.iomap p]) cs left) :
    Leaves Resource.IsNode rs ((if p = 0 then [] else [.acquire (.iomap p)]) ++ cs) left := by
  by_cases hp : p = 0
  · simp only [if_pos hp, List.append_nil, List.nil_append] at h ⊢
    exact h
  · simp only [if_neg hp] at h ⊢
    exact Leaves.acquire _ _ _ _ h

theorem probeBar_leaves (dev : κ) (a : Answers) (g : Globals κ) :
    Leaves Resource.IsNode g.node (probeBar dev a g).calls
      ((if a.attaches then g.node else []) ++ a.bar dev) := by
  unfold probeBar Answers.attaches Answers.bar
  cases a.pciRequestRegion with
  | true =>
      refine Leaves.acquire _ _ _ _ (leaves_iomap a.pciIomap _ _ _ ?_)
      rw [List.append_assoc]
      exact probeIrq_leaves a { g with mmio := a.pciIomap }
        (.region dev :: if a.pciIomap = 0 then [] else [.iomap a.pciIomap])
  | false =>
      have herr := errorPci_leaves g []
      rw [List.append_nil] at herr
      exact herr

theorem probePci_leaves (dev : κ) (a : Answers) (g : Globals κ) :
    Leaves Resource.IsNode g.node (probePci dev a g).calls
      (if a.pciEnableDevice then (if a.attaches then g.node else []) ++ a.bar dev else []) := by
  unfold probePci
  cases a.pciEnableDevice with
  | true => exact probeBar_leaves dev a { g with pdev := some dev }
  | false =>
      have herr := errorPci_leaves { g with pdev := some dev } []
      rw [List.append_nil] at herr
      exact herr

theorem probeDevice_leaves (dev : κ) (a : Answers) (g : Globals κ) :
    Leaves Resource.IsNode
      [.chrdevRegion g.devNum, .cdev g.cpcidevCdev, .cls g.cpcidevClass]
      (probeDevice dev a g).calls
      (if !isErr a.deviceCreate && a.pciEnableDevice then
        (if a.attaches then g.node else []) ++ a.bar dev else []) := by
  unfold probeDevice
  cases hd : isErr a.deviceCreate with
  | true =>
      simp only [if_true, Bool.not_true, Bool.false_and, Bool.false_eq_true, if_false, hd]
      exact errorDevice_leaves _ []
  | false =>
      simp only [hd, Bool.false_eq_true, if_false, Bool.not_false, Bool.true_and]
      exact Leaves.acquire _ _ _ _
        (probePci_leaves dev a { g with cpcidevDevice := a.deviceCreate })

theorem probeClass_leaves (dev : κ) (a : Answers) (g : Globals κ) :
    Leaves Resource.IsNode [.chrdevRegion g.devNum, .cdev g.cpcidevCdev]
      (probeClass dev a g).calls
      (if !isErr a.classCreate && (!isErr a.deviceCreate && a.pciEnableDevice) then
        (if a.attaches then { g with cpcidevClass := a.classCreate }.node else []) ++ a.bar dev
        else []) := by
  unfold probeClass
  cases hc : isErr a.classCreate with
  | true =>
      simp only [if_true, Bool.not_true, Bool.false_and, Bool.false_eq_true, if_false, hc]
      exact errorClass_leaves _ []
  | false =>
      simp only [hc, Bool.false_eq_true, if_false, Bool.not_false, Bool.true_and]
      exact Leaves.acquire _ _ _ _
        (probeDevice_leaves dev a { g with cpcidevClass := a.classCreate })

theorem probeCdev_leaves (dev : κ) (a : Answers) (g : Globals κ) :
    Leaves Resource.IsNode [.chrdevRegion g.devNum] (probeCdev dev a g).calls
      (if a.cdevAdd && (!isErr a.classCreate && (!isErr a.deviceCreate && a.pciEnableDevice)) then
        (if a.attaches then { g with
          cpcidevCdev := g.devNum, cpcidevClass := a.classCreate }.node else []) ++ a.bar dev
        else []) := by
  unfold probeCdev
  refine Leaves.overwrite _ _ _ _ (fun r hr => ?_) ?_
  · cases r with
    | cdev n => exact trivial
    | _ => exact nomatch hr
  · cases a.cdevAdd with
    | true =>
        exact Leaves.acquire _ _ _ _ (probeClass_leaves dev a { g with cpcidevCdev := g.devNum })
    | false => exact errorCdevAdd_leaves _ []

/-- What a probe leaves acquired; it releases nothing it did not acquire, and
    nothing of the BAR. -/
theorem pciProbe_leaves (dev : κ) (a : Answers) (g : Globals κ) :
    Leaves Resource.IsNode [] (pciProbe dev a g).calls (a.kept dev) := by
  unfold pciProbe Answers.kept Answers.enables Answers.node
  cases a.allocChrdevRegion with
  | none => exact Leaves.done []
  | some n =>
      have hcdev := probeCdev_leaves dev a { g with devNum := n, major := n >>> 20 }
      simp only [Option.isSome_some, Bool.true_and, Bool.and_assoc]
      exact Leaves.acquire _ _ _ _ hcdev

theorem enableCnt_probe (s : Loaded κ) (dev : κ) (a : Answers) (x : κ) :
    (s.probe dev a).1.enableCnt x =
      if x = dev ∧ a.enables = true then s.enableCnt x + 1 else s.enableCnt x := by
  rw [← pciProbe_enabled dev a s.globals]
  rfl

/-- What a probe adds to what is held. -/
theorem items_probe (s : Loaded κ) (dev : κ) (a : Answers) :
    items (s.probe dev a).1.held = items s.held + (a.kept dev : Multiset (Resource κ)) :=
  items_of_leaves Resource.IsNode dev _ [] _ _ (pciProbe_leaves dev a s.globals) s.held
    (Multiset.add_zero _).symm

/-- Whatever is held before and whichever calls fail, a probe that fails, and
    one that succeeds and is followed by a remove, leave held what was held
    before exactly if the probe does not get past `pci_enable_device`. -/
theorem probe_leakless_iff (s : Loaded κ) (dev : κ) (a : Answers) :
    Leakless s dev a ↔ a.enables = false := by
  constructor
  · rintro ⟨hfail, hdone⟩
    by_contra hen
    rw [Bool.not_eq_false] at hen
    -- Nothing lowers the enable count again.
    have hraised : (s.probe dev a).1.enableCnt dev ≠ s.enableCnt dev := by
      rw [enableCnt_probe, if_pos ⟨rfl, hen⟩]
      exact Nat.succ_ne_self _
    by_cases hret : (s.probe dev a).2 = 0
    · exact hraised (congrFun (hdone hret).2 dev)
    · exact hraised (congrFun (hfail hret).2 dev)
  · intro hen
    have hret : (s.probe dev a).2 = 1 := (pciProbe_of_not_enables dev a s.globals hen).2.1
    refine ⟨fun _ => ⟨?_, ?_⟩, fun h => ?_⟩
    · rw [items_probe, Answers.kept, if_neg (by rw [hen]; exact Bool.false_ne_true)]
      exact Multiset.add_zero _
    · funext x
      rw [enableCnt_probe, if_neg (by rw [hen]; exact fun h => Bool.false_ne_true h.2)]
    · rw [hret] at h
      exact absurd h (by decide)

end

/-- Where `request_irq` fails, the probe returns 1 with the BAR requested and
    mapped and the device enabled; and where nothing fails, the device is
    still enabled after the remove. -/
theorem probe_leaks :
    (∃ s, (Loaded.fresh Unit).probe () { Answers.granted with requestIrq := false } = (s, 1) ∧
      s.held = own () [.region (), .iomap 0x3000] ∧ s.enableCnt () = 1) ∧
    (∃ s, (Loaded.fresh Unit).probe () Answers.granted = (s, 0) ∧
      (s.remove ()).held = [] ∧ (s.remove ()).enableCnt () = 1) ∧
    ¬ Leakless (Loaded.fresh Unit) () { Answers.granted with requestIrq := false } ∧
    ¬ Leakless (Loaded.fresh Unit) () Answers.granted := by
  refine ⟨⟨_, rfl, by decide, rfl⟩, ⟨_, rfl, by decide, rfl⟩, fun h => ?_, fun h => ?_⟩
  · exact absurd (congrFun (h.1 (by decide)).2 ()) (by decide)
  · exact absurd (congrFun (h.2 (by decide)).2 ()) (by decide)

end PcieCosim
