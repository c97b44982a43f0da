import PcieCosim.Endpoint.Steps

/-!
# The Endpoint Attached to a Memory

The DMA target of the testbench, and the endpoint with a memory behind its DMA
socket.

`host_memory` compares `addr + len` with the size of its memory in 64-bit
arithmetic. A range that wraps past the top of the address space passes that
comparison and is then copied from outside the memory, which the model leaves
undefined. `boundedTransport` is the target the guard is meant for: it accepts
a transaction exactly when its whole range lies inside the memory, and
otherwise has no effect. The two agree on every range that does not wrap.

`system` is the endpoint with a bounded memory. It takes the steps of the
endpoint's machine, with the target's answers filled in from the memory, and
carries out the transactions they show.

## Main definitions

* `hostMemoryTransport`: `host_memory::b_transport`.
* `Inside`: A range lies inside a memory.
* `boundedTransport`: The target that accepts the ranges inside its memory.
* `transfer`: What an event does to the memory.
* `Attached`: An endpoint and a memory.
* `system`: The endpoint attached to a bounded memory.

## Theorems

* `hostMemoryTransport_eq`: The two targets agree where no range wraps.
* `machine_step`: A step of the system is a step of its endpoint.
* `system_step_inv`: The effects of a step of the system.
* `system_step`: A step of the endpoint is a step of the system.
* `system_run_kernel`: So is a run of kernel steps.
-/

namespace PcieCosim

open Bytes Kernel Transition

/-- `host_memory::b_transport`: the answer and the memory afterwards. `none` is
    a copy outside the memory, which has no defined outcome. -/
def hostMemoryTransport (mem : List Byte) (t : Payload) : Option (Reply × List Byte) :=
  if (t.address + BitVec.ofNat 64 t.data.length).toNat > mem.length then
    some ({ status := .addressError, data := t.data }, mem)
  else
    match t.command with
    | .read =>
        if t.address.toNat + t.data.length ≤ mem.length then
          some ({ status := .ok, data := slice mem t.address.toNat t.data.length }, mem)
        else none
    | .write =>
        if t.address.toNat + t.data.length ≤ mem.length then
          some ({ status := .ok, data := t.data }, splice mem t.address.toNat t.data)
        else none
    | .ignore => some ({ status := .ok, data := t.data }, mem)

/-- The range of `len` bytes at `addr` lies inside the memory. -/
def Inside (mem : List Byte) (addr : BitVec 64) (len : Nat) : Prop :=
  addr.toNat + len ≤ mem.length

instance (mem : List Byte) (addr : BitVec 64) (len : Nat) : Decidable (Inside mem addr len) :=
  inferInstanceAs (Decidable (addr.toNat + len ≤ mem.length))

/-- The target that accepts a transaction exactly when its whole range lies
    inside the memory: the answer and the memory afterwards. -/
def boundedTransport (mem : List Byte) (t : Payload) : Reply × List Byte :=
  if Inside mem t.address t.data.length then
    match t.command with
    | .read => ({ status := .ok, data := slice mem t.address.toNat t.data.length }, mem)
    | .write => ({ status := .ok, data := t.data }, splice mem t.address.toNat t.data)
    | .ignore => ({ status := .ok, data := t.data }, mem)
  else ({ status := .addressError, data := t.data }, mem)

/-- Where the range of a transaction does not wrap past the top of the address
    space, `host_memory` is the bounded target. -/
theorem hostMemoryTransport_eq (mem : List Byte) (t : Payload)
    (h : t.address.toNat + t.data.length < 2 ^ 64) :
    hostMemoryTransport mem t = some (boundedTransport mem t) := by
  -- Without wrap-around the guard compares the true end of the range.
  have hlen : (BitVec.ofNat 64 t.data.length).toNat = t.data.length := by
    rw [BitVec.toNat_ofNat, Nat.mod_eq_of_lt (by omega)]
  have hsum : (t.address + BitVec.ofNat 64 t.data.length).toNat =
      t.address.toNat + t.data.length := by
    rw [BitVec.toNat_add, hlen, Nat.mod_eq_of_lt h]
  unfold hostMemoryTransport boundedTransport
  rw [hsum]
  by_cases hin : Inside mem t.address t.data.length
  · have hle : t.address.toNat + t.data.length ≤ mem.length := hin
    rw [if_neg (Nat.not_lt.mpr hle), if_pos hin]
    cases t.command with
    | read => exact if_pos hle
    | write => exact if_pos hle
    | ignore => rfl
  · rw [if_pos (Nat.lt_of_not_le hin), if_neg hin]

/-- A bounded memory as a DMA target. -/
def boundedTarget (mem : List Byte) : DmaTarget := fun t => (boundedTransport mem t).1

/-- A transaction is answered OK exactly when its range lies inside. -/
theorem boundedTarget_ok_iff (mem : List Byte) (t : Payload) :
    (boundedTarget mem t).isResponseOk = true ↔ Inside mem t.address t.data.length := by
  unfold boundedTarget boundedTransport
  by_cases hin : Inside mem t.address t.data.length
  · rw [if_pos hin]
    cases t.command <;> exact ⟨fun _ => hin, fun _ => rfl⟩
  · rw [if_neg hin]
    exact ⟨nofun, fun h => absurd h hin⟩

/-- An accepted read returns the bytes of its range. -/
theorem boundedTarget_read (mem : List Byte) (t : Payload) (hcmd : t.command = .read)
    (hin : Inside mem t.address t.data.length) :
    (boundedTarget mem t).data = slice mem t.address.toNat t.data.length := by
  unfold boundedTarget boundedTransport
  rw [if_pos hin, hcmd]

/-- What an event does to the memory. -/
def transfer (mem : List Byte) : Event → List Byte
  | .dma _ t _ => (boundedTransport mem t).2
  | _ => mem

theorem boundedTransport_read (mem : List Byte) (t : Payload) (hcmd : t.command = .read) :
    (boundedTransport mem t).2 = mem := by
  unfold boundedTransport
  rw [hcmd]
  split
  · rfl
  · rfl

theorem boundedTransport_write (mem : List Byte) (t : Payload) (hcmd : t.command = .write) :
    (boundedTransport mem t).2 =
      if Inside mem t.address t.data.length then splice mem t.address.toNat t.data else mem := by
  unfold boundedTransport
  rw [hcmd]
  split
  · rfl
  · rfl

/-- A label with the target filled in. -/
def Label.map {δ δ' : Type} (f : δ → δ') : Label δ → Label δ'
  | .bar0 t => .bar0 t
  | .compute x => .compute (f x)
  | .control => .control
  | .update => .update
  | .timeout => .timeout

/-- An endpoint and the memory behind its DMA socket. -/
structure Attached where
  device : Device
  memory : List Byte

/-- One step of an attached endpoint: the step of the endpoint with the
    memory's answers, and the transactions it shows carried out. -/
def Attached.step [FloatArith] (s : Attached) (l : Label Unit) : Option (Attached × List Event) :=
  match machine.step s.device (l.map (fun _ => boundedTarget s.memory)) with
  | none => none
  | some (d, es) => some ({ device := d, memory := es.foldl transfer s.memory }, es)

/-- The endpoint attached to a bounded memory. -/
def system [FloatArith] : Machine Attached (Label Unit) Event where
  step := Attached.step

theorem system_step [FloatArith] (s : Attached) (l : Label Unit) (d : Device) (es : List Event)
    (h : machine.step s.device (l.map (fun _ => boundedTarget s.memory)) = some (d, es)) :
    system.step s l = some ({ device := d, memory := es.foldl transfer s.memory }, es) := by
  change Attached.step s l = _
  rw [Attached.step, h]

/-- A step of the system is a step of its endpoint. -/
theorem machine_step [FloatArith] (s s' : Attached) (l : Label Unit) (es : List Event)
    (h : system.step s l = some (s', es)) :
    machine.step s.device (l.map (fun _ => boundedTarget s.memory)) = some (s'.device, es) ∧
      s'.memory = es.foldl transfer s.memory := by
  change Attached.step s l = _ at h
  rw [Attached.step] at h
  rcases hstep : machine.step s.device (l.map (fun _ => boundedTarget s.memory)) with
    _ | ⟨d, es'⟩
  · rw [hstep] at h
    exact nomatch h
  · rw [hstep] at h
    simp only [Option.some.injEq, Prod.mk.injEq] at h
    rcases h with ⟨rfl, rfl⟩
    exact ⟨rfl, rfl⟩

/-- The effects of a step of the system. -/
theorem system_step_inv [FloatArith] (s s' : Attached) (l : Label Unit) (es : List Event)
    (h : system.step s l = some (s', es)) :
    Step s.device (l.map (fun _ => boundedTarget s.memory)) s'.device es ∧
      s'.memory = es.foldl transfer s.memory :=
  ⟨step_inv _ _ _ _ (machine_step s s' l es h).1, (machine_step s s' l es h).2⟩

/-- Kernel steps of the endpoint are steps of the system, and touch no
    memory. -/
theorem system_run_kernel [FloatArith] (d d' : Device) (mem : List Byte)
    (ls : List (Label DmaTarget)) (hls : ∀ l ∈ ls, l.isKernel = true) (tr : List Event)
    (hrun : machine.run d ls = some (d', tr)) :
    system.run { device := d, memory := mem } (ls.map (Label.map (fun _ => ()))) =
      some ({ device := d', memory := tr.foldl transfer mem }, tr) := by
  induction ls generalizing d mem tr with
  | nil =>
      simp only [Machine.run, Option.some.injEq, Prod.mk.injEq] at hrun
      rcases hrun with ⟨rfl, rfl⟩
      rfl
  | cons l ls ih =>
      rcases (machine.run_cons_iff d l ls d' tr).mp hrun with ⟨d₁, es, tr', hstep, hrest, rfl⟩
      -- A kernel step has no target to fill in.
      have hmap : (l.map (fun _ => ())).map (fun _ => boundedTarget mem) = l := by
        have hl := hls l List.mem_cons_self
        cases l with
        | bar0 t => exact absurd hl Bool.false_ne_true
        | compute target => exact absurd hl Bool.false_ne_true
        | control => rfl
        | update => rfl
        | timeout => rfl
      refine (system.run_cons_iff _ _ _ _ _).mpr ⟨_, es, tr',
        system_step { device := d, memory := mem } _ d₁ es (by rw [hmap]; exact hstep), ?_, rfl⟩
      rw [List.foldl_append]
      exact ih d₁ _ (fun l' hl' => hls l' (List.mem_cons_of_mem l hl')) tr' hrest

end PcieCosim
