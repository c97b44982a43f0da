import PcieCosim.Endpoint.RegisterFile

/-!
# Reads and the Memory Beyond the Registers

Where the bytes of a read come from, for the endpoint and for the
`DummyTarget` that `main.cc` puts behind a `TrafficMonitor`.

Both targets end a read with a `memcpy` whose length is the initiator's. The
bytes it takes from past the end of its source object belong to whatever the
process keeps there, and `Response.bytes` has that memory as a parameter. A
read returns the target's own data if it takes none of them; then any two
reads that agree on the target's data, on the address and on the length return
the same bytes, whatever the rest of the process holds.

`ownData_iff` reduces this to one comparison, of the length with that of the
source object. The endpoint copies 8 bytes out of a pointer register, but also
out of a 4-byte local for every other address. `DummyTarget` copies any length
out of a 4-byte constant.

## Main definitions

* `Response.bytes`: The buffer after a read, given the memory beyond.
* `OwnData`: A read returns the target's own data only.
* `readSource`: The object `handle_mmio_read` copies from.
* `DummyTarget.bTransport`: The target of `main.cc`.
* `TrafficMonitor.bTransport`: The monitor before it.
* `monitored`: The two as `sc_main` binds them.

## Theorems

* `none_mem_memcpy_iff`: When a copy leaves its source object.
* `bytes_congr`: Determined bytes do not depend on the memory beyond.
* `ownData_iff`: A read returns own data if its length is that of the object.
* `handleMmioRead_eq`: The endpoint's reads are copies.
* `reads_own_data_iff`: Which reads return the target's own data.
* `reads_foreign_data`: Some do not.
-/

namespace PcieCosim

open Bytes Transition

/-- An 8-byte read. -/
def Payload.read64 (addr : BitVec 64) : Payload :=
  { command := .read, address := addr, data := List.replicate 8 0 }

/-- The initiator's buffer after a read, if the bytes a copy finds past the end
    of its source object are those of `beyond`. -/
def Response.bytes (r : Response) (beyond : Nat → Byte) : List Byte :=
  r.data.mapIdx (fun i b => b.getD (beyond i))

/-- The read `t` of a target in state `s` takes no byte from beyond the object
    it copies, and returns what every read returns that agrees with it on the
    target's data, the address and the length. -/
structure OwnData {σ ρ : Type} (view : σ → ρ) (answer : σ → Payload → Response) (s : σ)
    (t : Payload) : Prop where
  inside : none ∉ (answer s t).data
  determined : ∀ (s' : σ) (t' : Payload), view s' = view s → t'.command = .read →
    t'.address = t.address → t'.data.length = t.data.length → ∀ beyond beyond' : Nat → Byte,
      (answer s t).bytes beyond = (answer s' t').bytes beyond'

/-- The object `handle_mmio_read` copies from: a pointer register if all of it
    is read, and otherwise the local `value`. -/
def readSource (g : Registers) (addr : BitVec 64) (len : Nat) : List Byte :=
  match Register.decode addr with
  | some (.matrixPtr m) =>
      if len = 8 then word64 (g.matrixPtr m) else word32 (g.word (.matrixPtr m))
  | some r => word32 (g.word r)
  | none => word32 0xDEADBEEF

/-- `DummyTarget::b_transport`: a read is answered with a constant, anything
    else is only printed. -/
def DummyTarget.bTransport (t : Payload) : Response :=
  if t.command = .read then { status := .ok, data := memcpy (word32 0xABCD1234) t.data.length }
  else { status := .ok, data := t.data.map some }

namespace TrafficMonitor

/-- What the monitor prints: each transaction, and the value of a read that
    succeeds. -/
inductive Message where
  | transaction (isRead : Bool) (addr : BitVec 64) (len : Nat)
  | responseData (val : Option Word)
  deriving DecidableEq

/-- The value printed: the bytes of the buffer if they fit, and 0 otherwise.
    `none` stands for a value with undetermined bytes. -/
def val (data : List (Option Byte)) : Option Word :=
  if data.length ≤ 4 then (data.mapM id).map (fun bs => BitVec.ofNat 32 (leNat bs)) else some 0

/-- `TrafficMonitor::b_transport`, with the target its socket is bound to. -/
def bTransport (target : Payload → Response) (t : Payload) : List Message × Response :=
  let isRead := decide (t.command = .read)
  let r := target t
  let seen := Message.transaction isRead t.address t.data.length
  if isRead && r.status = .ok then ([seen, .responseData (val r.data)], r) else ([seen], r)

end TrafficMonitor

/-- The target behind the monitor, as `sc_main` binds them. -/
def monitored (t : Payload) : Response :=
  (TrafficMonitor.bTransport DummyTarget.bTransport t).2

/-- A copy leaves its source object if it is longer. -/
theorem none_mem_memcpy_iff (source : List Byte) (len : Nat) :
    none ∈ memcpy source len ↔ source.length < len := by
  rw [memcpy, List.mem_map]
  constructor
  · rintro ⟨i, hi, hnone⟩
    rw [List.mem_range] at hi
    rw [List.getElem?_eq_none_iff] at hnone
    omega
  · intro h
    exact ⟨source.length, List.mem_range.mpr h, List.getElem?_eq_none (Nat.le_refl _)⟩

/-- Determined bytes do not depend on the memory beyond. -/
theorem bytes_congr (r : Response) (h : none ∉ r.data) (beyond beyond' : Nat → Byte) :
    r.bytes beyond = r.bytes beyond' := by
  refine List.ext_getElem? (fun i => ?_)
  rw [Response.bytes, Response.bytes, List.getElem?_mapIdx, List.getElem?_mapIdx]
  cases hi : r.data[i]? with
  | none => rfl
  | some b =>
      cases b with
      | none => exact absurd (List.mem_of_getElem? hi) h
      | some b => rfl

/-- For a target whose reads of the lengths in `admits` copy from a `source`
    that only its data, the address and the length determine, a read returns
    own data exactly if it is no longer than the source. -/
theorem ownData_iff {σ ρ : Type} (view : σ → ρ) (answer : σ → Payload → Response)
    (admits : Nat → Prop) (source : ρ → BitVec 64 → Nat → List Byte)
    (hcopy : ∀ s t, t.command = .read → admits t.data.length →
      (answer s t).data = memcpy (source (view s) t.address t.data.length) t.data.length)
    (s : σ) (t : Payload) (hread : t.command = .read) (hlen : admits t.data.length) :
    OwnData view answer s t ↔
      t.data.length ≤ (source (view s) t.address t.data.length).length := by
  have hinside : none ∉ (answer s t).data ↔
      t.data.length ≤ (source (view s) t.address t.data.length).length := by
    rw [hcopy s t hread hlen, none_mem_memcpy_iff, Nat.not_lt]
  constructor
  · exact fun h => hinside.mp h.inside
  · intro h
    refine ⟨hinside.mpr h, fun s' t' hview hread' haddr hlen' beyond beyond' => ?_⟩
    -- The two reads copy the same bytes of equal objects.
    have hdata : (answer s' t').data = (answer s t).data := by
      rw [hcopy s t hread hlen, hcopy s' t' hread' (hlen'.symm ▸ hlen), hview, haddr, hlen']
    rw [bytes_congr _ (hinside.mpr h) beyond beyond', Response.bytes, Response.bytes, hdata]

theorem handleMmioRead_eq (d : Device) (addr : BitVec 64) (len : Nat) :
    d.handleMmioRead addr len = memcpy (readSource d.regs addr len) len := by
  unfold Device.handleMmioRead readSource
  cases Register.decode addr with
  | none => rfl
  | some r =>
      cases r with
      | matrixPtr m =>
          by_cases h : len = 8
          · simp only [h, if_true]
          · simp only [h, if_false]
            rfl
      | _ => rfl

/-- Eight bytes fit in the object only at a pointer register. -/
theorem le_length_readSource_iff (g : Registers) (addr : BitVec 64) (len : Nat)
    (hlen : len = 4 ∨ len = 8) :
    len ≤ (readSource g addr len).length ↔ len = 4 ∨ ∃ m : Operand, addr = m.offset := by
  have hbase : ∀ m : Operand, addr = m.offset ↔ Register.decode addr = some (.matrixPtr m) :=
    fun m => eq_offset_iff addr _ rfl (.matrixPtr m)
  have hword : ∀ v, len ≤ (word32 v).length ↔ len = 4 := by
    intro v
    rw [length_word32]
    omega
  unfold readSource
  simp only [hbase]
  cases Register.decode addr with
  | none => simp only [hword, reduceCtorEq, exists_false, or_false]
  | some r =>
      cases r with
      | matrixPtr m =>
          have hm : ∃ m', some (Register.matrixPtr m) = some (Register.matrixPtr m') := ⟨m, rfl⟩
          rcases hlen with rfl | rfl
          · simp only [hm, or_true, iff_true]
            exact Nat.le_of_eq (length_word32 _).symm
          · simp only [hm, or_true, iff_true, if_true]
            exact Nat.le_of_eq (length_word64 _).symm
      | _ =>
          simp only [hword, Option.some.injEq, reduceCtorEq, exists_false, or_false]

/-- A read answered OK is of 4 or 8 bytes. -/
theorem length_of_status_ok (d : Device) (t : Payload)
    (hok : (d.bar0BTransport t).2.2.status = .ok) : t.data.length = 4 ∨ t.data.length = 8 := by
  unfold Device.bar0BTransport at hok
  by_contra h
  rw [if_pos (by omega)] at hok
  cases hok

theorem data_bar0_read (d : Device) (t : Payload) (hread : t.command = .read)
    (hlen : t.data.length = 4 ∨ t.data.length = 8) :
    (d.bar0BTransport t).2.2.data =
      memcpy (readSource d.regs t.address t.data.length) t.data.length := by
  unfold Device.bar0BTransport
  rw [if_neg (by omega), hread]
  exact handleMmioRead_eq d t.address t.data.length

/-- The monitor hands on the answer it gets. -/
theorem monitored_eq (t : Payload) : monitored t = DummyTarget.bTransport t := by
  simp only [monitored, TrafficMonitor.bTransport]
  split <;> rfl

theorem data_monitored_read (t : Payload) (hread : t.command = .read) :
    (monitored t).data = memcpy (word32 0xABCD1234) t.data.length := by
  rw [monitored_eq, DummyTarget.bTransport, if_pos hread]

/-- A read the endpoint answers OK returns own data if it is of 4 bytes or at a
    pointer register, and one of the monitored target if it is of at most 4
    bytes. -/
theorem reads_own_data_iff (t : Payload) (hread : t.command = .read) :
    (∀ d : Device, (d.bar0BTransport t).2.2.status = .ok →
      (OwnData Device.regs (fun d t => (d.bar0BTransport t).2.2) d t ↔
        t.data.length = 4 ∨ ∃ m : Operand, t.address = m.offset)) ∧
    ((monitored t).status = .ok →
      (OwnData id (fun _ : Unit => monitored) () t ↔ t.data.length ≤ 4)) := by
  constructor
  · intro d hok
    have hlen := length_of_status_ok d t hok
    rw [ownData_iff Device.regs _ (fun len => len = 4 ∨ len = 8) readSource data_bar0_read d t
      hread hlen]
    exact le_length_readSource_iff d.regs t.address t.data.length hlen
  · intro _
    rw [ownData_iff id _ (fun _ => True) (fun _ _ _ => word32 0xABCD1234)
      (fun _ t hread _ => data_monitored_read t hread) () t hread trivial, length_word32]

/-- A pointer register read whole, and three bytes of the constant. -/
theorem reads_own_data_matrixPtr :
    OwnData Device.regs (fun d t => (d.bar0BTransport t).2.2) Device.initialized
        (.read64 (Operand.offset .c)) ∧
      OwnData id (fun _ : Unit => monitored) ()
        { command := .read, address := 0, data := List.replicate 3 0 } :=
  ⟨((reads_own_data_iff _ rfl).1 Device.initialized rfl).mpr (Or.inr ⟨.c, rfl⟩),
    ((reads_own_data_iff _ rfl).2 rfl).mpr (by decide)⟩

/-- An 8-byte read of CONTROL, and one of the monitored target: both are
    answered OK and show the memory behind the source object. -/
theorem reads_foreign_data :
    (∃ d tr, (@machine float32Arith).run Device.constructed [.compute acceptAll] = some (d, tr) ∧
      (d.bar0BTransport (.read64 0)).2.2.status = .ok ∧
      (d.bar0BTransport (.read64 0)).2.2.bytes (fun _ => 0) ≠
        (d.bar0BTransport (.read64 0)).2.2.bytes (fun _ => 1) ∧
      ¬ OwnData Device.regs (fun d t => (d.bar0BTransport t).2.2) d (.read64 0)) ∧
    (monitored (.read64 0)).status = .ok ∧
    (monitored (.read64 0)).bytes (fun _ => 0) ≠ (monitored (.read64 0)).bytes (fun _ => 1) ∧
    ¬ OwnData id (fun _ : Unit => monitored) () (.read64 0) := by
  refine ⟨⟨_, _, rfl, rfl, by decide, fun h => ?_⟩, rfl, by decide, fun h => ?_⟩
  · exact h.inside (by decide)
  · exact h.inside (by decide)

end PcieCosim
