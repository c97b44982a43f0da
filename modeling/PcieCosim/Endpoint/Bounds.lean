import PcieCosim.Endpoint.HostMemory

/-!
# The Bounds of the Host Memory

Which accesses `host_memory` lets through.

`b_transport`, `write_data` and `read_data` guard their copy with the same
comparison of `addr + len` with the size of the memory, in 64-bit arithmetic.
A range whose end lies past the top of the address space has an end that
wraps, and if the wrapped end is small the guard takes the range for one inside
the memory. `Wraps` are these ranges, and `guard_iff` says that the guard lets
through exactly them and the ranges inside.

The copy of a range that wraps leaves the memory, and what happens then is not
defined. `ExactTransport`, `ExactWriteData` and `ExactReadData` say that a call
has a defined outcome, and the one its range calls for: the copy of exactly
these bytes, or nothing.

## Main definitions

* `guardedCopy`: A copy behind the guard.
* `writeData`, `readData`: The two functions of `host_memory` for the testbench.
* `Wraps`: The ranges whose end wraps into the memory.
* `ReadsAt`, `WritesAt`: What a copy leaves in the buffer, or in the memory.
* `ExactAnswer`, `ExactTransport`: A transaction is answered as its range calls
  for.
* `ExactWriteData`, `ExactReadData`: The same for the other two.

## Theorems

* `guard_iff`: What the guard lets through.
* `hostMemoryTransport_of_not_wraps`: Without wrapping, it is the bounded target.
* `exactAnswer_bounded`: The bounded target is exact.
* `exactTransport_iff`, `guardedCopy_iff`: When a call is exact.
* `bounds_exact_iff`: The three are exact on the ranges that do not wrap.
* `bounds_inexact`: The endpoint can be made to issue one that does.
-/

namespace PcieCosim

open Bytes Transition

/-- A copy behind the guard of `write_data` and `read_data`: what it leaves is
    `copied`, or `kept` if the guard refuses it. `none` is a copy outside the
    memory, which has no defined outcome. -/
def guardedCopy (mem : List Byte) (addr : BitVec 64) (len : Nat) (copied kept : List Byte) :
    Option (List Byte) :=
  if (addr + BitVec.ofNat 64 len).toNat ≤ mem.length then
    if Inside mem addr len then some copied else none
  else some kept

/-- `host_memory::write_data`: the memory afterwards. -/
def writeData (mem : List Byte) (addr : BitVec 64) (data : List Byte) : Option (List Byte) :=
  guardedCopy mem addr data.length (splice mem addr.toNat data) mem

/-- `host_memory::read_data`: the caller's buffer afterwards. -/
def readData (mem : List Byte) (addr : BitVec 64) (data : List Byte) : Option (List Byte) :=
  guardedCopy mem addr data.length (slice mem addr.toNat data.length) data

/-- The end of the range wraps past the top of the address space, to a place
    in the memory or just behind it. -/
def Wraps (mem : List Byte) (addr : BitVec 64) (len : Nat) : Prop :=
  2 ^ 64 ≤ addr.toNat + len ∧ addr.toNat + len ≤ 2 ^ 64 + mem.length

/-- The buffer holds the `len` bytes of the memory at `a`. -/
def ReadsAt (mem : List Byte) (a len : Nat) (buffer : List Byte) : Prop :=
  buffer.length = len ∧ ∀ i < len, buffer[i]? = mem[a + i]?

/-- The memory `mem'` is `mem` with exactly the bytes at `a` replaced. -/
def WritesAt (mem : List Byte) (a : Nat) (bs mem' : List Byte) : Prop :=
  ∀ i, mem'[i]? = if a ≤ i ∧ i < a + bs.length then bs[i - a]? else mem[i]?

/-- The reply `r` and the memory `mem'` are what the range of `t` calls for. -/
structure ExactAnswer (mem : List Byte) (t : Payload) (r : Reply) (mem' : List Byte) : Prop where
  accepts : r.status = .ok ↔ t.address.toNat + t.data.length ≤ mem.length
  reads : r.status = .ok → t.command = .read →
    ReadsAt mem t.address.toNat t.data.length r.data ∧ mem' = mem
  writes : r.status = .ok → t.command = .write →
    WritesAt mem t.address.toNat t.data mem' ∧ r.data = t.data
  refuses : r.status ≠ .ok → mem' = mem ∧ r.data = t.data

/-- The transaction has a defined outcome, and the one its range calls for. -/
def ExactTransport (mem : List Byte) (t : Payload) : Prop :=
  ∃ r mem', hostMemoryTransport mem t = some (r, mem') ∧ ExactAnswer mem t r mem'

/-- `write_data` writes exactly the range if it is inside the memory, and
    nothing otherwise. -/
def ExactWriteData (mem : List Byte) (addr : BitVec 64) (data : List Byte) : Prop :=
  ∃ mem', writeData mem addr data = some mem' ∧
    (addr.toNat + data.length ≤ mem.length → WritesAt mem addr.toNat data mem') ∧
    (¬ addr.toNat + data.length ≤ mem.length → mem' = mem)

/-- `read_data` reads exactly the range if it is inside the memory, and nothing
    otherwise. -/
def ExactReadData (mem : List Byte) (addr : BitVec 64) (data : List Byte) : Prop :=
  ∃ data', readData mem addr data = some data' ∧
    (addr.toNat + data.length ≤ mem.length → ReadsAt mem addr.toNat data.length data') ∧
    (¬ addr.toNat + data.length ≤ mem.length → data' = data)

theorem readsAt_slice (mem : List Byte) (a len : Nat) (h : a + len ≤ mem.length) :
    ReadsAt mem a len (slice mem a len) :=
  ⟨length_slice mem a len h, fun i hi => getElem?_slice mem a len i hi⟩

theorem writesAt_splice (mem : List Byte) (a : Nat) (bs : List Byte)
    (h : a + bs.length ≤ mem.length) : WritesAt mem a bs (splice mem a bs) :=
  fun i => getElem?_splice mem a bs h i

/-- The guard lets through the ranges inside and those that wrap. -/
theorem guard_iff (mem : List Byte) (addr : BitVec 64) (len : Nat) (hlen : len < 2 ^ 64) :
    (addr + BitVec.ofNat 64 len).toNat ≤ mem.length ↔ Inside mem addr len ∨ Wraps mem addr len := by
  have haddr := addr.isLt
  rw [BitVec.toNat_add, BitVec.toNat_ofNat, Nat.mod_eq_of_lt hlen]
  unfold Inside Wraps
  by_cases hsum : addr.toNat + len < 2 ^ 64
  · rw [Nat.mod_eq_of_lt hsum]
    omega
  -- Two numbers below 2 ^ 64 wrap at most once.
  · rw [Nat.mod_eq_sub_mod (by omega), Nat.mod_eq_of_lt (by omega)]
    omega

theorem not_inside_of_wraps (mem : List Byte) (addr : BitVec 64) (len : Nat)
    (hmem : mem.length < 2 ^ 64) (h : Wraps mem addr len) : ¬ Inside mem addr len := by
  unfold Inside
  rcases h with ⟨htop, -⟩
  omega

/-- Where the range does not wrap into the memory, `host_memory` is the bounded
    target. -/
theorem hostMemoryTransport_of_not_wraps (mem : List Byte) (t : Payload)
    (hmem : mem.length < 2 ^ 64) (hlen : t.data.length < 2 ^ 64)
    (h : ¬ Wraps mem t.address t.data.length) :
    hostMemoryTransport mem t = some (boundedTransport mem t) := by
  by_cases hsum : t.address.toNat + t.data.length < 2 ^ 64
  · exact hostMemoryTransport_eq mem t hsum
  · have hout : ¬ Inside mem t.address t.data.length := by
      unfold Inside
      omega
    have hguard := (guard_iff mem t.address t.data.length hlen).not.mpr
      (fun hc => hc.elim hout h)
    rw [hostMemoryTransport, if_pos (Nat.lt_of_not_le hguard), boundedTransport, if_neg hout]

/-- A range that wraps is let through, and its copy leaves the memory. -/
theorem hostMemoryTransport_of_wraps (mem : List Byte) (t : Payload)
    (hmem : mem.length < 2 ^ 64) (hlen : t.data.length < 2 ^ 64)
    (h : Wraps mem t.address t.data.length) :
    hostMemoryTransport mem t =
      if t.command = .ignore then some ({ status := .ok, data := t.data }, mem) else none := by
  have hguard := (guard_iff mem t.address t.data.length hlen).mpr (Or.inr h)
  have hout : ¬ t.address.toNat + t.data.length ≤ mem.length :=
    not_inside_of_wraps mem t.address _ hmem h
  rw [hostMemoryTransport, if_neg (Nat.not_lt.mpr hguard)]
  cases t.command with
  | read => exact if_neg hout
  | write => exact if_neg hout
  | ignore => rfl

/-- The bounded target is exact. -/
theorem exactAnswer_bounded (mem : List Byte) (t : Payload) :
    ExactAnswer mem t (boundedTransport mem t).1 (boundedTransport mem t).2 := by
  unfold boundedTransport
  by_cases hin : Inside mem t.address t.data.length
  · rw [if_pos hin]
    cases hcmd : t.command with
    | read =>
        exact ⟨⟨fun _ => hin, fun _ => rfl⟩, fun _ _ => ⟨readsAt_slice mem _ _ hin, rfl⟩,
          fun _ h => absurd (hcmd.symm.trans h) nofun, fun h => absurd rfl h⟩
    | write =>
        exact ⟨⟨fun _ => hin, fun _ => rfl⟩, fun _ h => absurd (hcmd.symm.trans h) nofun,
          fun _ _ => ⟨writesAt_splice mem _ _ hin, rfl⟩, fun h => absurd rfl h⟩
    | ignore =>
        exact ⟨⟨fun _ => hin, fun _ => rfl⟩, fun _ h => absurd (hcmd.symm.trans h) nofun,
          fun _ h => absurd (hcmd.symm.trans h) nofun, fun h => absurd rfl h⟩
  · rw [if_neg hin]
    exact ⟨⟨nofun, fun h => absurd h hin⟩, nofun, nofun, fun _ => ⟨rfl, rfl⟩⟩

theorem exactTransport_iff (mem : List Byte) (t : Payload) (hmem : mem.length < 2 ^ 64)
    (hlen : t.data.length < 2 ^ 64) :
    ExactTransport mem t ↔ ¬ Wraps mem t.address t.data.length := by
  constructor
  · rintro ⟨r, mem', heq, hexact⟩ hwraps
    rw [hostMemoryTransport_of_wraps mem t hmem hlen hwraps] at heq
    by_cases hcmd : t.command = .ignore
    · rw [if_pos hcmd] at heq
      simp only [Option.some.injEq, Prod.mk.injEq] at heq
      exact not_inside_of_wraps mem _ _ hmem hwraps (hexact.accepts.mp (by rw [← heq.1]))
    · rw [if_neg hcmd] at heq
      cases heq
  · intro h
    exact ⟨_, _, hostMemoryTransport_of_not_wraps mem t hmem hlen h, exactAnswer_bounded mem t⟩

/-- A guarded copy that is right inside the memory is exact where the range
    does not wrap. -/
theorem guardedCopy_iff (mem : List Byte) (addr : BitVec 64) (len : Nat)
    (copied kept : List Byte) (P : List Byte → Prop) (hP : Inside mem addr len → P copied)
    (hmem : mem.length < 2 ^ 64) (hlen : len < 2 ^ 64) :
    (∃ x, guardedCopy mem addr len copied kept = some x ∧ (Inside mem addr len → P x) ∧
      (¬ Inside mem addr len → x = kept)) ↔ ¬ Wraps mem addr len := by
  have hguard := guard_iff mem addr len hlen
  unfold guardedCopy
  by_cases hin : Inside mem addr len
  · rw [if_pos (hguard.mpr (Or.inl hin)), if_pos hin]
    constructor
    · exact fun _ hwraps => not_inside_of_wraps mem addr len hmem hwraps hin
    · exact fun _ => ⟨copied, rfl, hP, fun hout => absurd hin hout⟩
  · by_cases hwraps : Wraps mem addr len
    · rw [if_pos (hguard.mpr (Or.inr hwraps)), if_neg hin]
      constructor
      · rintro ⟨x, hx, -⟩
        cases hx
      · exact fun hnot => absurd hwraps hnot
    · rw [if_neg (fun h => (hguard.mp h).elim hin hwraps)]
      constructor
      · exact fun _ => hwraps
      · exact fun _ => ⟨kept, rfl, fun h => absurd h hin, fun _ => rfl⟩

/-- On every memory, `b_transport`, `write_data` and `read_data` are exact on
    the ranges whose end does not wrap into the memory, and on no others. -/
theorem bounds_exact_iff (mem : List Byte) (hmem : mem.length < 2 ^ 64) :
    (∀ t : Payload, t.data.length < 2 ^ 32 →
      (ExactTransport mem t ↔ ¬ Wraps mem t.address t.data.length)) ∧
    (∀ (addr : BitVec 64) (data : List Byte), data.length < 2 ^ 64 →
      (ExactWriteData mem addr data ↔ ¬ Wraps mem addr data.length)) ∧
    (∀ (addr : BitVec 64) (data : List Byte), data.length < 2 ^ 64 →
      (ExactReadData mem addr data ↔ ¬ Wraps mem addr data.length)) := by
  refine ⟨fun t hlen => ?_, fun addr data hlen => ?_, fun addr data hlen => ?_⟩
  · exact exactTransport_iff mem t hmem (by omega)
  · exact guardedCopy_iff mem addr data.length _ mem (WritesAt mem addr.toNat data)
      (writesAt_splice mem _ _) hmem hlen
  · exact guardedCopy_iff mem addr data.length _ data (ReadsAt mem addr.toNat data.length)
      (readsAt_slice mem _ _) hmem hlen

/-- The memory of `host_memory` as constructed: 16 MiB of zeros. -/
def hostMemory : List Byte := List.replicate (16 * 1024 * 1024) 0

theorem length_hostMemory : hostMemory.length = 0x1000000 := List.length_replicate

/-- The last four bytes of the memory can be read, and the four behind them
    cannot. -/
theorem bounds_exact_end :
    ExactTransport hostMemory { command := .read, address := 0xFFFFFC, data := word32 0 } ∧
      ExactTransport hostMemory { command := .read, address := 0x1000000, data := word32 0 } := by
  have hexact := (bounds_exact_iff hostMemory (by rw [length_hostMemory]; decide)).1
  refine ⟨(hexact _ (by decide)).mpr ?_, (hexact _ (by decide)).mpr ?_⟩
  · exact fun h => absurd h.1 (by decide)
  · exact fun h => absurd h.1 (by decide)

/-- MATRIX_A_PTR is set to 4 bytes below the top of the address space, and a job
    of dimension one is started. -/
def wrapOne : List (Label DmaTarget) :=
  [.compute acceptAll, .bar0 (.write64 (Operand.offset .a) 0xFFFFFFFFFFFFFFFC)] ++
    startOne acceptAll

/-- The DMA read it begins with. -/
def wrapRead : Payload :=
  { command := .read, address := 0xFFFFFFFFFFFFFFFC, data := List.replicate 4 0 }

/-- The endpoint's first DMA read is then let through and leaves the memory. -/
theorem bounds_inexact :
    ∃ d tr ok, (@machine float32Arith).run Device.constructed wrapOne = some (d, tr) ∧
      tr.getLast? = some (.dma .a wrapRead ok) ∧
      hostMemory.length < wrapRead.address.toNat + wrapRead.data.length ∧
      hostMemoryTransport hostMemory wrapRead = none ∧ ¬ ExactTransport hostMemory wrapRead := by
  have hmem : hostMemory.length < 2 ^ 64 := by
    rw [length_hostMemory]
    decide
  have hwraps : Wraps hostMemory wrapRead.address wrapRead.data.length :=
    ⟨by decide, Nat.le_trans (by decide) (Nat.le_add_right _ _)⟩
  refine ⟨_, _, true, rfl, rfl, ?_, ?_, ?_⟩
  · rw [length_hostMemory]
    decide
  · exact hostMemoryTransport_of_wraps hostMemory wrapRead hmem (by decide) hwraps
  · exact fun h => (exactTransport_iff hostMemory wrapRead hmem (by decide)).mp h hwraps

end PcieCosim
