import PcieCosim.Lib.Bytes
import PcieCosim.Lib.Kernel

/-!
# The Endpoint and Its Register Interface

The state of `matrix_multiplier_pcie` and the BAR0 side of it: the register
map, `reset_device`, `handle_mmio_read`, `handle_mmio_write` and
`bar0_b_transport`.

The device holds its registers, two thread processes and the interrupt
signal. A BAR0 transaction runs inside the initiator's process without ever
waiting, so it is one atomic function of the device; what it does to the
threads is only to notify events.

The address switch of the two handlers is `Register.decode`, which names the
register an address selects, and the handlers match on the name. The three
pointer registers are one family indexed by `Operand`, with a low word, which
also takes the 8-byte accesses, and a high word.

A read copies `len` bytes out of a 4-byte or an 8-byte object. `memcpy` keeps
the bytes that lie inside the object and records a byte beyond its end as
`none`, since nothing in the device determines it.

Handlers return the messages they print next to the new state, reduced to the
two that mark something happening: a reset, and an accepted START. The second
carries the job parameters in force at that moment.

## Main definitions

* `Operand`: The three matrices.
* `Register`, `Register.decode`: The register map of BAR0.
* `Registers`: The register file with the request flag.
* `Params`, `Registers.params`: The job parameters the registers hold.
* `Registers.resetDevice`: What `reset_device` leaves.
* `Payload`, `Response`: A transaction and its answer.
* `Dim`: A dimension a job accepts.
* `FloatMatrix`: A square array of floats.
* `Position`, `ControllerPosition`: Where the two threads can be suspended.
* `Device`: The endpoint.
* `Event`: What a run of the endpoint shows.
* `Device.handleMmioRead`, `Device.handleMmioWrite`: The two handlers.
* `Device.bar0BTransport`: One BAR0 transaction.

## Theorems

* `decode_offset`: Every register is selected by its own offset.
* `offset_of_decode`: Only its own offset selects a register.
* `memcpy_self`: Copying a whole object.
* `word_memcpy_word32`: Reading a 4-byte register returns its value.
-/

namespace PcieCosim

open Bytes Kernel

/-- A 32-bit word; as matrix data, the bit pattern of a `float`. -/
abbrev Word := BitVec 32

/-- The three matrices of a job, `C = A * B`. -/
inductive Operand where
  | a
  | b
  | c
  deriving DecidableEq

instance (P : Operand → Prop) [DecidablePred P] : Decidable (∀ m, P m) :=
  decidable_of_iff (P .a ∧ P .b ∧ P .c)
    ⟨fun h m => match m with
      | .a => h.1
      | .b => h.2.1
      | .c => h.2.2,
    fun h => ⟨h .a, h .b, h .c⟩⟩

/-- The 32-bit words BAR0 decodes. A pointer register is two of them. -/
inductive Register where
  | control
  | status
  | dimN
  | matrixPtr (m : Operand)
  | matrixPtrHigh (m : Operand)
  | intStatus
  | intEnable
  deriving DecidableEq

/-- The offset of a pointer register: `REG_MATRIX_A_PTR` and its siblings. -/
def Operand.offset : Operand → BitVec 64
  | .a => 0x0010
  | .b => 0x0018
  | .c => 0x0020

/-- The register map. -/
def Register.offset : Register → BitVec 64
  | .control => 0x0000
  | .status => 0x0004
  | .dimN => 0x0008
  | .matrixPtr m => m.offset
  | .matrixPtrHigh m => m.offset + 4
  | .intStatus => 0x0028
  | .intEnable => 0x002C

/-- The cases of the address switch, in the source's order. -/
def Register.all : List Register :=
  [.control, .status, .dimN, .matrixPtr .a, .matrixPtrHigh .a, .matrixPtr .b, .matrixPtrHigh .b,
    .matrixPtr .c, .matrixPtrHigh .c, .intStatus, .intEnable]

/-- The address switch of the two handlers; `none` is its default case. -/
def Register.decode (addr : BitVec 64) : Option Register :=
  Register.all.find? (fun r => r.offset == addr)

theorem decode_offset (r : Register) : Register.decode r.offset = some r := by
  cases r with
  | matrixPtr m => cases m <;> rfl
  | matrixPtrHigh m => cases m <;> rfl
  | control => rfl
  | status => rfl
  | dimN => rfl
  | intStatus => rfl
  | intEnable => rfl

theorem offset_of_decode (addr : BitVec 64) (r : Register)
    (h : Register.decode addr = some r) : r.offset = addr := by
  have hp := List.find?_some h
  simpa only [beq_iff_eq] using hp

namespace Ctrl

/-- `CTRL_START`. -/
def start : Word := 1 <<< 0

/-- `CTRL_RESET`. -/
def reset : Word := 1 <<< 1

end Ctrl

namespace Status

/-- `STATUS_IDLE`. -/
def idle : Word := 1 <<< 0

/-- `STATUS_BUSY`. -/
def busy : Word := 1 <<< 1

/-- `STATUS_DONE`. -/
def done : Word := 1 <<< 2

/-- `STATUS_ERROR`. -/
def error : Word := 1 <<< 3

end Status

/-- `INT_DONE`. -/
def intDone : Word := 1 <<< 0

/-- A register value has the given bit. -/
def Has (v bit : Word) : Prop := v &&& bit ≠ 0

instance (v bit : Word) : Decidable (Has v bit) := inferInstanceAs (Decidable (v &&& bit ≠ 0))

/-- The register file, with the flag START leaves for the compute thread. -/
structure Registers where
  regControl : Word
  regStatus : Word
  regDimN : Word
  regMatrixAPtr : BitVec 64
  regMatrixBPtr : BitVec 64
  regMatrixCPtr : BitVec 64
  regIntStatus : Word
  regIntEnable : Word
  computationRequested : Bool
  deriving DecidableEq

/-- The parameters of a job. -/
@[ext]
structure Params where
  dimN : Word
  ptr : Operand → BitVec 64

instance : DecidableEq Params := fun p q =>
  decidable_of_iff (p.dimN = q.dimN ∧ ∀ m, p.ptr m = q.ptr m)
    ⟨fun h => Params.ext h.1 (funext h.2), fun h => h ▸ ⟨rfl, fun _ => rfl⟩⟩

namespace Registers

/-- One of the three pointer registers. -/
def matrixPtr (r : Registers) : Operand → BitVec 64
  | .a => r.regMatrixAPtr
  | .b => r.regMatrixBPtr
  | .c => r.regMatrixCPtr

/-- Assign one of the three pointer registers. -/
def setMatrixPtr (r : Registers) (m : Operand) (v : BitVec 64) : Registers :=
  match m with
  | .a => { r with regMatrixAPtr := v }
  | .b => { r with regMatrixBPtr := v }
  | .c => { r with regMatrixCPtr := v }

/-- A 4-byte write to the low word of a pointer register. -/
def setMatrixPtrLow (r : Registers) (m : Operand) (v : Word) : Registers :=
  r.setMatrixPtr m ((r.matrixPtr m &&& 0xFFFFFFFF00000000) ||| v.setWidth 64)

/-- A 4-byte write to the high word of a pointer register. -/
def setMatrixPtrHigh (r : Registers) (m : Operand) (v : Word) : Registers :=
  r.setMatrixPtr m ((r.matrixPtr m &&& (0xFFFFFFFF : BitVec 64)) ||| (v.setWidth 64 <<< 32))

/-- The job parameters the registers hold. -/
def params (r : Registers) : Params := { dimN := r.regDimN, ptr := r.matrixPtr }

/-- What `reset_device` leaves in the registers. -/
def resetDevice : Registers :=
  { regControl := 0
    regStatus := Status.idle
    regDimN := 0
    regMatrixAPtr := 0
    regMatrixBPtr := 0
    regMatrixCPtr := 0
    regIntStatus := 0
    regIntEnable := 0
    computationRequested := false }

/-- The enabled interrupts that are raised. -/
def irq (r : Registers) : Bool := r.regIntStatus &&& r.regIntEnable != 0

end Registers

/-- The command of a transaction. -/
inductive Command where
  | read
  | write
  | ignore
  deriving DecidableEq

/-- A generic payload. The data buffer is as long as the transaction. -/
structure Payload where
  command : Command
  address : BitVec 64
  data : List Byte
  deriving DecidableEq

/-- A 4-byte read. -/
def Payload.read32 (addr : BitVec 64) : Payload :=
  { command := .read, address := addr, data := List.replicate 4 0 }

/-- A 4-byte write. -/
def Payload.write32 (addr : BitVec 64) (v : Word) : Payload :=
  { command := .write, address := addr, data := word32 v }

/-- An 8-byte write. -/
def Payload.write64 (addr : BitVec 64) (v : BitVec 64) : Payload :=
  { command := .write, address := addr, data := word64 v }

/-- The response status of a transaction. -/
inductive ResponseStatus where
  | incomplete
  | ok
  | genericError
  | addressError
  deriving DecidableEq

/-- The answer to a BAR0 transaction: its status and the initiator's buffer
    afterwards, a byte the device does not determine being `none`. -/
structure Response where
  status : ResponseStatus
  data : List (Option Byte)
  deriving DecidableEq

/-- The first four bytes of the answer as a word, where all are determined. -/
def Response.word (r : Response) : Option Word :=
  match r.data with
  | some b₀ :: some b₁ :: some b₂ :: some b₃ :: _ => some (BitVec.ofNat 32 (leNat [b₀, b₁, b₂, b₃]))
  | _ => none

/-- A dimension that passes the check of `perform_matrix_multiply`. -/
structure Dim where
  val : Nat
  pos : 0 < val
  le : val ≤ 256

/-- The dimension check. -/
def Dim.check (n : Word) : Option Dim :=
  if h : n = 0 ∨ n > 256 then none
  else some { val := n.toNat, pos := by bv_omega, le := by bv_omega }

/-- A `vector<float>` of `n * n` elements. -/
structure FloatMatrix (n : Nat) where
  words : List Word
  size : words.length = n * n

namespace FloatMatrix

variable {n : Nat}

/-- The element at a flattened index. -/
def get (x : FloatMatrix n) (i : Nat) : Word := x.words.getD i 0

/-- Assign the element at a flattened index. -/
def set (x : FloatMatrix n) (i : Nat) (v : Word) : FloatMatrix n :=
  { words := x.words.set i v, size := by rw [List.length_set, x.size] }

/-- A matrix of zeros. -/
def zero (n : Nat) : FloatMatrix n :=
  { words := List.replicate (n * n) 0, size := List.length_replicate }

/-- The matrix a DMA buffer holds. -/
def ofBuffer (n : Nat) (buffer : List Byte) : FloatMatrix n :=
  { words := (List.range (n * n)).map (fun i => loadWord buffer (4 * i))
    size := by rw [List.length_map, List.length_range] }

end FloatMatrix

/-- Where `compute_thread` can be suspended, with the locals that are live
    there. The entry is before its first dispatch. -/
inductive Position where
  | entry
  /-- `wait(start_event)`. -/
  | waitStart
  /-- `wait(delay)` in the `dma_read` of matrix A. -/
  | readA (n : Dim) (ok : Bool) (a : FloatMatrix n.val)
  /-- `wait(delay)` in the `dma_read` of matrix B. -/
  | readB (n : Dim) (a : FloatMatrix n.val) (ok : Bool) (b : FloatMatrix n.val)
  /-- The wait after row `i` of the product. -/
  | row (n : Dim) (a b c : FloatMatrix n.val) (i : Nat)
  /-- `wait(delay)` in the `dma_write` of matrix C. -/
  | writeC (n : Dim) (ok : Bool)

/-- The positions inside `perform_matrix_multiply`. -/
def Position.inJob : Position → Bool
  | .entry => false
  | .waitStart => false
  | .readA _ _ _ => true
  | .readB _ _ _ _ => true
  | .row _ _ _ _ _ => true
  | .writeC _ _ => true

/-- The positions that wait for `start_event`. -/
def Position.waitsForStart : Position → Bool
  | .waitStart => true
  | _ => false

/-- Where `interrupt_controller` can be suspended. It is declared with
    `dont_initialize`, so it enters its body on its first trigger only. -/
inductive ControllerPosition where
  | entry
  | waiting
  deriving DecidableEq

/-- The endpoint. -/
structure Device where
  regs : Registers
  computeThread : Process Position
  interruptController : Process ControllerPosition
  interrupt : Signal

/-- What a run of the endpoint shows: the transactions on its two sockets and
    the messages that mark the life of a job. -/
inductive Event where
  | bar0 (t : Payload) (r : Response)
  | deviceReset
  | computationStarted (p : Params)
  | jobBegun
  | dma (m : Operand) (t : Payload) (ok : Bool)
  | jobEnded (success : Bool)

/-- `memcpy` out of an object: bytes past its end are not determined. -/
def memcpy (source : List Byte) (len : Nat) : List (Option Byte) :=
  (List.range len).map (fun i => source[i]?)

/-- Copying exactly the object determines every byte. -/
theorem memcpy_self (source : List Byte) :
    memcpy source source.length = source.map some := by
  refine List.ext_getElem? (fun i => ?_)
  rw [memcpy, List.getElem?_map, List.getElem?_map]
  by_cases hi : i < source.length
  · rw [List.getElem?_range hi, Option.map_some, List.getElem?_eq_getElem hi, Option.map_some]
  · rw [List.getElem?_eq_none (by rw [List.length_range]; omega),
      List.getElem?_eq_none (Nat.le_of_not_lt hi), Option.map_none, Option.map_none]

/-- Reading a 4-byte register with either width starts with its value. -/
theorem word_memcpy_word32 (v : Word) (len : Nat) (hlen : len = 4 ∨ len = 8)
    (s : ResponseStatus) :
    Response.word { status := s, data := memcpy (word32 v) len } = some v := by
  have hv := ofNat_leNat_word32 v
  rcases hlen with rfl | rfl
  · exact congrArg some hv
  · exact congrArg some hv

namespace Device

/-- `start_event.notify()`. -/
def notifyStart (d : Device) : Device :=
  { d with computeThread := d.computeThread.notify Position.waitsForStart }

/-- `update_interrupt`: both positions of the controller are sensitive to
    `interrupt_update_event`. -/
def updateInterrupt (d : Device) : Device :=
  { d with interruptController := d.interruptController.notify (fun _ => true) }

/-- `handle_mmio_read`: the bytes copied into the initiator's buffer. -/
def handleMmioRead (d : Device) (addr : BitVec 64) (len : Nat) : List (Option Byte) :=
  match Register.decode addr with
  | some .control => memcpy (word32 d.regs.regControl) len
  | some .status => memcpy (word32 d.regs.regStatus) len
  | some .dimN => memcpy (word32 d.regs.regDimN) len
  | some (.matrixPtr m) =>
      if len = 8 then memcpy (word64 (d.regs.matrixPtr m)) 8
      else memcpy (word32 ((d.regs.matrixPtr m).setWidth 32)) len
  | some (.matrixPtrHigh m) => memcpy (word32 ((d.regs.matrixPtr m >>> 32).setWidth 32)) len
  | some .intStatus => memcpy (word32 d.regs.regIntStatus) len
  | some .intEnable => memcpy (word32 d.regs.regIntEnable) len
  | none => memcpy (word32 0xDEADBEEF) len

/-- The RESET half of a CONTROL write. -/
def controlReset (d : Device) (value : Word) : Device × List Event :=
  if Has value Ctrl.reset then
    ({ d with regs := Registers.resetDevice }, [.deviceReset])
  else (d, [])

/-- The START half of a CONTROL write, after the RESET half. -/
def controlStart (d : Device) (value : Word) : Device × List Event :=
  if Has value Ctrl.start then
    if Has d.regs.regStatus Status.idle then
      ({ d with regs := { d.regs with computationRequested := true } }.notifyStart,
        [.computationStarted d.regs.params])
    else (d, [])
  else (d, [])

/-- The CONTROL case of `handle_mmio_write`. -/
def writeControl (d : Device) (value : Word) : Device × List Event :=
  let d₀ := { d with regs := { d.regs with regControl := value } }
  let d₁ := d₀.controlReset value
  let d₂ := d₁.1.controlStart value
  (d₂.1, d₁.2 ++ d₂.2)

/-- The INT_STATUS case: the bits written as one are cleared. -/
def clearIntStatus (d : Device) (value : Word) : Device :=
  { d with regs := { d.regs with
      regIntStatus := d.regs.regIntStatus &&& ~~~value } }.updateInterrupt

/-- The INT_ENABLE case. -/
def setIntEnable (d : Device) (value : Word) : Device :=
  { d with regs := { d.regs with regIntEnable := value } }.updateInterrupt

/-- `handle_mmio_write`. The 4-byte value is zero in an 8-byte write, and the
    other way round. -/
def handleMmioWrite (d : Device) (addr : BitVec 64) (data : List Byte) : Device × List Event :=
  let value : Word := if data.length = 4 then BitVec.ofNat 32 (leNat data) else 0
  let value64 : BitVec 64 := if data.length = 8 then BitVec.ofNat 64 (leNat data) else 0
  match Register.decode addr with
  | some .control => d.writeControl value
  | some .dimN => ({ d with regs := { d.regs with regDimN := value } }, [])
  | some (.matrixPtr m) =>
      if data.length = 8 then ({ d with regs := d.regs.setMatrixPtr m value64 }, [])
      else ({ d with regs := d.regs.setMatrixPtrLow m value }, [])
  | some (.matrixPtrHigh m) => ({ d with regs := d.regs.setMatrixPtrHigh m value }, [])
  | some .intStatus => (d.clearIntStatus value, [])
  | some .intEnable => (d.setIntEnable value, [])
  -- STATUS has no case of its own in the switch: it is an undefined register.
  | some .status => (d, [])
  | none => (d, [])

/-- `bar0_b_transport`: the device afterwards, what it printed, and the
    answer. -/
def bar0BTransport (d : Device) (t : Payload) : Device × List Event × Response :=
  if t.data.length ≠ 4 ∧ t.data.length ≠ 8 then
    (d, [], { status := .genericError, data := t.data.map some })
  else
    match t.command with
    | .read =>
        (d, [], { status := .ok, data := d.handleMmioRead t.address t.data.length })
    | .write =>
        let w := d.handleMmioWrite t.address t.data
        (w.1, w.2, { status := .ok, data := t.data.map some })
    | .ignore => (d, [], { status := .ok, data := t.data.map some })

end Device

end PcieCosim
