import PcieCosim.Endpoint.Device
import PcieCosim.Lib.Transition

/-!
# The Endpoint as a Machine

`compute_thread`, `perform_matrix_multiply` and `interrupt_controller`, and
the endpoint as a labelled machine whose runs are the interleavings the
simulation kernel allows.

A thread runs from one wait to the next without interruption, so one dispatch
is one step. `compute` is that dispatch for the compute thread: each of its
cases is the code between two waits, and it issues at most one DMA
transaction. The target's answer belongs to the environment, and the label of
the dispatch carries it as a function of the transaction.

The scheduler is nondeterministic but keeps the kernel's phases. A runnable
process may be dispatched at any time and in any order, and a BAR0 transaction
may arrive at any time. Signals update only when no process is runnable, and
time advances, ending a timed wait, only when moreover every signal has
settled.

Floating-point arithmetic is a parameter: `FloatArith` names the two operators
the triple loop uses on bit patterns, and nothing here depends on which they
are.

## Main definitions

* `FloatArith`: Single-precision addition and multiplication.
* `float32Arith`: The same on the platform's own `float`.
* `Reply`, `DmaTarget`: The answer of a DMA target, and a target.
* `dotProduct`, `computeRow`: The loops of the product.
* `Device.endJob`: The end of a job, back to `wait(start_event)`.
* `Device.performMatrixMultiply`: The job up to its first wait.
* `Device.compute`: One dispatch of the compute thread.
* `Device.control`: One dispatch of the interrupt controller.
* `Label`: The steps of the machine.
* `Label.isKernel`, `Label.isBar0`: Two kinds of steps.
* `machine`: The endpoint as a machine.
* `Device.constructed`: The endpoint when simulation starts.
* `Device.initialized`: The endpoint after initialization.
* `startOne`, `finishOne`: The steps of a job of dimension one.
-/

namespace PcieCosim

open Bytes Kernel Transition

/-- Single-precision arithmetic on bit patterns. -/
class FloatArith where
  add : Word → Word → Word
  mul : Word → Word → Word

/-- The arithmetic of IEEE single precision. -/
@[reducible]
def float32Arith : FloatArith where
  add x y := (Float32.ofBits ⟨x⟩ + Float32.ofBits ⟨y⟩).toBits.toBitVec
  mul x y := (Float32.ofBits ⟨x⟩ * Float32.ofBits ⟨y⟩).toBits.toBitVec

/-- The answer of a DMA target: its status and the data buffer afterwards. -/
structure Reply where
  status : ResponseStatus
  data : List Byte

/-- `is_response_ok`. -/
def Reply.isResponseOk (r : Reply) : Bool := r.status == .ok

/-- What a DMA target answers to each transaction. -/
abbrev DmaTarget := Payload → Reply

/-- The target that answers OK and touches no buffer. -/
def acceptAll : DmaTarget := fun t => { status := .ok, data := t.data }

section

variable [FloatArith]

/-- The loop over `k`: one cell of the product. -/
def dotProduct {n : Nat} (a b : FloatMatrix n) (i j : Nat) : Word :=
  (List.range n).foldl (fun sum k =>
    FloatArith.add sum (FloatArith.mul (a.get (i * n + k)) (b.get (k * n + j)))) 0

/-- The loop over `j`: one row of the product. -/
def computeRow {n : Nat} (a b c : FloatMatrix n) (i : Nat) : FloatMatrix n :=
  (List.range n).foldl (fun c j => c.set (i * n + j) (dotProduct a b i j)) c

end

namespace Device

/-- Leave the compute thread waiting at the given position. -/
def suspendAt (d : Device) (p : Position) : Device :=
  { d with computeThread := suspend p }

/-- The transaction of `dma_read`. -/
def readPayload (d : Device) (m : Operand) (n : Nat) : Payload :=
  { command := .read, address := d.regs.matrixPtr m, data := List.replicate (n * n * 4) 0 }

/-- The transaction of `dma_write`. -/
def writePayload (d : Device) (m : Operand) {n : Nat} (c : FloatMatrix n) : Payload :=
  { command := .write, address := d.regs.matrixPtr m, data := storeWords c.words }

/-- The registers when `perform_matrix_multiply` returns. -/
def jobResult (success : Bool) (r : Registers) : Registers :=
  if success then
    { r with
      regStatus := Status.idle ||| Status.done
      regIntStatus := r.regIntStatus ||| intDone }
  else { r with regStatus := Status.idle ||| Status.error }

/-- The end of a job: from the return of `perform_matrix_multiply` back to
    `wait(start_event)`. -/
def endJob (success : Bool) (d : Device) : Device × List Event :=
  ({ d with regs := jobResult success d.regs }.updateInterrupt.suspendAt .waitStart,
    [.jobEnded success])

/-- From the return of the second `dma_read`, or of a row's wait, to the next
    wait: the row loop and, past it, the write of matrix C. -/
def nextRow [FloatArith] (target : DmaTarget) (n : Dim) (a b c : FloatMatrix n.val) (i : Nat)
    (d : Device) : Device × List Event :=
  if i < n.val then (d.suspendAt (.row n a b (computeRow a b c i) i), [])
  else
    let t := d.writePayload .c c
    let ok := (target t).isResponseOk
    (d.suspendAt (.writeC n ok), [.dma .c t ok])

/-- From the return of the first `dma_read` to the next wait. -/
def readMatrixB (target : DmaTarget) (n : Dim) (a : FloatMatrix n.val) (d : Device) :
    Device × List Event :=
  let t := d.readPayload .b n.val
  let ok := (target t).isResponseOk
  (d.suspendAt (.readB n a ok (.ofBuffer n.val (target t).data)), [.dma .b t ok])

/-- `perform_matrix_multiply` up to its first wait. -/
def performMatrixMultiply (target : DmaTarget) (d : Device) : Device × List Event :=
  match Dim.check d.regs.regDimN with
  | none => d.endJob false
  | some n =>
      let t := d.readPayload .a n.val
      let ok := (target t).isResponseOk
      (d.suspendAt (.readA n ok (.ofBuffer n.val (target t).data)), [.dma .a t ok])

/-- The registers as a job begins. -/
def jobStart (r : Registers) : Registers :=
  { r with
    regStatus := Status.busy &&& ~~~Status.idle
    computationRequested := false }

/-- One dispatch of `compute_thread`, from the wait it is suspended in to the
    next one. -/
def compute [FloatArith] (target : DmaTarget) (d : Device) : Device × List Event :=
  match d.computeThread.position with
  | .entry => (d.suspendAt .waitStart, [])
  | .waitStart =>
      if d.regs.computationRequested then
        let r := { d with regs := jobStart d.regs }.performMatrixMultiply target
        (r.1, .jobBegun :: r.2)
      else (d.suspendAt .waitStart, [])
  | .readA n ok a => if ok then d.readMatrixB target n a else d.endJob false
  | .readB n a ok b =>
      if ok then d.nextRow target n a b (.zero n.val) 0 else d.endJob false
  | .row n a b c i => d.nextRow target n a b c (i + 1)
  | .writeC _ ok => d.endJob ok

/-- One dispatch of `interrupt_controller`. The first one only enters the body
    and reaches `wait()`. -/
def control (d : Device) : Device :=
  match d.interruptController.position with
  | .entry => { d with interruptController := suspend .waiting }
  | .waiting =>
      { d with
        interruptController := suspend .waiting
        interrupt := d.interrupt.write d.regs.irq }

/-- No process is runnable: the evaluation phase is over. -/
def Evaluated (d : Device) : Prop :=
  d.computeThread.runnable = false ∧ d.interruptController.runnable = false

instance (d : Device) : Decidable d.Evaluated :=
  inferInstanceAs (Decidable (d.computeThread.runnable = false ∧
    d.interruptController.runnable = false))

end Device

/-- The steps of the machine. `δ` is what a dispatch of the compute thread
    has to be told about the DMA target. -/
inductive Label (δ : Type) where
  /-- A BAR0 transaction. -/
  | bar0 (t : Payload)
  /-- A dispatch of `compute_thread`. -/
  | compute (target : δ)
  /-- A dispatch of `interrupt_controller`. -/
  | control
  /-- The update phase. -/
  | update
  /-- The end of the compute thread's timed wait. -/
  | timeout

/-- The steps the kernel takes on its own: neither a BAR0 transaction nor a
    dispatch of the compute thread. -/
def Label.isKernel {δ : Type} : Label δ → Bool
  | .bar0 _ => false
  | .compute _ => false
  | .control => true
  | .update => true
  | .timeout => true

/-- A BAR0 transaction. -/
def Label.isBar0 {δ : Type} : Label δ → Bool
  | .bar0 _ => true
  | _ => false

/-- One step of the endpoint. -/
def Device.step [FloatArith] (d : Device) : Label DmaTarget → Option (Device × List Event)
  | .bar0 t =>
      let r := d.bar0BTransport t
      some (r.1, r.2.1 ++ [.bar0 t r.2.2])
  | .compute target => if d.computeThread.runnable then some (d.compute target) else none
  | .control => if d.interruptController.runnable then some (d.control, []) else none
  | .update =>
      if d.Evaluated then some ({ d with interrupt := d.interrupt.update }, []) else none
  | .timeout =>
      if d.Evaluated ∧ d.interrupt.Settled ∧ d.computeThread.position.inJob then
        some ({ d with computeThread := d.computeThread.wake }, [])
      else none

/-- The endpoint as a machine. -/
def machine [FloatArith] : Machine Device (Label DmaTarget) Event where
  step := Device.step

/-- The endpoint when simulation starts: constructed, `compute_thread` about
    to be initialized, `interrupt_controller` not. -/
def Device.constructed : Device :=
  { regs := Registers.resetDevice
    computeThread := { position := .entry, runnable := true }
    interruptController := suspend .entry
    interrupt := { current := false, next := false } }

/-- The endpoint after initialization: `compute_thread` has reached its first
    `wait(start_event)`. -/
def Device.initialized : Device :=
  Device.constructed.suspendAt .waitStart

/-- After initialization, the steps that start a job of dimension one and take
    it to its first wait. -/
def startOne (target : DmaTarget) : List (Label DmaTarget) :=
  [.bar0 (.write32 Register.dimN.offset 1), .bar0 (.write32 Register.control.offset Ctrl.start),
    .compute target]

/-- The remaining steps of a job of dimension one. -/
def finishOne (target : DmaTarget) : List (Label DmaTarget) :=
  [.timeout, .compute target, .timeout, .compute target, .timeout, .compute target, .timeout,
    .compute target]

end PcieCosim
