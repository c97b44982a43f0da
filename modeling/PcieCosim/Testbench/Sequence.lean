import PcieCosim.Endpoint.Timed

/-!
# The Testbench

`test_driver` and the simulation of the testbench: the driver's thread, the
endpoint and `host_memory` under one kernel.

`test_sequence` is a thread like those of the endpoint. It is suspended at its
timed waits, the one in each `mmio_*` access included, and a dispatch runs it
from one wait to the next. The dimension and the three pointers it programs
are parameters here; the values of the source are `testParams`.

The kernel is that of the timed endpoint with one more process. Runnable
processes are dispatched in any order. When none is left a signal that was
written is updated, and when there is none either, time advances to the
earliest wait that is due and every wait due at that time ends. After
`sc_stop` time does not advance any more.

## Main definitions

* `Message`: What `test_sequence` prints.
* `TestPosition`: Where `test_sequence` can be suspended.
* `Bench`: The state of the simulation.
* `Bench.mmioRead32`, `Bench.mmioWrite32`, `Bench.mmioWrite64`: The accesses.
* `Bench.testSequence`: One dispatch of `test_sequence`.
* `BenchLabel`, `testbench`: The simulation as a machine.
* `Bench.start`: The simulation when it starts.
* `testParams`: The parameters of the source.

## Theorems

* `testbench_compute_iff`, `testbench_control_iff`, `testbench_update_iff`,
  `testbench_sequence_iff`, `testbench_advance_iff`: The steps of the
  simulation.
* `system_timeout`: The end of a wait of the compute thread is a step of the
  endpoint.
-/

namespace PcieCosim

open Bytes Kernel Transition

/-- What `test_sequence` prints, with the values in it. -/
inductive Message where
  | startingTest
  | readingStatus
  | status (v : Word)
  | configuring (n : Word)
  | startingComputation
  | waitingForCompletion
  | interruptReceived
  | finalStatus (v : Word)
  | interruptStatus (v : Word)
  | completed
  deriving DecidableEq

/-- Where `test_sequence` can be suspended, with the values that are live
    there. -/
inductive TestPosition where
  | entry
  /-- `wait(100, SC_NS)` at the start. -/
  | beforeTest
  /-- `wait(delay)` in the first read of STATUS. -/
  | readStatus (v : Word)
  /-- The same in the write of DIM_N. -/
  | setDim
  /-- The same in the write of a pointer. -/
  | setPtr (m : Operand)
  /-- The same in the write of INT_ENABLE. -/
  | setIntEnable
  /-- The same in the write of CONTROL. -/
  | start
  /-- `wait(10, SC_NS)` in the loop on `interrupt_in`. -/
  | waitInterrupt
  /-- `wait(delay)` in the second read of STATUS. -/
  | finalStatus (v : Word)
  /-- The same in the read of INT_STATUS. -/
  | intStatus (v : Word)
  /-- The same in the write of INT_STATUS. -/
  | clearInt
  /-- `wait(100, SC_NS)` at the end. -/
  | afterTest
  /-- After `sc_stop`. -/
  | stopped
  deriving DecidableEq

/-- The simulation: the endpoint with its memory and the clock, the thread of
    `test_driver`, and when the wait it is in will be due. -/
structure Bench extends Timed where
  driver : Process TestPosition
  driverDue : Nat

/-- What the simulation shows. -/
inductive BenchEvent where
  | device (e : Event)
  | printed (m : Message)

/-- What `bar0_b_transport` adds to the delay of a transaction. -/
def bar0Delay (t : Payload) : Nat :=
  if t.data.length ≠ 4 ∧ t.data.length ≠ 8 then 0 else 10

namespace Bench

/-- Print, and wait for `dt` nanoseconds. -/
def waitFor (s : Bench) (ms : List Message) (next : TestPosition) (dt : Nat) :
    Bench × List (Nat × BenchEvent) :=
  ({ s with driver := suspend next, driverDue := s.now + dt },
    ms.map (fun m => (s.now, .printed m)))

/-- Print, make an access and wait for its delay. The position waited at may
    depend on the word read. -/
def mmio (s : Bench) (ms : List Message) (t : Payload) (next : Word → TestPosition) :
    Bench × List (Nat × BenchEvent) :=
  let r := s.device.bar0BTransport t
  ({ s with
      device := r.1
      driver := suspend (next (r.2.2.word.getD 0))
      driverDue := s.now + bar0Delay t },
    ms.map (fun m => (s.now, .printed m)) ++
      (r.2.1 ++ [Event.bar0 t r.2.2]).map (fun e => (s.now, .device e)))

/-- `mmio_read32`. -/
def mmioRead32 (s : Bench) (ms : List Message) (r : Register) (next : Word → TestPosition) :
    Bench × List (Nat × BenchEvent) :=
  s.mmio ms (.read32 r.offset) next

/-- `mmio_write32`. -/
def mmioWrite32 (s : Bench) (ms : List Message) (r : Register) (v : Word)
    (next : TestPosition) : Bench × List (Nat × BenchEvent) :=
  s.mmio ms (.write32 r.offset v) (fun _ => next)

/-- `mmio_write64`. -/
def mmioWrite64 (s : Bench) (ms : List Message) (r : Register) (v : BitVec 64)
    (next : TestPosition) : Bench × List (Nat × BenchEvent) :=
  s.mmio ms (.write64 r.offset v) (fun _ => next)

/-- The loop on `interrupt_in`: past it the status is read. -/
def awaitInterrupt (s : Bench) (ms : List Message) : Bench × List (Nat × BenchEvent) :=
  if s.device.interrupt.current then
    s.mmioRead32 (ms ++ [.interruptReceived]) .status .finalStatus
  else s.waitFor ms .waitInterrupt 10

/-- One dispatch of `test_sequence`, from the wait it is suspended in to the
    next one. -/
def testSequence (p : Params) (s : Bench) : Bench × List (Nat × BenchEvent) :=
  match s.driver.position with
  | .entry => s.waitFor [.startingTest] .beforeTest 100
  | .beforeTest => s.mmioRead32 [.readingStatus] .status .readStatus
  | .readStatus v => s.mmioWrite32 [.status v, .configuring p.dimN] .dimN p.dimN .setDim
  | .setDim => s.mmioWrite64 [] (.matrixPtr .a) (p.ptr .a) (.setPtr .a)
  | .setPtr .a => s.mmioWrite64 [] (.matrixPtr .b) (p.ptr .b) (.setPtr .b)
  | .setPtr .b => s.mmioWrite64 [] (.matrixPtr .c) (p.ptr .c) (.setPtr .c)
  | .setPtr .c => s.mmioWrite32 [] .intEnable 1 .setIntEnable
  | .setIntEnable => s.mmioWrite32 [.startingComputation] .control 1 .start
  | .start => s.awaitInterrupt [.waitingForCompletion]
  | .waitInterrupt => s.awaitInterrupt []
  | .finalStatus v => s.mmioRead32 [.finalStatus v] .intStatus .intStatus
  | .intStatus v => s.mmioWrite32 [.interruptStatus v] .intStatus v .clearInt
  | .clearInt => s.waitFor [.completed] .afterTest 100
  -- `sc_stop`, after which the thread has returned.
  | .afterTest => ({ s with driver := suspend .stopped }, [])
  | .stopped => (s, [])

/-- Nothing is left to do at this time: no process is runnable, every signal
    has settled, and the simulation has not been stopped. -/
def Quiescent (s : Bench) : Prop :=
  s.device.Evaluated ∧ s.device.interrupt.Settled ∧ s.driver.runnable = false ∧
    s.driver.position ≠ .stopped

instance (s : Bench) : Decidable s.Quiescent :=
  inferInstanceAs (Decidable (_ ∧ _ ∧ s.driver.runnable = false ∧ s.driver.position ≠ .stopped))

/-- The earliest time a wait is due. -/
def nextDue (s : Bench) : Nat :=
  if s.device.computeThread.position.inJob then min s.due s.driverDue else s.driverDue

/-- The compute thread is in a timed wait that is due at `t`. -/
def ComputeDue (s : Bench) (t : Nat) : Prop :=
  s.device.computeThread.position.inJob = true ∧ s.due = t

instance (s : Bench) (t : Nat) : Decidable (s.ComputeDue t) :=
  inferInstanceAs (Decidable (_ = true ∧ s.due = t))

/-- The end of the compute thread's wait, if it is due at `t`. -/
def wakeCompute (s : Bench) (t : Nat) : Device :=
  if s.ComputeDue t then { s.device with computeThread := s.device.computeThread.wake }
  else s.device

/-- The simulation after time has advanced to the earliest wait that is due. -/
def advanced (s : Bench) : Bench :=
  { s with
    device := s.wakeCompute s.nextDue
    now := s.nextDue
    driver := if s.driverDue = s.nextDue then s.driver.wake else s.driver }

/-- A step of the timed endpoint. -/
def lift [FloatArith] (s : Bench) (l : Label Unit) : Option (Bench × List (Nat × BenchEvent)) :=
  match timed.step s.toTimed (.step l) with
  | none => none
  | some (t, es) => some ({ s with toTimed := t }, es.map (fun e => (e.1, .device e.2)))

end Bench

/-- The steps of the simulation. -/
inductive BenchLabel where
  /-- A dispatch of `compute_thread`. -/
  | compute
  /-- A dispatch of `interrupt_controller`. -/
  | control
  /-- A dispatch of `test_sequence`. -/
  | testSequence
  /-- The update phase. -/
  | update
  /-- The advance of time. -/
  | advance

/-- One step of the simulation of a test with the parameters `p`. -/
def Bench.step [FloatArith] (p : Params) (s : Bench) :
    BenchLabel → Option (Bench × List (Nat × BenchEvent))
  | .compute => s.lift (.compute ())
  | .control => s.lift .control
  | .testSequence => if s.driver.runnable then some (s.testSequence p) else none
  -- The kernel updates the signals that were written to a new value.
  | .update =>
      if s.driver.runnable = false ∧ ¬ s.device.interrupt.Settled then s.lift .update else none
  | .advance => if s.Quiescent then some (s.advanced, []) else none

/-- The simulation as a machine. -/
def testbench [FloatArith] (p : Params) : Machine Bench BenchLabel (Nat × BenchEvent) where
  step := Bench.step p

/-- The simulation when it starts, with what `host_memory` holds then. -/
def Bench.start (mem : List Byte) : Bench :=
  { toTimed := Timed.start mem
    driver := { position := .entry, runnable := true }
    driverDue := 0 }

/-- The parameters of the test: 4 by 4 matrices. -/
def testParams : Params where
  dimN := 4
  ptr
    | .a => 0x1000
    | .b => 0x2000
    | .c => 0x3000

section

variable [FloatArith] (p : Params) (s s' : Bench) (es : List (Nat × BenchEvent))

/-- A step of the endpoint in the simulation is one of the attached endpoint. -/
theorem lift_iff (l : Label Unit) (hl : l.isTimeout = false) :
    s.lift l = some (s', es) ↔
      ∃ a es₀, system.step s.toAttached l = some (a, es₀) ∧ Defined s.memory es₀ ∧
        s' = { s with toTimed := s.after l a } ∧ es = es₀.map (fun e => (s.now, .device e)) := by
  unfold Bench.lift
  constructor
  · intro h
    rcases hstep : timed.step s.toTimed (.step l) with _ | ⟨t, es'⟩
    · rw [hstep] at h
      simp only [reduceCtorEq] at h
    · rw [hstep] at h
      simp only [Option.some.injEq, Prod.mk.injEq] at h
      rcases (timed_step_iff s.toTimed t l es').mp hstep with ⟨a, es₀, hsys, -, hdef, rfl, rfl⟩
      refine ⟨a, es₀, hsys, hdef, h.1.symm, ?_⟩
      rw [← h.2, List.map_map]
      rfl
  · rintro ⟨a, es₀, hsys, hdef, rfl, rfl⟩
    have hstep := (timed_step_iff s.toTimed (s.after l a) l _).mpr
      ⟨a, es₀, hsys, fun h => absurd (hl.symm.trans h) Bool.false_ne_true, hdef, rfl, rfl⟩
    rw [hstep]
    simp only [List.map_map]
    rfl

theorem testbench_compute_iff :
    (testbench p).step s .compute = some (s', es) ↔
      ∃ a es₀, system.step s.toAttached (.compute ()) = some (a, es₀) ∧ Defined s.memory es₀ ∧
        s' = { s with toTimed := s.after (.compute ()) a } ∧
        es = es₀.map (fun e => (s.now, .device e)) :=
  lift_iff s s' es (.compute ()) rfl

/-- A dispatch of the interrupt controller. -/
theorem testbench_control_iff :
    (testbench p).step s .control = some (s', es) ↔
      s.device.interruptController.runnable = true ∧
        s' = { s with device := s.device.control } ∧ es = [] := by
  refine (lift_iff s s' es .control rfl).trans ⟨?_, ?_⟩
  · rintro ⟨a, es₀, hsys, -, rfl, rfl⟩
    change Attached.step _ _ = _ at hsys
    simp only [Attached.step, Label.map, machine, Device.step] at hsys
    by_cases hr : s.device.interruptController.runnable = true
    · rw [if_pos hr] at hsys
      simp only [Option.some.injEq, Prod.mk.injEq] at hsys
      rcases hsys with ⟨rfl, rfl⟩
      exact ⟨hr, rfl, rfl⟩
    · rw [if_neg hr] at hsys
      simp only [reduceCtorEq] at hsys
  · rintro ⟨hr, rfl, rfl⟩
    refine ⟨{ device := s.device.control, memory := s.memory }, [], ?_,
      fun _ he => absurd he List.not_mem_nil, rfl, rfl⟩
    refine system_step s.toAttached .control s.device.control [] ?_
    change Device.step s.device .control = _
    rw [Device.step, if_pos hr]

/-- The update phase. -/
theorem testbench_update_iff :
    (testbench p).step s .update = some (s', es) ↔
      (s.device.Evaluated ∧ s.driver.runnable = false ∧ ¬ s.device.interrupt.Settled) ∧
        s' = { s with device := { s.device with interrupt := s.device.interrupt.update } } ∧
        es = [] := by
  change (if _ then s.lift .update else none) = _ ↔ _
  by_cases hready : s.driver.runnable = false ∧ ¬ s.device.interrupt.Settled
  · rw [if_pos hready]
    refine (lift_iff s s' es .update rfl).trans ⟨?_, ?_⟩
    · rintro ⟨a, es₀, hsys, -, rfl, rfl⟩
      change Attached.step _ _ = _ at hsys
      simp only [Attached.step, Label.map, machine, Device.step] at hsys
      by_cases he : s.device.Evaluated
      · rw [if_pos he] at hsys
        simp only [Option.some.injEq, Prod.mk.injEq] at hsys
        rcases hsys with ⟨rfl, rfl⟩
        exact ⟨⟨he, hready⟩, rfl, rfl⟩
      · rw [if_neg he] at hsys
        simp only [reduceCtorEq] at hsys
    · rintro ⟨⟨he, -⟩, rfl, rfl⟩
      refine ⟨⟨{ s.device with interrupt := s.device.interrupt.update }, s.memory⟩, [], ?_,
        fun _ he => absurd he List.not_mem_nil, rfl, rfl⟩
      refine system_step s.toAttached .update _ [] ?_
      change Device.step s.device .update = _
      rw [Device.step, if_pos he]
  · rw [if_neg hready]
    simp only [reduceCtorEq, false_iff]
    exact fun h => hready h.1.2

theorem testbench_sequence_iff :
    (testbench p).step s .testSequence = some (s', es) ↔
      s.driver.runnable = true ∧ s.testSequence p = (s', es) := by
  change (if s.driver.runnable = true then some (s.testSequence p) else none) = _ ↔ _
  by_cases hr : s.driver.runnable = true
  · rw [if_pos hr, Option.some.injEq]
    exact ⟨fun h => ⟨hr, h⟩, And.right⟩
  · rw [if_neg hr]
    simp only [reduceCtorEq, false_iff]
    exact fun h => hr h.1

theorem testbench_advance_iff :
    (testbench p).step s .advance = some (s', es) ↔
      s.Quiescent ∧ s' = s.advanced ∧ es = [] := by
  change (if s.Quiescent then some (s.advanced, []) else none) = _ ↔ _
  by_cases hq : s.Quiescent
  · rw [if_pos hq]
    simp only [Option.some.injEq, Prod.mk.injEq]
    exact ⟨fun h => ⟨hq, h.1.symm, h.2.symm⟩, fun h => ⟨h.2.1.symm, h.2.2.symm⟩⟩
  · rw [if_neg hq]
    simp only [reduceCtorEq, false_iff]
    exact fun h => hq h.1

end

/-- The end of the compute thread's wait is a step of the endpoint. -/
theorem system_timeout [FloatArith] (a : Attached) (he : a.device.Evaluated)
    (hsig : a.device.interrupt.Settled)
    (hpos : a.device.computeThread.position.inJob = true) :
    system.step a .timeout =
      some ({ a with device := { a.device with computeThread := a.device.computeThread.wake } },
        []) := by
  refine system_step a .timeout _ [] ?_
  change Device.step a.device .timeout = _
  rw [Device.step, if_pos ⟨he, hsig, hpos⟩]

end PcieCosim
