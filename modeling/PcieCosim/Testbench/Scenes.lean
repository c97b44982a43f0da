import PcieCosim.Endpoint.Sessions
import PcieCosim.Testbench.Sequence

/-!
# The Scenes of a Test

What the simulation is like between the start of the test and its end,
whatever the order of dispatches.

The driver makes its accesses at fixed times, so the START is accepted at
160 ns and a job that succeeds ends at `jobEnd`. The loop on `interrupt_in`
looks at the line every 10 ns. At the time the job ends the line is written
and updated only after every process that runs at that time, so a poll made
then still finds it low, in whatever order the two threads are dispatched, and
the first poll after it finds it high. That poll is at `seenAt`, and the rest
of the test follows from it.

`Scene` is the list of these situations: the driver programs the endpoint, the
job runs, the interrupt is on its way, the driver reads and clears it. A job
whose parameters do not fit raises no interrupt, and the last scene of such a
test is the loop.

## Main definitions

* `jobEnd`, `seenAt`: When a successful job ends, and when the driver sees it.
* `transcript`: What a successful test prints, and when.
* `Bench.DueAt`, `Polls`: The thread of the driver waits until a time, and
  waits for the interrupt.
* `Setup`, `InJob`, `Raising`, `Signalled`, `Cleared`, `Failed`: The situations.
* `Scene`: Any of them.

## Theorems

* `dueAt_suspend`, `dueAt_frame`, `dueAt_advanced`, `dueAt_wake`: The wait of
  the driver.
* `setup_sequence`, `setup_step`: Programming the endpoint leads to the job.
* `polls_frame`, `polls_low`, `polls_advanced`: The loop while the line is low.
* `dispatch_quiet`: A dispatch inside a job leaves the interrupt alone.
* `inJob_compute`, `inJob_step`: The job leads to its end.
-/

namespace PcieCosim

open Bytes Kernel Transition

/-- When a successful job of dimension `n` ends. -/
def jobEnd (n : Nat) : Nat := 370 + 2 * n * n

/-- When the driver sees the interrupt of that job: at its first poll after
    the end. -/
def seenAt (n : Nat) : Nat := 10 * (jobEnd n / 10 + 1)

/-- The messages among the events of the simulation. -/
def messageAt : Nat × BenchEvent → Option (Nat × Message)
  | (t, .printed m) => some (t, m)
  | _ => none

/-- What a trace of the simulation prints, with the times. -/
def printed (tr : List (Nat × BenchEvent)) : List (Nat × Message) := tr.filterMap messageAt

/-- What a successful test prints, and when. -/
def transcript (p : Params) : List (Nat × Message) :=
  [(0, .startingTest), (100, .readingStatus), (110, .status Status.idle),
    (110, .configuring p.dimN), (160, .startingComputation), (170, .waitingForCompletion),
    (seenAt p.dimN.toNat, .interruptReceived),
    (seenAt p.dimN.toNat + 10, .finalStatus (Status.idle ||| Status.done)),
    (seenAt p.dimN.toNat + 20, .interruptStatus intDone),
    (seenAt p.dimN.toNat + 30, .completed)]

/-- How much of the transcript is printed when the driver waits at a
    position. -/
def TestPosition.lines : TestPosition → Nat
  | .entry => 0
  | .beforeTest => 1
  | .readStatus _ => 2
  | .setDim => 4
  | .setPtr _ => 4
  | .setIntEnable => 4
  | .start => 5
  | .waitInterrupt => 6
  | .finalStatus _ => 7
  | .intStatus _ => 8
  | .clearInt => 9
  | .afterTest => 10
  | .stopped => 10

/-- The thread of the driver waits until `t` and is runnable from then on. -/
structure Bench.DueAt (s : Bench) (t : Nat) : Prop where
  due : s.driverDue = t
  notLate : s.now ≤ t
  woken : s.driver.runnable = true ↔ s.now = t

/-- The driver is in the loop on `interrupt_in`, or about to enter it. -/
structure Polls (s : Bench) : Prop where
  position : s.driver.position = .waitInterrupt ∨
    (s.driver.position = .start ∧ s.driverDue = 170)
  clock : s.DueAt s.driverDue
  soon : s.driverDue ≤ s.now + 10
  tens : s.driverDue % 10 = 0

/-- The positions before the START. -/
def TestPosition.isSetup : TestPosition → Bool
  | .entry => true
  | .beforeTest => true
  | .readStatus v => v == Status.idle
  | .setDim => true
  | .setPtr _ => true
  | .setIntEnable => true
  | _ => false

/-- When the waits before the START are due. -/
def TestPosition.setupDue : TestPosition → Nat
  | .entry => 0
  | .beforeTest => 100
  | .readStatus _ => 110
  | .setDim => 120
  | .setPtr .a => 130
  | .setPtr .b => 140
  | .setPtr .c => 150
  | _ => 160

/-- The registers before the START. -/
def setupRegs (p : Params) : TestPosition → Registers
  | .setDim => { Registers.resetDevice with regDimN := p.dimN }
  | .setPtr .a => { Registers.resetDevice with regDimN := p.dimN, regMatrixAPtr := p.ptr .a }
  | .setPtr .b =>
      { Registers.resetDevice with
        regDimN := p.dimN, regMatrixAPtr := p.ptr .a, regMatrixBPtr := p.ptr .b }
  | .setPtr .c =>
      { Registers.resetDevice with
        regDimN := p.dimN, regMatrixAPtr := p.ptr .a, regMatrixBPtr := p.ptr .b,
        regMatrixCPtr := p.ptr .c }
  | .setIntEnable =>
      { Registers.resetDevice with
        regDimN := p.dimN, regMatrixAPtr := p.ptr .a, regMatrixBPtr := p.ptr .b,
        regMatrixCPtr := p.ptr .c, regIntEnable := 1 }
  | _ => Registers.resetDevice

/-- A signal that has been low for a while. -/
def lowSignal : Signal := { current := false, next := false }

/-- A signal that has been high for a while. -/
def highSignal : Signal := { current := true, next := true }

/-- The driver programs the endpoint. -/
structure Setup (p : Params) (mem : List Byte) (s : Bench) : Prop where
  position : s.driver.position.isSetup = true
  clock : s.DueAt s.driver.position.setupDue
  regs : s.device.regs = setupRegs p s.driver.position
  /-- The compute thread is parked; at time 0 it may still have to get there. -/
  thread : Parked s.device ∨ (s.now = 0 ∧ s.device.computeThread = ⟨.entry, true⟩)
  /-- The write of INT_ENABLE makes the interrupt controller enter its body. -/
  controller : s.device.interruptController =
      suspend (if s.driver.position = .setIntEnable then .waiting else .entry) ∨
    (s.driver.position = .setIntEnable ∧ s.driver.runnable = false ∧
      s.device.interruptController = ⟨.entry, true⟩)
  interrupt : s.device.interrupt = lowSignal
  memory : s.memory = mem

/-- The job has been started and has not ended. -/
structure InJob [FloatArith] (p : Params) (mem : List Byte) (s : Bench) : Prop where
  polls : Polls s
  underway : ∃ ls tr, Underway p mem s.toAttached ls tr
  clock : (s.now = 160 ∧ s.device.computeThread.position.inJob = false) ∨
    (OnTime 160 s.toTimed ∧ (s.device.computeThread.runnable = false → s.now < s.due))
  noInterrupt : s.device.regs.regIntStatus = 0 ∧ s.device.regs.regIntEnable = 1
  controller : s.device.interruptController = suspend .waiting
  interrupt : s.device.interrupt = lowSignal

/-- The job has ended and left its result in STATUS and INT_STATUS. -/
structure JobOver (d : Device) (status intStatus : Word) : Prop where
  parked : Parked d
  status : d.regs.regStatus = status
  intStatus : d.regs.regIntStatus = intStatus
  intEnable : d.regs.regIntEnable = 1

theorem jobOver_frame (d d' : Device) (status intStatus : Word) (h : JobOver d status intStatus)
    (hregs : d'.regs = d.regs) (hthread : d'.computeThread = d.computeThread) :
    JobOver d' status intStatus := by
  refine ⟨?_, by rw [hregs]; exact h.status, by rw [hregs]; exact h.intStatus,
    by rw [hregs]; exact h.intEnable⟩
  unfold Parked
  rw [hthread]
  exact h.parked

/-- The memory holds the product. -/
def Product [FloatArith] (p : Params) (mem mem' : List Byte) : Prop :=
  Multiplied p.dimN.toNat (p.ptr .a).toNat (p.ptr .b).toNat (p.ptr .c).toNat mem mem'

/-- The job has just succeeded, and the interrupt line is about to rise. -/
structure Raising [FloatArith] (p : Params) (mem : List Byte) (s : Bench) : Prop where
  polls : Polls s
  now : s.now = jobEnd p.dimN.toNat
  ended : JobOver s.device (Status.idle ||| Status.done) intDone
  product : Product p mem s.memory
  line : (s.device.interruptController = ⟨.waiting, true⟩ ∧ s.device.interrupt = lowSignal) ∨
    (s.device.interruptController = suspend .waiting ∧ s.device.interrupt = ⟨false, true⟩)

/-- The interrupt line is high, and the driver gets to see it. -/
structure Signalled [FloatArith] (p : Params) (mem : List Byte) (s : Bench) : Prop where
  driver : (s.driver.position = .waitInterrupt ∧ s.DueAt (seenAt p.dimN.toNat)) ∨
    (s.driver.position = .finalStatus (Status.idle ||| Status.done) ∧
      s.DueAt (seenAt p.dimN.toNat + 10)) ∨
    (s.driver.position = .intStatus intDone ∧ s.DueAt (seenAt p.dimN.toNat + 20))
  ended : JobOver s.device (Status.idle ||| Status.done) intDone
  product : Product p mem s.memory
  controller : s.device.interruptController = suspend .waiting
  interrupt : s.device.interrupt = highSignal

/-- The driver has cleared the interrupt, and the line falls. -/
structure Cleared [FloatArith] (p : Params) (mem : List Byte) (s : Bench) : Prop where
  driver : (s.driver.position = .clearInt ∧ s.DueAt (seenAt p.dimN.toNat + 30)) ∨
    (s.driver.position = .afterTest ∧ s.DueAt (seenAt p.dimN.toNat + 130)) ∨
    (s.driver = suspend .stopped ∧ s.now = seenAt p.dimN.toNat + 130)
  ended : JobOver s.device (Status.idle ||| Status.done) 0
  product : Product p mem s.memory
  line : (s.device.interruptController = suspend .waiting ∧ s.device.interrupt = lowSignal) ∨
    (s.driver.position = .clearInt ∧ s.driver.runnable = false ∧
      ((s.device.interruptController = ⟨.waiting, true⟩ ∧ s.device.interrupt = highSignal) ∨
        (s.device.interruptController = suspend .waiting ∧ s.device.interrupt = ⟨true, false⟩)))

/-- The job has failed, and the line stays low. -/
structure Failed (mem : List Byte) (s : Bench) : Prop where
  polls : Polls s
  ended : JobOver s.device (Status.idle ||| Status.error) 0
  memory : s.memory = mem
  controller : s.device.interruptController.position = .waiting
  interrupt : s.device.interrupt = lowSignal

/-- The situations of a test with the parameters `p`. -/
inductive Scene [FloatArith] (p : Params) (mem : List Byte) (s : Bench) : Prop where
  | setup (h : Setup p mem s)
  | inJob (h : InJob p mem s)
  | raising (hf : Fits p mem) (h : Raising p mem s)
  | signalled (hf : Fits p mem) (h : Signalled p mem s)
  | cleared (hf : Fits p mem) (h : Cleared p mem s)
  | failed (hf : ¬ Fits p mem) (h : Failed mem s)

theorem bar0Delay_write32 (addr : BitVec 64) (v : Word) :
    bar0Delay (.write32 addr v) = 10 := by
  rw [bar0Delay, if_neg (fun h => h.1 (length_word32 v))]

theorem bar0Delay_write64 (addr v : BitVec 64) : bar0Delay (.write64 addr v) = 10 := by
  rw [bar0Delay, if_neg (fun h => h.2 (length_word64 v))]

/-- A read of a 4-byte register by the driver. -/
theorem mmioRead32_fst (s : Bench) (ms : List Message) (r : Register)
    (next : Word → TestPosition) :
    (s.mmioRead32 ms r next).1 =
      { s with driver := suspend (next (s.device.regs.word r)), driverDue := s.now + 10 } := by
  have hread := read_word s.device r (.read32 r.offset) rfl rfl rfl
  have hword : (Response.mk .ok ((word32 (s.device.regs.word r)).map some)).word =
      some (s.device.regs.word r) := by
    have hcopy : memcpy (word32 (s.device.regs.word r)) 4 =
        (word32 (s.device.regs.word r)).map some := memcpy_self _
    rw [← hcopy]
    exact word_memcpy_word32 _ 4 (Or.inl rfl) .ok
  simp only [Bench.mmioRead32, Bench.mmio]
  rw [(bar0_read_frame s.device _ rfl).1, hread, hword]
  rfl

/-- A 4-byte write by the driver. -/
theorem mmioWrite32_fst (s : Bench) (ms : List Message) (r : Register) (v : Word)
    (next : TestPosition) :
    (s.mmioWrite32 ms r v next).1 =
      { s with
        device := (s.device.bar0BTransport (.write32 r.offset v)).1
        driver := suspend next
        driverDue := s.now + 10 } := by
  simp only [Bench.mmioWrite32, Bench.mmio, bar0Delay_write32]

/-- An 8-byte write by the driver. -/
theorem mmioWrite64_fst (s : Bench) (ms : List Message) (r : Register) (v : BitVec 64)
    (next : TestPosition) :
    (s.mmioWrite64 ms r v next).1 =
      { s with
        device := (s.device.bar0BTransport (.write64 r.offset v)).1
        driver := suspend next
        driverDue := s.now + 10 } := by
  simp only [Bench.mmioWrite64, Bench.mmio, bar0Delay_write64]

/-- A thread that has just entered a wait. -/
theorem dueAt_suspend (s s' : Bench) (pos : TestPosition) (dt t : Nat) (hdt : 0 < dt)
    (hdriver : s'.driver = suspend pos) (hdue : s'.driverDue = s.now + dt)
    (hnow : s'.now = s.now) (ht : s.now + dt = t) : s'.DueAt t := by
  refine ⟨hdue.trans ht, by omega, ?_⟩
  rw [hdriver]
  exact ⟨fun h => absurd h Bool.false_ne_true, fun h => by omega⟩

/-- The time at which the driver is dispatched. -/
theorem now_of_runnable (s : Bench) (t : Nat) (h : s.DueAt t) (hr : s.driver.runnable = true) :
    s.now = t :=
  h.woken.mp hr

/-- A thread that is not dispatched keeps its wait. -/
theorem dueAt_frame (s s' : Bench) (t : Nat) (h : s.DueAt t) (hdriver : s'.driver = s.driver)
    (hdue : s'.driverDue = s.driverDue) (hnow : s'.now = s.now) : s'.DueAt t := by
  refine ⟨hdue.trans h.due, by rw [hnow]; exact h.notLate, ?_⟩
  rw [hdriver, hnow]
  exact h.woken

/-- Time advances at most to the end of the driver's wait, and ends it there. -/
theorem dueAt_advanced (s : Bench) (t : Nat) (h : s.DueAt t) (hr : s.driver.runnable = false) :
    s.advanced.DueAt t ∧ s.advanced.now = s.nextDue ∧ s.nextDue ≤ t := by
  have hle : s.nextDue ≤ t := by
    unfold Bench.nextDue
    have hdue := h.due
    split
    · omega
    · omega
  refine ⟨⟨h.due, hle, ?_⟩, rfl, hle⟩
  change (if s.driverDue = s.nextDue then s.driver.wake else s.driver).runnable = true ↔
    s.nextDue = t
  rw [h.due]
  by_cases heq : t = s.nextDue
  · rw [if_pos heq]
    exact ⟨fun _ => heq.symm, fun _ => rfl⟩
  · rw [if_neg heq, hr]
    exact ⟨fun hf => absurd hf Bool.false_ne_true, fun h' => absurd h'.symm heq⟩

/-- An access of the driver before the START that notifies nobody. -/
theorem setup_access (p : Params) (mem : List Byte) (s s' : Bench) (pos : TestPosition)
    (h : Setup p mem s) (hr : s.driver.runnable = true)
    (hne : s.driver.position ≠ .setIntEnable) (hpos : pos.isSetup = true)
    (hne' : pos ≠ .setIntEnable) (dt : Nat) (hdt : 0 < dt)
    (hdue : s.driver.position.setupDue + dt = pos.setupDue) (hdriver : s'.driver = suspend pos)
    (hdue' : s'.driverDue = s.now + dt) (hnow : s'.now = s.now)
    (hregs : s'.device.regs = setupRegs p pos)
    (hthread : s'.device.computeThread = s.device.computeThread)
    (hcontroller : s'.device.interruptController = s.device.interruptController)
    (hinterrupt : s'.device.interrupt = s.device.interrupt) (hmem : s'.memory = s.memory) :
    Setup p mem s' := by
  have ht := now_of_runnable s _ h.clock hr
  have hpos' : s'.driver.position = pos := by
    rw [hdriver]
    rfl
  refine ⟨by rw [hpos']; exact hpos, ?_, by rw [hpos']; exact hregs, ?_, ?_,
    hinterrupt.trans h.interrupt, hmem.trans h.memory⟩
  · rw [hpos']
    exact dueAt_suspend s s' pos dt _ hdt hdriver hdue' hnow (by rw [ht]; exact hdue)
  · unfold Parked
    rw [hthread, hnow]
    exact h.thread
  · rcases h.controller with hc | ⟨hc, -⟩
    · rw [if_neg hne] at hc
      rw [hpos', if_neg hne', hcontroller]
      exact Or.inl hc
    · exact absurd hc hne

/-- START is accepted if STATUS has IDLE. -/
theorem bar0_start (d : Device) (hidle : Has d.regs.regStatus Status.idle) :
    (d.bar0BTransport (.write32 Register.control.offset 1)).1 =
      { d with regs := { d.regs with
          regControl := 1, computationRequested := true } }.notifyStart := by
  rw [bar0_write32]
  simp only [Device.writeControl, Device.controlReset, Device.controlStart,
    if_neg (by decide : ¬ Has (1 : Word) Ctrl.reset),
    if_pos (by decide : Has (1 : Word) Ctrl.start), if_pos hidle]

/-- The START, and with it the job. -/
theorem setup_start [FloatArith] (p : Params) (mem : List Byte) (s : Bench) (h : Setup p mem s)
    (hr : s.driver.runnable = true) (hpos : s.driver.position = .setIntEnable) :
    InJob p mem (s.testSequence p).1 := by
  have ht : s.now = 160 := by
    have hnow := now_of_runnable s _ h.clock hr
    rw [hpos] at hnow
    exact hnow
  have hregs := h.regs
  rw [hpos] at hregs
  have hparked : Parked s.device := by
    rcases h.thread with hp | ⟨hzero, -⟩
    · exact hp
    · omega
  have hcontroller : s.device.interruptController = suspend .waiting := by
    rcases h.controller with hc | ⟨-, hr', -⟩
    · rw [if_pos hpos] at hc
      exact hc
    · rw [hr] at hr'
      exact absurd hr'.symm Bool.false_ne_true
  -- STATUS has IDLE, so the write is accepted.
  have hidle : Has s.device.regs.regStatus Status.idle := by
    rw [hregs]
    exact (by decide : Has Status.idle Status.idle)
  have hseq : (s.testSequence p).1 =
      { s with
        device := { s.device with regs := { s.device.regs with
            regControl := 1, computationRequested := true } }.notifyStart
        driver := suspend .start
        driverDue := s.now + 10 } := by
    simp only [Bench.testSequence, hpos]
    rw [mmioWrite32_fst, bar0_start s.device hidle]
  rw [hseq]
  refine ⟨⟨Or.inr ⟨rfl, ?_⟩, dueAt_suspend s _ .start 10 _ (by decide) rfl rfl rfl rfl,
    Nat.le_refl _, ?_⟩, ⟨[], [], fun _ => List.not_mem_nil, ?_, Or.inl ⟨?_, ?_, rfl, h.memory,
    rfl, rfl⟩⟩, Or.inl ⟨ht, ?_⟩, ?_, hcontroller, h.interrupt⟩
  · change s.now + 10 = 170
    omega
  · change (s.now + 10) % 10 = 0
    omega
  · change Registers.params { s.device.regs with regControl := 1, computationRequested := true } = p
    rw [hregs]
    refine Params.ext rfl (funext fun m => ?_)
    cases m <;> rfl
  · exact (Process.notify_position _ _).trans hparked.1
  · have hwaits : Position.waitsForStart s.device.computeThread.position = true := by
      rw [hparked.1]
      rfl
    exact congrArg Process.runnable (Process.notify_of_waits _ _ hwaits)
  · change (s.device.computeThread.notify Position.waitsForStart).position.inJob = false
    rw [Process.notify_position, hparked.1]
    rfl
  · change s.device.regs.regIntStatus = 0 ∧ s.device.regs.regIntEnable = 1
    rw [hregs]
    exact ⟨rfl, rfl⟩

/-- Programming the endpoint leads to the job. -/
theorem setup_sequence [FloatArith] (p : Params) (mem : List Byte) (s : Bench)
    (h : Setup p mem s) (hr : s.driver.runnable = true) : Scene p mem (s.testSequence p).1 := by
  have hregs := h.regs
  have hset := h.position
  cases hpos : s.driver.position with
  | entry =>
      simp only [Bench.testSequence, hpos]
      exact Scene.setup (setup_access p mem s _ .beforeTest h hr (by rw [hpos]; decide) rfl
        (by decide) 100 (by decide) (by rw [hpos]; rfl) rfl rfl rfl
        (hregs.trans (by rw [hpos]; rfl)) rfl rfl rfl rfl)
  | beforeTest =>
      rw [hpos] at hregs
      have hword : s.device.regs.word .status = Status.idle := by
        rw [hregs]
        rfl
      simp only [Bench.testSequence, hpos, mmioRead32_fst, hword]
      exact Scene.setup (setup_access p mem s _ (.readStatus Status.idle) h hr
        (by rw [hpos]; decide) rfl (by decide) 10 (by decide) (by rw [hpos]; rfl) rfl rfl rfl
        hregs rfl rfl rfl rfl)
  | readStatus v =>
      rw [hpos] at hregs
      simp only [Bench.testSequence, hpos, mmioWrite32_fst, bar0_write32]
      exact Scene.setup (setup_access p mem s _ .setDim h hr (by rw [hpos]; exact nofun) rfl
        (by decide) 10 (by decide) (by rw [hpos]; rfl) rfl rfl rfl
        (by change { s.device.regs with regDimN := p.dimN } = _; rw [hregs]; rfl) rfl rfl rfl rfl)
  | setDim =>
      rw [hpos] at hregs
      simp only [Bench.testSequence, hpos, mmioWrite64_fst, bar0_write64]
      exact Scene.setup (setup_access p mem s _ (.setPtr .a) h hr (by rw [hpos]; decide) rfl
        (by decide) 10 (by decide) (by rw [hpos]; rfl) rfl rfl rfl
        (by change s.device.regs.setMatrixPtr .a (p.ptr .a) = _; rw [hregs]; rfl) rfl rfl rfl rfl)
  | setPtr m =>
      rw [hpos] at hregs
      cases m with
      | a =>
          simp only [Bench.testSequence, hpos, mmioWrite64_fst, bar0_write64]
          exact Scene.setup (setup_access p mem s _ (.setPtr .b) h hr (by rw [hpos]; decide) rfl
            (by decide) 10 (by decide) (by rw [hpos]; rfl) rfl rfl rfl
            (by change s.device.regs.setMatrixPtr .b (p.ptr .b) = _; rw [hregs]; rfl) rfl rfl rfl
            rfl)
      | b =>
          simp only [Bench.testSequence, hpos, mmioWrite64_fst, bar0_write64]
          exact Scene.setup (setup_access p mem s _ (.setPtr .c) h hr (by rw [hpos]; decide) rfl
            (by decide) 10 (by decide) (by rw [hpos]; rfl) rfl rfl rfl
            (by change s.device.regs.setMatrixPtr .c (p.ptr .c) = _; rw [hregs]; rfl) rfl rfl rfl
            rfl)
      | c =>
          -- The write of INT_ENABLE triggers the controller for the first time.
          have ht := now_of_runnable s _ h.clock hr
          rw [hpos] at ht
          have hc : s.device.interruptController = suspend .entry := by
            rcases h.controller with hc | ⟨hc, -⟩
            · rw [hpos] at hc
              exact hc
            · rw [hpos] at hc
              exact absurd hc (by decide)
          simp only [Bench.testSequence, hpos, mmioWrite32_fst, bar0_write32]
          refine Scene.setup ⟨rfl, dueAt_suspend s _ .setIntEnable 10 _ (by decide) rfl rfl rfl
            (by rw [ht]; rfl), ?_, h.thread, Or.inr ⟨rfl, rfl, ?_⟩, h.interrupt, h.memory⟩
          · change { s.device.regs with regIntEnable := 1 } = _
            rw [hregs]
            rfl
          · change s.device.interruptController.notify (fun _ => true) = _
            rw [hc]
            rfl
  | setIntEnable => exact Scene.inJob (setup_start p mem s h hr hpos)
  | start => rw [hpos] at hset; exact absurd hset Bool.false_ne_true
  | waitInterrupt => rw [hpos] at hset; exact absurd hset Bool.false_ne_true
  | finalStatus v => rw [hpos] at hset; exact absurd hset Bool.false_ne_true
  | intStatus v => rw [hpos] at hset; exact absurd hset Bool.false_ne_true
  | clearInt => rw [hpos] at hset; exact absurd hset Bool.false_ne_true
  | afterTest => rw [hpos] at hset; exact absurd hset Bool.false_ne_true
  | stopped => rw [hpos] at hset; exact absurd hset Bool.false_ne_true

/-- A dispatch of the compute thread is one that is runnable. -/
theorem compute_runnable [FloatArith] (p : Params) (s s' : Bench) (es : List (Nat × BenchEvent))
    (hstep : (testbench p).step s .compute = some (s', es)) :
    s.device.computeThread.runnable = true := by
  rcases (testbench_compute_iff p s s' es).mp hstep with ⟨a, es₀, hsys, -⟩
  cases (system_step_inv _ _ _ _ hsys).1 with
  | compute _ _ _ hr _ => exact hr

/-- Outside a job time advances to the end of the driver's wait. -/
theorem advanced_of_not_inJob (s : Bench)
    (h : s.device.computeThread.position.inJob = false) :
    s.advanced = { s with now := s.driverDue, driver := s.driver.wake } := by
  have hnext : s.nextDue = s.driverDue := by
    rw [Bench.nextDue, h]
    exact if_neg Bool.false_ne_true
  have hdue : ¬ s.ComputeDue s.driverDue :=
    fun hc => absurd (h.symm.trans hc.1) Bool.false_ne_true
  rw [Bench.advanced, hnext, Bench.wakeCompute, if_neg hdue, if_pos rfl]

theorem parked_not_inJob (d : Device) (h : Parked d) :
    d.computeThread.position.inJob = false := by
  rw [h.1]
  rfl

/-- Evaluation is not over while the controller is to be dispatched. -/
theorem not_evaluated (d : Device) (h : d.interruptController.runnable = true) : ¬ d.Evaluated := by
  intro he
  exact absurd (he.2.symm.trans h) Bool.false_ne_true

/-- While the compute thread is parked, time advances to what the driver waits
    for. -/
theorem dueAt_wake (s : Bench) (t : Nat) (hparked : Parked s.device)
    (hr : s.driver.runnable = false) (h : s.DueAt t) :
    Bench.DueAt { s with now := s.driverDue, driver := s.driver.wake } t := by
  rw [← advanced_of_not_inJob s (parked_not_inJob _ hparked)]
  exact (dueAt_advanced s t h hr).1

/-- Every step of the setup. -/
theorem setup_step [FloatArith] (p : Params) (mem : List Byte) (s s' : Bench) (l : BenchLabel)
    (es : List (Nat × BenchEvent)) (h : Setup p mem s)
    (hstep : (testbench p).step s l = some (s', es)) : Scene p mem s' := by
  cases l with
  | compute =>
      -- Only the first dispatch is left, which parks the thread.
      have hr := compute_runnable p s s' es hstep
      rcases h.thread with hp | ⟨hzero, hthread⟩
      · rw [hp.2] at hr
        exact absurd hr Bool.false_ne_true
      · rcases (testbench_compute_iff p s s' es).mp hstep with ⟨a, es₀, hsys, -, rfl, -⟩
        rcases system_step_inv _ _ _ _ hsys with ⟨hinv, hmem⟩
        generalize hd' : a.device = d' at hinv
        have hentry : s.device.computeThread.position = .entry := by rw [hthread]
        cases hinv with
        | compute _ _ _ _ hd =>
            have hd₀ : d' = s.device.suspendAt .waitStart ∧ es₀ = [] := by
              cases hd with
              | enter _ => exact ⟨rfl, rfl⟩
              | spurious hpos _ => rw [hentry] at hpos; exact nomatch hpos
              | refuse hpos _ _ => rw [hentry] at hpos; exact nomatch hpos
              | readA hpos _ _ _ _ _ => rw [hentry] at hpos; exact nomatch hpos
              | readB n x hpos _ _ => rw [hentry] at hpos; exact nomatch hpos
              | row n x y z i hrows _ =>
                  have hin := inJob_of_rowsLeft _ n x y z i hrows
                  rw [hentry] at hin
                  exact absurd hin Bool.false_ne_true
              | writeC n x y z i hrows _ _ _ =>
                  have hin := inJob_of_rowsLeft _ n x y z i hrows
                  rw [hentry] at hin
                  exact absurd hin Bool.false_ne_true
              | fail hfail =>
                  have hin := inJob_of_readFailed _ hfail
                  rw [hentry] at hin
                  exact absurd hin Bool.false_ne_true
              | finish n ok hpos => rw [hentry] at hpos; exact nomatch hpos
            rcases hd₀ with ⟨rfl, rfl⟩
            refine Scene.setup ⟨h.position, dueAt_frame s _ _ h.clock rfl rfl rfl, ?_,
              Or.inl ?_, ?_, ?_, hmem.trans h.memory⟩
            · change a.device.regs = _
              rw [hd']
              exact h.regs
            · change Parked a.device
              rw [hd']
              exact ⟨rfl, rfl⟩
            · change a.device.interruptController = _ ∨ (_ ∧ _ ∧ a.device.interruptController = _)
              rw [hd']
              exact h.controller
            · change a.device.interrupt = _
              rw [hd']
              exact h.interrupt
  | control =>
      rcases (testbench_control_iff p s s' es).mp hstep with ⟨hr, rfl, -⟩
      rcases h.controller with hc | ⟨hpos, hr', hc⟩
      · rw [hc] at hr
        exact absurd hr Bool.false_ne_true
      · have hcontrol : s.device.control =
            { s.device with interruptController := suspend .waiting } := by
          simp only [Device.control, hc]
        refine Scene.setup ⟨h.position, dueAt_frame s _ _ h.clock rfl rfl rfl, ?_, ?_, Or.inl ?_,
          ?_, h.memory⟩
        · rw [hcontrol]
          exact h.regs
        · rw [hcontrol]
          exact h.thread
        · rw [hcontrol, if_pos hpos]
        · rw [hcontrol]
          exact h.interrupt
  | testSequence =>
      rcases (testbench_sequence_iff p s s' es).mp hstep with ⟨hr, hseq⟩
      have hscene := setup_sequence p mem s h hr
      rw [hseq] at hscene
      exact hscene
  | update =>
      rcases (testbench_update_iff p s s' es).mp hstep with ⟨⟨-, -, hne⟩, -⟩
      rw [h.interrupt] at hne
      exact absurd rfl hne
  | advance =>
      rcases (testbench_advance_iff p s s' es).mp hstep with ⟨⟨he, -, hr, -⟩, rfl, -⟩
      have hparked : Parked s.device := by
        rcases h.thread with hp | ⟨-, hthread⟩
        · exact hp
        · have hrun := he.1
          rw [hthread] at hrun
          exact absurd hrun.symm Bool.false_ne_true
      have hclock := dueAt_wake s _ hparked hr h.clock
      rw [advanced_of_not_inJob s (parked_not_inJob _ hparked)]
      refine Scene.setup ⟨h.position, hclock, h.regs, Or.inl hparked, ?_, h.interrupt, h.memory⟩
      rcases h.controller with hc | ⟨-, -, hc⟩
      · exact Or.inl hc
      · exact absurd he (not_evaluated _ (by rw [hc]))

/-- Steps that leave the driver alone. -/
theorem polls_frame (s s' : Bench) (h : Polls s) (hdriver : s'.driver = s.driver)
    (hdue : s'.driverDue = s.driverDue) (hnow : s'.now = s.now) : Polls s' := by
  refine ⟨by rw [hdriver, hdue]; exact h.position, ?_, by rw [hdue, hnow]; exact h.soon,
    by rw [hdue]; exact h.tens⟩
  rw [hdue]
  exact dueAt_frame s s' _ h.clock hdriver hdue hnow

/-- A poll that finds the line low. -/
theorem polls_low (p : Params) (s : Bench) (h : Polls s) (hr : s.driver.runnable = true)
    (hlow : s.device.interrupt.current = false) :
    (s.testSequence p).1 =
        { s with driver := suspend .waitInterrupt, driverDue := s.now + 10 } ∧
      Polls (s.testSequence p).1 := by
  have hnow := now_of_runnable s _ h.clock hr
  have hseq : (s.testSequence p).1 =
      { s with driver := suspend .waitInterrupt, driverDue := s.now + 10 } := by
    rcases h.position with hpos | ⟨hpos, -⟩
    · simp only [Bench.testSequence, hpos, Bench.awaitInterrupt, hlow]
      rfl
    · simp only [Bench.testSequence, hpos, Bench.awaitInterrupt, hlow]
      rfl
  refine ⟨hseq, ?_⟩
  rw [hseq]
  have htens := h.tens
  refine ⟨Or.inl rfl, dueAt_suspend s _ .waitInterrupt 10 _ (by decide) rfl rfl rfl rfl,
    Nat.le_refl _, ?_⟩
  change (s.now + 10) % 10 = 0
  omega

/-- The advance of time in the loop. -/
theorem polls_advanced (s : Bench) (h : Polls s) (hr : s.driver.runnable = false)
    (hle : s.now ≤ s.nextDue) : Polls s.advanced := by
  rcases dueAt_advanced s _ h.clock hr with ⟨hclock, hnow, -⟩
  have hpos : s.advanced.driver.position = s.driver.position := by
    change (if _ then s.driver.wake else s.driver).position = _
    split
    · rfl
    · rfl
  refine ⟨by rw [hpos]; exact h.position, hclock, ?_, h.tens⟩
  rw [hnow]
  have hsoon := h.soon
  change s.driverDue ≤ s.nextDue + 10
  omega

/-- A dispatch that leaves the thread inside a job leaves the interrupt
    alone. -/
theorem dispatch_quiet [FloatArith] (target : DmaTarget) (d d' : Device) (es : List Event)
    (hd : Dispatch target d d' es) (hjob : d'.computeThread.position.inJob = true) :
    (d'.regs.regIntStatus = d.regs.regIntStatus ∧ d'.regs.regIntEnable = d.regs.regIntEnable) ∧
      d'.interruptController = d.interruptController ∧ d'.interrupt = d.interrupt := by
  cases hd with
  | readA _ _ _ _ _ _ => exact ⟨⟨rfl, rfl⟩, rfl, rfl⟩
  | readB _ _ _ _ _ => exact ⟨⟨rfl, rfl⟩, rfl, rfl⟩
  | row _ _ _ _ _ _ _ => exact ⟨⟨rfl, rfl⟩, rfl, rfl⟩
  | writeC _ _ _ _ _ _ _ _ _ => exact ⟨⟨rfl, rfl⟩, rfl, rfl⟩
  | _ => exact absurd hjob Bool.false_ne_true

theorem delay_pos (pos : Position) (h : pos.inJob = true) : 0 < pos.delay := by
  cases pos with
  | entry => exact absurd h Bool.false_ne_true
  | waitStart => exact absurd h Bool.false_ne_true
  | row n _ _ _ _ => exact Nat.mul_pos n.pos (by decide)
  | _ => exact Nat.lt_of_lt_of_le (by decide) (Nat.le_add_right 50 _)

/-- A dispatch of the compute thread that leaves the job under way. -/
theorem inJob_move [FloatArith] (p : Params) (mem : List Byte) (s : Bench) (a : Attached)
    (es : List Event) (h : InJob p mem s) (hr : s.device.computeThread.runnable = true)
    (hd : Dispatch (boundedTarget s.memory) s.device a.device es)
    (hu : ∃ ls tr, Underway p mem a ls tr) :
    InJob p mem { s with toTimed := s.after (.compute ()) a } := by
  have hsusp := suspended_dispatch _ _ _ _ hd
  have hin : a.device.computeThread.position.inJob = true := by
    rcases hu with ⟨ls, tr, hu⟩
    rcases hu.phase with hwait | hrun
    · exact absurd (hsusp.symm.trans hwait.runnable) Bool.false_ne_true
    · exact inJob_of_reached p mem _ _ hrun.reached
  rcases dispatch_quiet _ _ _ _ hd hin with ⟨⟨hint, hen⟩, hc, hi⟩
  have htime : OnTime 160 (s.after (.compute ()) a) := by
    rcases h.clock with ⟨hnow, hout⟩ | ⟨hon, -⟩
    · rcases elapsed_begin _ _ _ _ hd hout hin with ⟨hel, hinside⟩
      refine ⟨hin, hinside, ?_, Nat.le_add_right _ _, fun hr' => ?_⟩
      · change s.now + _ = 160 + a.device.computeThread.position.elapsed
        rw [hel, hnow]
      · exact absurd (hsusp.symm.trans hr') Bool.false_ne_true
    · exact onTime_dispatch _ 160 s.toTimed a es hon hr hd hin hsusp
  refine ⟨polls_frame s _ h.polls rfl rfl rfl, hu, Or.inr ⟨htime, fun _ => ?_⟩, ?_, ?_, ?_⟩
  · exact Nat.lt_add_of_pos_right (delay_pos _ hin)
  · exact ⟨hint.trans h.noInterrupt.1, hen.trans h.noInterrupt.2⟩
  · exact hc.trans h.controller
  · exact hi.trans h.interrupt

/-- When a successful job ends. -/
theorem inJob_end [FloatArith] (p : Params) (mem : List Byte) (s : Bench) (h : InJob p mem s)
    (hr : s.device.computeThread.runnable = true) (n : Dim)
    (hpos : s.device.computeThread.position = .writeC n true) :
    s.now = jobEnd p.dimN.toNat := by
  rcases h.clock with ⟨-, hout⟩ | ⟨hon, -⟩
  · rw [hpos] at hout
    exact absurd hout.symm Bool.false_ne_true
  · rcases h.underway with ⟨ls, tr, hu⟩
    have hdim : n.val = p.dimN.toNat := by
      rcases hu.phase with hwait | hrun
      · exact absurd (hwait.position.symm.trans hpos) (by exact nofun)
      · have hreached := hrun.reached
        rw [hpos] at hreached
        exact hreached.1
    have hdue := hon.due
    rw [hpos] at hdue
    change s.due = 160 + (140 + n.val * 2 * n.val + 70) at hdue
    have hnow : s.now = s.due := hon.woken hr
    rw [hnow, hdue, hdim, jobEnd]
    ring

/-- The job leads to its end. -/
theorem inJob_compute [FloatArith] (p : Params) (mem : List Byte) (s s' : Bench)
    (es : List (Nat × BenchEvent)) (h : InJob p mem s)
    (hstep : (testbench p).step s .compute = some (s', es)) : Scene p mem s' := by
  have hr := compute_runnable p s s' es hstep
  rcases (testbench_compute_iff p s s' es).mp hstep with ⟨a, es₀, hsys, -, rfl, -⟩
  have hd : Dispatch (boundedTarget s.memory) s.device a.device es₀ := by
    cases (system_step_inv _ _ _ _ hsys).1 with
    | compute _ _ _ _ hd => exact hd
  rcases h.underway with ⟨ls, tr, hu⟩
  rcases underway_step p mem s.toAttached a ls (.compute ()) tr es₀ hu trivial hsys with
    hu' | ⟨ok, hends⟩
  · exact Scene.inJob (inJob_move p mem s a es₀ h hr hd ⟨_, _, hu'⟩)
  · rcases dispatch_ended _ _ _ _ ok hd hends.ended with ⟨hend, hok⟩
    have hcontroller : a.device.interruptController = ⟨.waiting, true⟩ := by
      rw [hend.controller, h.controller]
      rfl
    have hint := hend.intStatus
    rw [h.noInterrupt.1] at hint
    have hpolls := polls_frame s { s with toTimed := s.after (.compute ()) a } h.polls rfl rfl rfl
    by_cases hf : Fits p mem
    · rcases hends.outcome.done hf with ⟨rfl, hstatus, -, hproduct⟩
      rcases hok rfl with ⟨n, hpos⟩
      exact Scene.raising hf ⟨hpolls, inJob_end p mem s h hr n hpos,
        ⟨hend.parked, hstatus, hint, hend.intEnable.trans h.noInterrupt.2⟩, hproduct,
        Or.inl ⟨hcontroller, hend.interrupt.trans h.interrupt⟩⟩
    · rcases hends.outcome.failed hf with ⟨rfl, hstatus, hmem⟩
      refine Scene.failed hf ⟨hpolls, ⟨hend.parked, hstatus, hint,
        hend.intEnable.trans h.noInterrupt.2⟩, hmem, ?_, hend.interrupt.trans h.interrupt⟩
      change a.device.interruptController.position = .waiting
      rw [hcontroller]

/-- The advance of time under a job. -/
theorem inJob_advance [FloatArith] (p : Params) (mem : List Byte) (s : Bench)
    (h : InJob p mem s) (hq : s.Quiescent) : InJob p mem s.advanced := by
  rcases hq with ⟨he, hsig, hr, -⟩
  rcases h.underway with ⟨ls, tr, hu⟩
  -- A request that has not been taken up keeps its thread runnable.
  have hrunning : Running p mem s.toAttached ls tr := by
    rcases hu.phase with hwait | hrun
    · exact absurd (he.1.symm.trans hwait.runnable) Bool.false_ne_true
    · exact hrun
  have hin := inJob_of_reached p mem _ _ hrunning.reached
  rcases h.clock with ⟨-, hout⟩ | ⟨hon, hasleep⟩
  · exact absurd (hout.symm.trans hin) Bool.false_ne_true
  · have hnext : s.nextDue = min s.due s.driverDue := if_pos hin
    have hlate : s.now ≤ s.due := hon.notLate
    have hle : s.now ≤ s.nextDue := by
      have hdriver := h.polls.clock.notLate
      omega
    have hpolls := polls_advanced s h.polls hr hle
    by_cases hdue : s.due = s.nextDue
    · -- The wait of the compute thread ends.
      have hdevice : s.advanced.device =
          { s.device with computeThread := s.device.computeThread.wake } :=
        if_pos ⟨hin, hdue⟩
      have hstep := system_timeout s.toAttached he hsig hin
      have hu' := underway_kernel p mem s.toAttached _ ls .timeout tr [] hu rfl hstep
      refine ⟨hpolls, ⟨ls ++ [.timeout], tr ++ [], ?_⟩, Or.inr ⟨⟨?_, ?_, ?_, ?_,
        fun _ => hdue.symm⟩, fun hr' => ?_⟩, ?_, ?_, ?_⟩
      · have ha : s.advanced.toAttached = { s.toAttached with device :=
            { s.device with computeThread := s.device.computeThread.wake } } :=
          congrArg (fun d => { s.toAttached with device := d }) hdevice
        rw [ha]
        exact hu'
      · rw [hdevice]
        exact hin
      · rw [hdevice]
        exact hon.inside
      · rw [hdevice]
        exact hon.due
      · exact Nat.le_of_eq hdue.symm
      · rw [hdevice] at hr'
        exact absurd hr'.symm Bool.false_ne_true
      · rw [hdevice]
        exact h.noInterrupt
      · rw [hdevice]
        exact h.controller
      · rw [hdevice]
        exact h.interrupt
    · -- Only the driver wakes.
      have hdevice : s.advanced.device = s.device := if_neg (fun hc => hdue hc.2)
      have hlt : s.nextDue < s.due := by omega
      refine ⟨hpolls, ⟨ls, tr, ?_⟩, Or.inr ⟨⟨?_, ?_, ?_, Nat.le_of_lt hlt, fun hr' => ?_⟩,
        fun _ => hlt⟩, ?_, ?_, ?_⟩
      · have ha : s.advanced.toAttached = s.toAttached :=
          congrArg (fun d => { s.toAttached with device := d }) hdevice
        rw [ha]
        exact hu
      · rw [hdevice]
        exact hin
      · rw [hdevice]
        exact hon.inside
      · rw [hdevice]
        exact hon.due
      · rw [hdevice, he.1] at hr'
        exact absurd hr' Bool.false_ne_true
      · rw [hdevice]
        exact h.noInterrupt
      · rw [hdevice]
        exact h.controller
      · rw [hdevice]
        exact h.interrupt

/-- Every step under a job. -/
theorem inJob_step [FloatArith] (p : Params) (mem : List Byte) (s s' : Bench) (l : BenchLabel)
    (es : List (Nat × BenchEvent)) (h : InJob p mem s)
    (hstep : (testbench p).step s l = some (s', es)) : Scene p mem s' := by
  cases l with
  | compute => exact inJob_compute p mem s s' es h hstep
  | control =>
      rcases (testbench_control_iff p s s' es).mp hstep with ⟨hr, -⟩
      rw [h.controller] at hr
      exact absurd hr Bool.false_ne_true
  | testSequence =>
      rcases (testbench_sequence_iff p s s' es).mp hstep with ⟨hr, hseq⟩
      rcases polls_low p s h.polls hr (by rw [h.interrupt]; rfl) with ⟨heq, hpolls⟩
      rw [hseq] at heq hpolls
      change s' = _ at heq
      refine Scene.inJob ⟨hpolls, ?_, ?_, ?_, ?_, ?_⟩
      · rw [heq]
        exact h.underway
      · rw [heq]
        exact h.clock
      · rw [heq]
        exact h.noInterrupt
      · rw [heq]
        exact h.controller
      · rw [heq]
        exact h.interrupt
  | update =>
      rcases (testbench_update_iff p s s' es).mp hstep with ⟨⟨-, -, hne⟩, -⟩
      rw [h.interrupt] at hne
      exact absurd rfl hne
  | advance =>
      rcases (testbench_advance_iff p s s' es).mp hstep with ⟨hq, rfl, -⟩
      exact Scene.inJob (inJob_advance p mem s h hq)

end PcieCosim
