import PcieCosim.Endpoint.HostMemory
import PcieCosim.Endpoint.RegisterFile

/-!
# Programming a Job

How the host gets the parameters of a job into the registers.

The parameters are seven 32-bit words: DIM_N and two halves of each pointer. A
host may write a pointer by halves, in either order, or whole. Each of these
writes puts into the words it covers what the parameters have there, and
leaves the others alone; so after any sequence of them, in any order, every
word that was covered at least once holds its value. `word_payload` is the
first half of that argument and `programmed_run` the second.

Between those writes and afterwards the host may be polite traffic only: reads,
and writes to the interrupt registers and to CONTROL without RESET. None of it
touches a parameter.

## Main definitions

* `Payload.Polite`, `Label.Polite`: Traffic that leaves a job alone.
* `ParamWord`, `Params.word`: The words of the parameters.
* `ParamWord.register`: Where the device keeps them.
* `ParamWrite`: The writes that program them.
* `Label.Programs`, `Programmed`: A sequence of steps that programs the parameters.
* `Parked`: The compute thread waits for START with no notification pending.
* `Programming`: What a programming sequence has done so far.
* `Requested`: A START has been accepted and its job has not begun.

## Theorems

* `polite_params`: Polite traffic touches no parameter.
* `word_write_param`: What a 4-byte write of one of the words does to them.
* `word_payload`: What a programming write does to the words.
* `params_of_words`: The parameters are their words.
* `parked_step`: The thread stays parked until a START.
* `word_kept`, `programming_step`: One step of a programming sequence.
* `programmed_run`: A programming sequence programs the parameters.
* `requested_run`: A START after it makes the request pending.
-/

namespace PcieCosim

open Bytes Kernel Transition

/-- A 4-byte or 8-byte read, or a 4-byte write to INT_STATUS, to INT_ENABLE or
    to CONTROL without RESET. -/
def Payload.Polite (t : Payload) : Prop :=
  (t.command = .read ∧ (t.data.length = 4 ∨ t.data.length = 8)) ∨
    (t.command = .write ∧ t.data.length = 4 ∧
      (t.address = Register.intStatus.offset ∨ t.address = Register.intEnable.offset ∨
        (t.address = Register.control.offset ∧ ¬ t.Sets Ctrl.reset)))

instance (t : Payload) : Decidable t.Polite :=
  inferInstanceAs (Decidable ((t.command = .read ∧ (t.data.length = 4 ∨ t.data.length = 8)) ∨
    (t.command = .write ∧ t.data.length = 4 ∧
      (t.address = Register.intStatus.offset ∨ t.address = Register.intEnable.offset ∨
        (t.address = Register.control.offset ∧ ¬ t.Sets Ctrl.reset)))))

/-- A step whose BAR0 traffic, if it is any, is polite. -/
def Label.Polite {δ : Type} : Label δ → Prop
  | .bar0 t => t.Polite
  | _ => True

instance {δ : Type} : (l : Label δ) → Decidable l.Polite
  | .bar0 t => inferInstanceAs (Decidable t.Polite)
  | .compute _ => isTrue trivial
  | .control => isTrue trivial
  | .update => isTrue trivial
  | .timeout => isTrue trivial

/-- The 32-bit words of the parameters. -/
inductive ParamWord where
  | dimN
  | low (m : Operand)
  | high (m : Operand)

/-- The value of a word. -/
def Params.word (p : Params) : ParamWord → Word
  | .dimN => p.dimN
  | .low m => lowWord (p.ptr m)
  | .high m => highWord (p.ptr m)

/-- The writes that program the parameters. -/
inductive ParamWrite where
  | dimN
  | low (m : Operand)
  | high (m : Operand)
  | whole (m : Operand)

namespace ParamWrite

/-- The transaction that programs its part of `p`. -/
def payload (p : Params) : ParamWrite → Payload
  | .dimN => .write32 Register.dimN.offset p.dimN
  | .low m => .write32 (Register.matrixPtr m).offset (lowWord (p.ptr m))
  | .high m => .write32 (Register.matrixPtrHigh m).offset (highWord (p.ptr m))
  | .whole m => .write64 (Register.matrixPtr m).offset (p.ptr m)

/-- The words a write covers. -/
def covers : ParamWrite → ParamWord → Bool
  | .dimN, .dimN => true
  | .low m, .low m' => m = m'
  | .high m, .high m' => m = m'
  | .whole m, .low m' => m = m'
  | .whole m, .high m' => m = m'
  | _, _ => false

end ParamWrite

/-- The label is a programming write, or polite without START. -/
def Label.Programs {δ : Type} (p : Params) (l : Label δ) : Prop :=
  (∃ x : ParamWrite, l = .bar0 (x.payload p)) ∨ (l.Polite ∧ l.NotSets Ctrl.start)

/-- The steps program the parameters `p`: DIM_N by a 4-byte write and each
    pointer by two half writes or by one 8-byte write, in any order, among
    polite traffic without START. -/
structure Programmed {δ : Type} (p : Params) (ls : List (Label δ)) : Prop where
  only : ∀ l ∈ ls, l.Programs p
  dimN : .bar0 (ParamWrite.dimN.payload p) ∈ ls
  ptr : ∀ m, .bar0 ((ParamWrite.whole m).payload p) ∈ ls ∨
    (.bar0 ((ParamWrite.low m).payload p) ∈ ls ∧ .bar0 ((ParamWrite.high m).payload p) ∈ ls)

theorem writeControl_params (d : Device) (v : Word) (hr : ¬ Has v Ctrl.reset) :
    (d.writeControl v).1.regs.params = d.regs.params := by
  simp only [Device.writeControl, Device.controlReset, if_neg hr, Device.controlStart]
  split
  · split
    · rfl
    · rfl
  · rfl

/-- Polite traffic is no RESET and touches no parameter. -/
theorem polite_params (d : Device) (t : Payload) (h : t.Polite) :
    ¬ t.Sets Ctrl.reset ∧ (d.bar0BTransport t).1.regs.params = d.regs.params := by
  rcases h with ⟨hcmd, -⟩ | ⟨hcmd, hlen, haddr⟩
  · refine ⟨fun hs => absurd (hcmd.symm.trans hs.1) (by decide), ?_⟩
    rw [(bar0_read_frame d t hcmd).1]
  · rw [bar0_write d t hcmd (Or.inl hlen)]
    unfold Device.handleMmioWrite
    rw [if_pos hlen]
    rcases haddr with haddr | haddr | ⟨haddr, hnr⟩
    · refine ⟨not_sets_of_decode t _ (by rw [haddr, decode_offset]) (by decide) _, ?_⟩
      rw [haddr, decode_offset]
      rfl
    -- INT_ENABLE, and then CONTROL, whose RESET bit is excluded.
    · refine ⟨not_sets_of_decode t _ (by rw [haddr, decode_offset]) (by decide) _, ?_⟩
      rw [haddr, decode_offset]
      rfl
    · refine ⟨hnr, ?_⟩
      rw [haddr, decode_offset]
      exact writeControl_params d _ (fun hr => hnr ⟨hcmd, haddr, hlen, hr⟩)

theorem params_of_words (p q : Params) (h : ∀ w, p.word w = q.word w) : p = q :=
  Params.ext (h .dimN) (funext fun m => eq_of_halves _ _ (h (.low m)) (h (.high m)))

/-- The register word that holds a word of the parameters. -/
def ParamWord.register : ParamWord → Register
  | .dimN => .dimN
  | .low m => .matrixPtr m
  | .high m => .matrixPtrHigh m

theorem word_params (g : Registers) (w : ParamWord) : g.params.word w = g.word w.register := by
  cases w <;> rfl

/-- A 4-byte write of one word of the parameters. -/
theorem word_write_param (p : Params) (d : Device) (v w : ParamWord) :
    (d.bar0BTransport (.write32 v.register.offset (p.word v))).1.regs.params.word w =
      if v.register = w.register then p.word w else d.regs.params.word w := by
  rw [word_params, word_params, word_write32, if_neg (fun h => by cases v <;> exact nomatch h.1)]
  refine ite_congr rfl (fun heq => ?_) (fun _ => rfl)
  have hvw : v = w := by
    cases v <;> cases w <;> cases heq <;> rfl
  rw [hvw]
  cases w <;> rfl

/-- A programming write puts into the words it covers what the parameters have
    there, and leaves the others alone. -/
theorem word_payload (p : Params) (d : Device) (x : ParamWrite) (w : ParamWord) :
    (d.bar0BTransport (x.payload p)).1.regs.params.word w =
      if x.covers w then p.word w else d.regs.params.word w := by
  cases x with
  | dimN =>
      refine (word_write_param p d .dimN w).trans (if_congr ?_ rfl rfl)
      cases w <;> simp [ParamWord.register, ParamWrite.covers]
  | low m =>
      refine (word_write_param p d (.low m) w).trans (if_congr ?_ rfl rfl)
      cases w <;> simp [ParamWord.register, ParamWrite.covers]
  | high m =>
      refine (word_write_param p d (.high m) w).trans (if_congr ?_ rfl rfl)
      cases w <;> simp [ParamWord.register, ParamWrite.covers]
  | whole m =>
      rw [ParamWrite.payload, bar0_write64, word_params, word_params]
      refine (word_setMatrixPtr d.regs m (p.ptr m) w.register).trans ?_
      cases w with
      | dimN => rfl
      | low m' =>
          by_cases hm : m = m'
          · simp [ParamWord.register, ParamWrite.covers, hm, Params.word]
          · simp [ParamWord.register, ParamWrite.covers, hm, Ne.symm hm]
      | high m' =>
          by_cases hm : m = m'
          · simp [ParamWord.register, ParamWrite.covers, hm, Params.word]
          · simp [ParamWord.register, ParamWrite.covers, hm, Ne.symm hm]

/-- A programming write is not a CONTROL write. -/
theorem not_sets_payload (p : Params) (x : ParamWrite) (bit : Word) : ¬ (x.payload p).Sets bit := by
  cases x with
  | dimN => exact not_sets_of_decode _ _ (decode_offset .dimN) (by decide) bit
  | low m => exact not_sets_of_decode _ _ (decode_offset (.matrixPtr m)) (by decide +revert) bit
  | high m =>
      exact not_sets_of_decode _ _ (decode_offset (.matrixPtrHigh m)) (by decide +revert) bit
  | whole m => exact not_sets_of_decode _ _ (decode_offset (.matrixPtr m)) (by decide +revert) bit

/-- The compute thread waits for START with no notification pending. -/
def Parked (d : Device) : Prop :=
  d.computeThread.position = .waitStart ∧ d.computeThread.runnable = false

/-- The memory is touched by DMA only. -/
theorem transfer_of_no_dma (mem : List Byte) (es : List Event)
    (h : ∀ m t ok, .dma m t ok ∉ es) : es.foldl transfer mem = mem := by
  induction es generalizing mem with
  | nil => rfl
  | cons e es ih =>
      have hrest := ih mem (fun m t ok hmem => h m t ok (List.mem_cons_of_mem e hmem))
      cases e with
      | dma m t ok => exact absurd List.mem_cons_self (h m t ok)
      | _ => exact hrest

/-- What a BAR0 transaction shows has no DMA in it. -/
theorem transfer_bar0 (d d' : Device) (t : Payload) (es : List Event) (r : Response)
    (mem : List Byte) (he : Bar0Effect d t d' es) :
    List.foldl transfer mem (es ++ [.bar0 t r]) = mem := by
  refine transfer_of_no_dma mem _ (fun m t' ok hmem => ?_)
  rcases List.mem_append.mp hmem with hmem | hmem
  · cases he <;> simp only [List.mem_cons, reduceCtorEq, List.not_mem_nil, or_self] at hmem
  · exact nomatch List.mem_singleton.mp hmem

/-- Until a START or a RESET the thread stays parked, and STATUS and the memory
    stay as they are. -/
theorem parked_step [FloatArith] (s s' : Attached) (l : Label Unit) (es : List Event)
    (h : Parked s.device) (hs : l.NotSets Ctrl.start) (hr : l.NotSets Ctrl.reset)
    (hstep : system.step s l = some (s', es)) :
    Parked s'.device ∧ s'.device.regs.regStatus = s.device.regs.regStatus ∧
      s'.memory = s.memory := by
  rcases system_step_inv s s' l es hstep with ⟨hdev, hmem⟩
  rw [hmem]
  generalize s'.device = d' at hdev
  cases l with
  | bar0 t =>
      cases hdev with
      | bar0 _ _ es' he =>
          refine ⟨?_, ?_, transfer_bar0 _ _ t es' _ _ he⟩
          · cases he with
            | start _ hacc _ => exact absurd hacc.1 hs
            | reset hr' _ => exact absurd hr' hr
            | restart hr' _ => exact absurd hr' hr
            | _ => exact h
          · cases he with
            | start _ hacc _ => exact absurd hacc.1 hs
            | reset hr' _ => exact absurd hr' hr
            | restart hr' _ => exact absurd hr' hr
            | _ => rfl
  | compute _ =>
      cases hdev with
      -- A parked thread is not dispatched and has no timed wait to end.
      | compute _ _ _ hrun _ =>
          rw [h.2] at hrun
          exact nomatch hrun
  | control => cases hdev <;> exact ⟨h, rfl, rfl⟩
  | update => cases hdev; exact ⟨h, rfl, rfl⟩
  | timeout =>
      cases hdev with
      | timeout _ _ hpos =>
          rw [h.1] at hpos
          exact nomatch hpos

/-- A BAR0 step is the handler's. -/
theorem device_of_step [FloatArith] (s s' : Attached) (t : Payload) (es : List Event)
    (hstep : system.step s (.bar0 t) = some (s', es)) :
    s'.device = (s.device.bar0BTransport t).1 := by
  change Attached.step s (.bar0 t) = _ at hstep
  simp only [Attached.step, Label.map, machine, Device.step, Option.some.injEq,
    Prod.mk.injEq] at hstep
  rw [← hstep.1]

theorem notSets_of_programs {δ : Type} (p : Params) (l : Label δ) (h : l.Programs p) :
    l.NotSets Ctrl.start ∧ l.NotSets Ctrl.reset := by
  rcases h with ⟨x, rfl⟩ | ⟨hpolite, hs⟩
  · exact ⟨not_sets_payload p x _, not_sets_payload p x _⟩
  · refine ⟨hs, ?_⟩
    cases l with
    | bar0 t => exact (polite_params Device.constructed t hpolite).1
    | _ => exact trivial

/-- No step of a programming sequence takes its value from a word. -/
theorem word_kept [FloatArith] (p : Params) (s s' : Attached) (l : Label Unit) (es : List Event)
    (h : Parked s.device) (hl : l.Programs p) (hstep : system.step s l = some (s', es))
    (w : ParamWord) (hw : s.device.regs.params.word w = p.word w) :
    s'.device.regs.params.word w = p.word w := by
  cases l with
  | bar0 t =>
      rw [device_of_step s s' t es hstep]
      rcases hl with ⟨x, hx⟩ | ⟨hpolite, -⟩
      · rw [Label.bar0.injEq] at hx
        rw [hx, word_payload, hw, ite_self]
      · rw [(polite_params s.device t hpolite).2, hw]
  | compute _ =>
      cases (system_step_inv s s' _ es hstep).1 with
      | compute _ _ _ hrun _ =>
          rw [h.2] at hrun
          exact nomatch hrun
  | _ =>
      have hdev := (system_step_inv s s' _ es hstep).1
      generalize s'.device = d' at hdev
      cases hdev <;> exact hw

/-- What a programming sequence has done so far. -/
structure Programming (p : Params) (status : Word) (mem : List Byte) (s : Attached)
    (ls : List (Label Unit)) : Prop where
  parked : Parked s.device
  status : s.device.regs.regStatus = status
  memory : s.memory = mem
  words : ∀ (x : ParamWrite) w, .bar0 (x.payload p) ∈ ls → x.covers w = true →
    s.device.regs.params.word w = p.word w

theorem programming_step [FloatArith] (p : Params) (status : Word) (mem : List Byte)
    (s s' : Attached) (ls : List (Label Unit)) (l : Label Unit) (es : List Event)
    (h : Programming p status mem s ls) (hl : l.Programs p)
    (hstep : system.step s l = some (s', es)) : Programming p status mem s' (ls ++ [l]) := by
  rcases notSets_of_programs p l hl with ⟨hs, hr⟩
  rcases parked_step s s' l es h.parked hs hr hstep with ⟨hparked, hstatus, hmemory⟩
  refine ⟨hparked, hstatus.trans h.status, hmemory.trans h.memory, fun x w hmem hc => ?_⟩
  -- A word written before is kept; the word written now is right.
  rcases List.mem_append.mp hmem with hmem | hmem
  · exact word_kept p s s' l es h.parked hl hstep w (h.words x w hmem hc)
  · rw [← List.mem_singleton.mp hmem] at hstep
    rw [device_of_step s s' _ es hstep, word_payload, if_pos hc]

/-- Once every word has been covered, the registers hold the parameters. -/
theorem params_of_programming (p : Params) (status : Word) (mem : List Byte) (s : Attached)
    (ls : List (Label Unit)) (h : Programming p status mem s ls) (hls : Programmed p ls) :
    s.device.regs.params = p := by
  refine params_of_words _ _ (fun w => ?_)
  cases w with
  | dimN => exact h.words .dimN .dimN hls.dimN rfl
  | low m =>
      rcases hls.ptr m with hwhole | ⟨hlow, -⟩
      · exact h.words (.whole m) (.low m) hwhole (decide_eq_true rfl)
      · exact h.words (.low m) (.low m) hlow (decide_eq_true rfl)
  | high m =>
      rcases hls.ptr m with hwhole | ⟨-, hhigh⟩
      · exact h.words (.whole m) (.high m) hwhole (decide_eq_true rfl)
      · exact h.words (.high m) (.high m) hhigh (decide_eq_true rfl)

/-- A programming sequence leaves a parked endpoint parked, with the
    parameters in its registers, and touches neither STATUS nor the memory. -/
theorem programmed_run [FloatArith] (p : Params) (s s' : Attached) (ls : List (Label Unit))
    (tr : List Event) (h : Parked s.device) (hls : Programmed p ls)
    (hrun : system.run s ls = some (s', tr)) :
    Parked s'.device ∧ s'.device.regs.regStatus = s.device.regs.regStatus ∧
      s'.memory = s.memory ∧ s'.device.regs.params = p := by
  have hprog := system.run_relation _
    (fun s' ls _ => Programming p s.device.regs.regStatus s.memory s' ls)
    (fun s ls _ l s' es h hl hstep => programming_step p _ _ s s' ls l es h hl hstep)
    s [] [] ⟨h, rfl, rfl, fun _ _ hmem => absurd hmem List.not_mem_nil⟩ ls
    (system.along_of_forall_mem _ s ls hls.only) s' tr hrun
  rw [List.nil_append] at hprog
  exact ⟨hprog.parked, hprog.status, hprog.memory, params_of_programming p _ _ s' ls hprog hls⟩

/-- A START has been accepted for the parameters `p` and no job has begun
    since. -/
structure Requested (p : Params) (s : Attached) : Prop where
  position : s.device.computeThread.position = .waitStart
  runnable : s.device.computeThread.runnable = true
  requested : s.device.regs.computationRequested = true
  params : s.device.regs.params = p

/-- A START without RESET after a programming sequence makes the request
    pending, if STATUS has IDLE. -/
theorem requested_run [FloatArith] (p : Params) (s s' : Attached) (ls : List (Label Unit))
    (t : Payload) (tr : List Event) (h : Parked s.device)
    (hidle : Has s.device.regs.regStatus Status.idle) (hls : Programmed p ls)
    (hstart : t.Sets Ctrl.start) (hreset : ¬ t.Sets Ctrl.reset)
    (hrun : system.run s (ls ++ [.bar0 t]) = some (s', tr)) :
    Requested p s' ∧ s'.memory = s.memory := by
  rcases (system.run_append_iff s ls [.bar0 t] s' tr).mp hrun with ⟨u, tr₁, tr₂, hls', hlast, -⟩
  rcases programmed_run p s u ls tr₁ h hls hls' with ⟨hparked, hstatus, hmemory, hparams⟩
  have hstep := (Machine.run_singleton_iff _ _ _ _ _).mp hlast
  rcases system_step_inv u s' _ tr₂ hstep with ⟨hdev, hmem⟩
  generalize hd' : s'.device = d' at hdev
  cases hdev with
  | bar0 _ _ es he =>
      refine ⟨?_, by rw [hmem, transfer_bar0 _ _ t es _ _ he, hmemory]⟩
      cases he with
      | start _ _ v =>
          refine ⟨?_, ?_, ?_, ?_⟩
          · rw [hd']
            exact (Process.notify_position _ _).trans hparked.1
          · rw [hd']
            have hwaits : Position.waitsForStart u.device.computeThread.position = true := by
              rw [hparked.1]
              rfl
            exact congrArg Process.runnable (Process.notify_of_waits _ _ hwaits)
          · rw [hd']
            rfl
          · rw [hd']
            exact hparams
      -- The write sets START and STATUS has IDLE, so it is accepted.
      | control _ hacc _ =>
          exact absurd ⟨hstart, Or.inr (by rw [hstatus]; exact hidle)⟩ hacc
      | reset hr _ => exact absurd hr hreset
      | restart hr _ => exact absurd hr hreset
      | quiet hn => exact absurd hstart (hn _)
      | program hn _ _ _ _ => exact absurd hstart (hn _)
      | clear hn _ => exact absurd hstart (hn _)
      | enable hn _ => exact absurd hstart (hn _)

end PcieCosim
