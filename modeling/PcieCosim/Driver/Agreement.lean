import PcieCosim.Driver.Results
import PcieCosim.Endpoint.Reset
import PcieCosim.Lib.Attached

/-!
# The Driver on the Endpoint

The driver and the endpoint of `pcie_system_top`, put together: each access of
the driver is a transaction on `bar0_target_socket`, and between accesses the
endpoint takes any steps but BAR0 transactions.

The two do not share a register map. The operands the driver writes land on
the pointer and interrupt registers or on no register, its opcode on none, and
the result it reads is at offsets the endpoint does not decode, so every cell
it delivers is the filler `0xDEADBEEF`. Nor do they share a trigger: the
driver never writes CONTROL, so an idle endpoint stays idle. All calls
nevertheless return 0, and the session delivers the product exactly when the
product consists of fillers.

## Main definitions

* `callAll`: Calls one after another.
* `session`: Two matrices, opcode 1, and the result.
* `answerOf`: The word an access comes back with.
* `driven`: The driver on the endpoint.
* `Delivers`: The session gives the product.

## Theorems

* `answers_filler`: What the endpoint answers to a read it does not decode.
* `devIoctl_meets`, `callAll_meets`: What calls do and what they return.
* `driven_calls`: So they return on the endpoint, and start nothing on it.
* `driven_completes`: They always end.
* `session_delivers_iff`: When a session delivers the product.
* `session_misdelivers`: One that does not.
-/

namespace PcieCosim

open Bytes Interaction Transition MatrixMultiplier

/-- Calls of the driver, one after another, with what each returns. -/
def callAll : List Call → Prog Access Word (List Result)
  | [] => .done []
  | c :: cs => (devIoctl c).bind (fun r => (callAll cs).bind (fun rs => .done (r :: rs)))

/-- Set both operands and the opcode 1, and get the result. -/
def session (a b kbuf : Mat) : Prog Access Word (List Result) :=
  callAll [Ioctl.callWith .setOp1Matrix a, Ioctl.callWith .setOp2Matrix b,
    Ioctl.callWith .setOpcode (fun _ _ => 1),
    { Ioctl.callWith .getResult (fun _ _ => 0) with kbuf := kbuf }]

/-- The word an access comes back with, off the events of its transaction. -/
def answerOf (es : List Event) : Word :=
  match es.getLast? with
  | some (.bar0 _ r) => r.word.getD 0
  | _ => 0

/-- The driver on the endpoint. -/
def driven [FloatArith] :
    Machine (Device × Prog Access Word (List Result)) (AttachedLabel (Label DmaTarget)) Event :=
  attached machine (fun i : Access => .bar0 i.payload) answerOf (fun l => !l.isBar0)

/-- The word the endpoint answers a read it does not decode with. -/
def filler : Word := 0xDEADBEEF

/-- All calls return 0 and the last one delivers the product of `a` and `b`,
    modulo `2 ^ 32`. -/
def Delivers (a b : Mat) (rs : List Result) : Prop :=
  (∀ r ∈ rs, r.ret = 0) ∧ ∃ r c, rs.getLast? = some r ∧ r.copied = some c ∧
    ∀ i j, (c i j).toNat = (∑ k, (a i k).toNat * (b k j).toNat) % 2 ^ 32

/-- The access writes no control bit. -/
def Harmless (i : Access) : Prop := ∀ bit, ¬ i.payload.Sets bit

/-- A read the endpoint does not decode is answered with the filler. -/
def Filled (i : Access) (v : Word) : Prop :=
  ∀ offset, i = .ioread32 offset → Register.decode (BitVec.ofNat 64 offset) = none → v = filler

theorem answers_filler [FloatArith] (d d' : Device) (i : Access) (es : List Event)
    (h : machine.step d (.bar0 i.payload) = some (d', es)) : Filled i (answerOf es) := by
  rintro offset rfl hdec
  change some _ = some (d', es) at h
  simp only [Option.some.injEq, Prod.mk.injEq] at h
  rcases h with ⟨-, rfl⟩
  -- The default case of the read switch.
  have hread : (d.bar0BTransport (Access.ioread32 offset).payload).2.2 =
      { status := .ok, data := d.handleMmioRead (BitVec.ofNat 64 offset) 4 } := rfl
  rw [answerOf, List.getLast?_concat, hread, Device.handleMmioRead, hdec]
  exact congrArg (fun w => w.getD 0) (word_memcpy_word32 0xDEADBEEF 4 (Or.inl rfl) .ok)

/-- The offsets from 0x30 up are not decoded. -/
theorem decode_beyond (offset : Nat) (hlow : 0x30 ≤ offset) (hhigh : offset < 0x100) :
    Register.decode (BitVec.ofNat 64 offset) = none := by
  cases hdec : Register.decode (BitVec.ofNat 64 offset) with
  | none => rfl
  | some r =>
      have haddr := congrArg BitVec.toNat (offset_of_decode _ r hdec)
      have hreg : r.offset.toNat < 0x30 := by
        cases r with
        | matrixPtr m => cases m <;> decide
        | matrixPtrHigh m => cases m <;> decide
        | _ => decide
      rw [BitVec.toNat_ofNat] at haddr
      omega

theorem harmless_read (offset : Nat) : Harmless (.ioread32 offset) :=
  fun _ h => nomatch h.1

theorem harmless_write (v : Word) (offset : Nat) (hlow : 0 < offset) (hhigh : offset < 0x100) :
    Harmless (.iowrite32 v offset) := by
  intro bit h
  have haddr := congrArg BitVec.toNat h.2.1
  change (BitVec.ofNat 64 offset).toNat = 0 at haddr
  rw [BitVec.toNat_ofNat] at haddr
  omega

/-- What a call returns on the endpoint. -/
def endpointReturn (c : Call) : Result :=
  match c.ioctl with
  | none => ⟨-einval, none⟩
  | some x =>
      if c.fault then ⟨-efault, none⟩
      else if x = .getResult then ⟨0, some (fun _ _ => filler)⟩
      else ⟨0, none⟩

/-- SET_OP1_MATRIX and SET_OP2_MATRIX write beyond CONTROL. -/
theorem setMatrix_meets (s : Side) (c : Call) :
    (setMatrix s.base c).Meets Harmless Filled
      (fun r => r = if c.fault then ⟨-efault, none⟩ else ⟨0, none⟩) := by
  have hbase : 0 < s.base ∧ s.base ≤ 0x50 := by
    cases s <;> decide
  unfold setMatrix
  cases c.fault with
  | true => exact rfl
  | false =>
      refine meets_bind _ _ _ _ _ _ (meets_forEach _ _ _ _ (fun x _ => ?_)) (fun _ _ => rfl)
      have hb := cellOffset_bounds s.base x
      exact harmless_write _ _ (by omega) (by omega)

/-- GET_RESULT collects fillers, whatever the endpoint's state. -/
theorem getResult_meets (c : Call) :
    ((readCells cells c.kbuf).bind (copyResult c)).Meets Harmless Filled
      (fun r => r = if c.fault then ⟨-efault, none⟩ else ⟨0, some (fun _ _ => filler)⟩) := by
  refine meets_bind _ _ _ _ _ _ (meets_collect _ _ _ _ (fun _ => filler) _
    (fun x _ => harmless_read _) (fun x _ v hv => ?_) c.kbuf) (fun kbuf hkbuf => ?_)
  -- 0xA0 to 0xDC is beyond the endpoint's last register.
  · have hb := cellOffset_bounds 0xA0 x
    exact hv _ rfl (decode_beyond _ (by omega) (by omega))
  · rw [hkbuf, foldl_set_cells (fun _ _ => filler)]
    unfold copyResult
    cases c.fault <;> exact rfl

/-- Every call of the driver, on the endpoint. -/
theorem devIoctl_meets (c : Call) :
    (devIoctl c).Meets Harmless Filled (fun r => r = endpointReturn c) := by
  unfold endpointReturn
  rcases hx : c.ioctl with _ | x
  · rw [devIoctl, hx]
    exact rfl
  · rcases ioctl_cases x with rfl | rfl | ⟨s, rfl⟩
    · rw [devIoctl, hx]
      simp only [setOpcode]
      cases c.fault with
      | true => exact rfl
      | false => exact ⟨harmless_write _ _ (by decide) (by decide), fun _ _ => rfl⟩
    · rw [devIoctl, hx]
      exact getResult_meets c
    · simp only [if_neg (getResult_ne_side s).symm]
      rw [devIoctl_side c s hx]
      exact setMatrix_meets s c

/-- Calls one after another on the endpoint. -/
theorem callAll_meets (cs : List Call) :
    (callAll cs).Meets Harmless Filled (fun rs => rs = cs.map endpointReturn) := by
  induction cs with
  | nil => exact rfl
  | cons c cs ih =>
      refine meets_bind _ _ _ _ _ _ (devIoctl_meets c) (fun r hr => ?_)
      refine meets_bind _ _ _ _ _ _ ih (fun rs hrs => ?_)
      change r :: rs = endpointReturn c :: cs.map endpointReturn
      rw [hr, hrs]

section

variable [FloatArith]

/-- What calls return is independent of the endpoint's state and of what it
    does in between. On an endpoint that is idle they start nothing. -/
theorem driven_calls (cs : List Call) (ls : List (AttachedLabel (Label DmaTarget)))
    (d d' : Device) (prog : Prog Access Word (List Result)) (tr : List Event)
    (hrun : driven.run (d, callAll cs) ls = some ((d', prog), tr)) :
    (∀ rs, prog = .done rs → rs = cs.map endpointReturn) ∧
      (Quiet d → ∀ e ∈ tr, QuietEvent e) := by
  rcases attached_run machine (fun i : Access => .bar0 i.payload) answerOf (fun l => !l.isBar0)
    Harmless Filled _ (fun d i d' es => answers_filler d d' i es) ls d d' _ prog tr
    (callAll_meets cs) hrun with ⟨hmeets, ls', hrun', hls'⟩
  constructor
  · rintro rs rfl
    exact hmeets
  · intro hquiet
    refine (quiesced_of_quiet d hquiet ls' d' tr (fun l hl => ?_) hrun').1
    rcases hls' l hl with hown | ⟨i, hi, rfl⟩
    -- The endpoint's own steps are no transactions, and the driver's write
    -- no control bit.
    · cases l with
      | bar0 t => exact nomatch hown
      | _ => exact trivial
    · exact hi Ctrl.start

/-- Calls that have begun can be brought to their end. -/
theorem driven_completes (d : Device) (prog : Prog Access Word (List Result)) :
    ∃ ls d' rs tr, driven.run (d, prog) ls = some ((d', .done rs), tr) :=
  attached_completes machine (fun i : Access => .bar0 i.payload) answerOf (fun l => !l.isBar0)
    (fun _ _ => ⟨_, _, rfl⟩) prog d

/-- Setting both operands and opcode 1 and getting the result, on the endpoint
    in any state and with any progress of the endpoint between accesses: the
    session can always be brought to its end, and however it ends all calls
    have returned 0, and it has delivered the product exactly if every cell of
    the product is the endpoint's filler. -/
theorem session_delivers_iff (a b kbuf : Mat) (ls : List (AttachedLabel (Label DmaTarget)))
    (d d' : Device) (prog : Prog Access Word (List Result)) (tr : List Event)
    (hrun : driven.run (d, session a b kbuf) ls = some ((d', prog), tr)) :
    (∃ ls' d'' rs tr', driven.run (d', prog) ls' = some ((d'', .done rs), tr')) ∧
      ∀ rs, prog = .done rs → (∀ r ∈ rs, r.ret = 0) ∧
        (Delivers a b rs ↔
          ∀ i j, (∑ k, (a i k).toNat * (b k j).toNat) % 2 ^ 32 = filler.toNat) := by
  refine ⟨driven_completes d' prog, fun rs hdone => ?_⟩
  -- The results do not depend on the run.
  have hrs : rs = [⟨0, none⟩, ⟨0, none⟩, ⟨0, none⟩, ⟨0, some (fun _ _ => filler)⟩] :=
    (driven_calls _ ls d d' prog tr hrun).1 rs hdone
  have hzero : ∀ r ∈ rs, r.ret = 0 := by
    rw [hrs]
    simp only [List.mem_cons, List.not_mem_nil, or_false]
    rintro r (rfl | rfl | rfl | rfl) <;> rfl
  refine ⟨hzero, ?_⟩
  constructor
  · rintro ⟨-, r, c, hlast, hcopied, hcells⟩ i j
    rw [hrs] at hlast
    rw [← Option.some.inj hlast] at hcopied
    rw [← hcells i j, ← Option.some.inj hcopied]
  · intro hfill
    refine ⟨hzero, ⟨0, some (fun _ _ => filler)⟩, fun _ _ => filler, ?_, rfl, fun i j => ?_⟩
    · rw [hrs]
      rfl
    · exact (hfill i j).symm

end

/-- The accesses of a session, with nothing in between. -/
def undisturbed : List (AttachedLabel (Label DmaTarget)) := List.replicate 49 .access

/-- The identity times a matrix of fillers. -/
theorem session_delivers_fillers :
    ∃ d' rs tr, (@driven float32Arith).run
        (.initialized, session (fun i j => if i = j then 1 else 0) (fun _ _ => filler)
          (fun _ _ => 0)) undisturbed = some ((d', .done rs), tr) ∧
      Delivers (fun i j => if i = j then 1 else 0) (fun _ _ => filler) rs := by
  refine ⟨_, _, _, rfl, ?_⟩
  refine (((@session_delivers_iff float32Arith _ _ _ undisturbed .initialized _ _ _ rfl).2 _
    rfl).2).mpr ?_
  decide +kernel

/-- On the endpoint as it is after initialization, the product of two zero
    matrices comes back as fillers. -/
theorem session_misdelivers :
    ∃ d' rs tr, (@machine float32Arith).Reachable .constructed .initialized ∧
      Device.initialized.regs.regStatus = Status.idle ∧
      (@driven float32Arith).run
        (.initialized, session (fun _ _ => 0) (fun _ _ => 0) (fun _ _ => 0)) undisturbed =
          some ((d', .done rs), tr) ∧
      ¬ Delivers (fun _ _ => 0) (fun _ _ => 0) rs := by
  refine ⟨_, _, _, ⟨[.compute acceptAll], [], rfl⟩, rfl, rfl, ?_⟩
  rintro ⟨-, r, c, hlast, hcopied, hcells⟩
  rw [← Option.some.inj hlast] at hcopied
  have hcell := hcells 0 0
  rw [← Option.some.inj hcopied] at hcell
  exact absurd hcell (by decide +kernel)

end PcieCosim
