import PcieCosim.Driver.Reference
import PcieCosim.Lib.Clients

/-!
# Results Are Never Stale

The driver on the reference device, one call at a time, over any history of
calls.

The history decides what a GET_RESULT should deliver: the product of the
matrices of the last SET_OP1_MATRIX and SET_OP2_MATRIX that succeeded, if the
last SET_OPCODE that succeeded was 1. `Tracks` says that the device holds
those operands and that its cached result is coherent with them, and every
call keeps it: the calls that fail return before their first access, except
GET_RESULT, which touches no operand.

## Main definitions

* `Ioctl.succeeds`: A return of the given command with value 0.
* `lastGiven`: What the last successful call of a command gave.
* `lastOp1`, `lastOp2`, `lastOpcode`: The operands a history has set.
* `Tracks`: The device holds what the history has set.

## Theorems

* `lastGiven_concat`: One more call of the history.
* `serve_failed`: A call that fails leaves operands and opcode alone.
* `tracks_step`: A call keeps the relation of device and history.
* `serial_induction`: What every call keeps holds after any history.
* `results_fresh`: Every result delivered is the product of the operands set.
-/

namespace PcieCosim

open Interaction Transition MatrixMultiplier

variable {κ : Type}

/-- The return of a call of the given command with value 0. -/
def Ioctl.succeeds (x : Ioctl) (e : Returned κ Call Result) : Bool :=
  e.call.ioctl = some x ∧ e.ret.ret = 0

theorem succeeds_iff (x : Ioctl) (e : Returned κ Call Result) :
    x.succeeds e = true ↔ e.call.ioctl = some x ∧ e.ret.ret = 0 := decide_eq_true_iff

/-- What the last successful call of a command gave, as `f` reads it off the
    user's words, and `z` if there is none. -/
def lastGiven {α : Type} (x : Ioctl) (f : Mat → α) (z : α) (tr : List (Returned κ Call Result)) :
    α :=
  ((tr.filter x.succeeds).getLast?.map (fun e => f e.call.user)).getD z

/-- The matrix of the last successful SET_OP1_MATRIX. -/
def lastOp1 (tr : List (Returned κ Call Result)) : Mat :=
  lastGiven .setOp1Matrix id (fun _ _ => 0) tr

/-- The matrix of the last successful SET_OP2_MATRIX. -/
def lastOp2 (tr : List (Returned κ Call Result)) : Mat :=
  lastGiven .setOp2Matrix id (fun _ _ => 0) tr

/-- The opcode of the last successful SET_OPCODE. -/
def lastOpcode (tr : List (Returned κ Call Result)) : Word :=
  lastGiven .setOpcode (fun u => u 0 0) 0 tr

theorem lastGiven_concat {α : Type} (x : Ioctl) (f : Mat → α) (z : α)
    (tr : List (Returned κ Call Result)) (e : Returned κ Call Result) :
    lastGiven x f z (tr ++ [e]) = if x.succeeds e then f e.call.user else lastGiven x f z tr := by
  unfold lastGiven
  rw [List.filter_append]
  by_cases he : x.succeeds e = true
  · rw [if_pos he, List.filter_cons_of_pos he, List.filter_nil, List.getLast?_concat]
    rfl
  · rw [if_neg he, List.filter_cons_of_neg he, List.filter_nil, List.append_nil]

/-- The device holds what the history has set, and its cache is coherent. -/
structure Tracks (m : MatrixMultiplier) (tr : List (Returned κ Call Result)) : Prop where
  op1 : m.op1 = lastOp1 tr
  op2 : m.op2 = lastOp2 tr
  opcode : m.opcode = lastOpcode tr
  coherent : Coherent m

/-- A call that fails leaves operands and opcode alone. -/
theorem serve_failed (m : MatrixMultiplier) (c : Call) (h : (serve m c).2.ret ≠ 0) :
    (serve m c).1.op1 = m.op1 ∧ (serve m c).1.op2 = m.op2 ∧
      (serve m c).1.opcode = m.opcode := by
  have hserved := served m c
  generalize serve m c = x at h hserved
  rcases x with ⟨m', r⟩
  cases hserved with
  | invalid _ => exact ⟨rfl, rfl, rfl⟩
  | fault _ _ => exact ⟨rfl, rfl, rfl⟩
  | setMatrix s _ _ => exact absurd rfl h
  | setOpcode _ _ => exact absurd rfl h
  | getFault _ _ => exact refreshed_frame m
  | getResult _ _ => exact refreshed_frame m

/-- What a successful call leaves in operands and opcode. -/
theorem serve_succeeded (m : MatrixMultiplier) (c : Call) (h : (serve m c).2.ret = 0) :
    (serve m c).1.op1 = (if c.ioctl = some .setOp1Matrix then c.user else m.op1) ∧
      (serve m c).1.op2 = (if c.ioctl = some .setOp2Matrix then c.user else m.op2) ∧
      (serve m c).1.opcode = (if c.ioctl = some .setOpcode then c.user 0 0 else m.opcode) := by
  have hserved := served m c
  generalize serve m c = x at h hserved
  rcases x with ⟨m', r⟩
  cases hserved with
  | invalid _ => exact absurd h errno_ne_zero.2
  | fault _ _ => exact absurd h errno_ne_zero.1
  | getFault _ _ => exact absurd h errno_ne_zero.1
  | setMatrix s hx _ =>
      rw [hx]
      cases s <;> exact ⟨rfl, rfl, rfl⟩
  | setOpcode hx _ =>
      rw [hx]
      exact ⟨rfl, rfl, rfl⟩
  | getResult hx _ =>
      rw [hx]
      exact refreshed_frame m

/-- One more call, on one of the three things a history sets. -/
theorem lastGiven_serve {α : Type} (x : Ioctl) (f : Mat → α) (z : α)
    (tr : List (Returned κ Call Result)) (k : κ) (m : MatrixMultiplier) (c : Call)
    (now after : α) (hnow : now = lastGiven x f z tr)
    (hfailed : (serve m c).2.ret ≠ 0 → after = now)
    (hok : (serve m c).2.ret = 0 → after = if c.ioctl = some x then f c.user else now) :
    after = lastGiven x f z (tr ++ [⟨k, c, (serve m c).2⟩]) := by
  rw [lastGiven_concat]
  -- Only a call that returns 0 can be the last successful one.
  by_cases hret : (serve m c).2.ret = 0
  · rw [hok hret]
    by_cases hx : c.ioctl = some x
    · rw [if_pos hx, if_pos ((succeeds_iff x _).mpr ⟨hx, hret⟩)]
    · rw [if_neg hx, if_neg (fun hs => hx ((succeeds_iff x _).mp hs).1), hnow]
  · rw [hfailed hret, if_neg (fun hs => hret ((succeeds_iff x _).mp hs).2), hnow]

theorem tracks_step (m : MatrixMultiplier) (tr : List (Returned κ Call Result)) (k : κ)
    (c : Call) (h : Tracks m tr) :
    Tracks (serve m c).1 (tr ++ [⟨k, c, (serve m c).2⟩]) where
  op1 := lastGiven_serve .setOp1Matrix id _ tr k m c m.op1 _ h.op1
    (fun hf => (serve_failed m c hf).1) (fun hs => (serve_succeeded m c hs).1)
  op2 := lastGiven_serve .setOp2Matrix id _ tr k m c m.op2 _ h.op2
    (fun hf => (serve_failed m c hf).2.1) (fun hs => (serve_succeeded m c hs).2.1)
  opcode := lastGiven_serve .setOpcode (fun u => u 0 0) _ tr k m c m.opcode _ h.opcode
    (fun hf => (serve_failed m c hf).2.2) (fun hs => (serve_succeeded m c hs).2.2)
  coherent := coherent_serve m c h.coherent

/-- Induction on calls that run one at a time: what one more call keeps holds
    of the device and the history after any number of them. -/
theorem serial_induction (J : MatrixMultiplier → List (Returned κ Call Result) → Prop)
    (hstep : ∀ m tr k c, J m tr → J (serve m c).1 (tr ++ [⟨k, c, (serve m c).2⟩]))
    (h0 : J initial []) (calls : List (κ × Call)) (m : MatrixMultiplier)
    (tr : List (Returned κ Call Result))
    (hrun : (serial devIoctl handler).run initial calls = some (m, tr)) : J m tr := by
  refine (serial devIoctl handler).run_trace J (fun m tr l m' es h hs => ?_) initial h0 calls
    m tr hrun
  rcases l with ⟨k, c⟩
  change some ((serve m c).1, [⟨k, c, (serve m c).2⟩]) = some (m', es) at hs
  simp only [Option.some.injEq, Prod.mk.injEq] at hs
  rcases hs with ⟨rfl, rfl⟩
  exact hstep m tr k c h

theorem tracks_run (calls : List (κ × Call)) (m : MatrixMultiplier)
    (tr : List (Returned κ Call Result))
    (hrun : (serial devIoctl handler).run initial calls = some (m, tr)) : Tracks m tr :=
  serial_induction Tracks tracks_step ⟨rfl, rfl, rfl, nofun⟩ calls m tr hrun

/-- After any history of calls, one at a time, on the reference device: a
    GET_RESULT that returns 0 delivers the product, modulo `2 ^ 32`, of the
    matrices of the last successful SET_OP1_MATRIX and SET_OP2_MATRIX if the
    last successful SET_OPCODE was 1, and all ones otherwise; and a call that
    returns an error leaves both operands and the opcode as they were. -/
theorem results_fresh (calls : List (κ × Call)) (m : MatrixMultiplier)
    (tr : List (Returned κ Call Result))
    (hrun : (serial devIoctl handler).run initial calls = some (m, tr)) (c : Call) :
    (c.ioctl = some .getResult → (serve m c).2.ret = 0 →
      ∃ a, (serve m c).2.copied = some a ∧ ∀ i j, (a i j).toNat =
        if lastOpcode tr = 1 then
          (∑ k, (lastOp1 tr i k).toNat * (lastOp2 tr k j).toNat) % 2 ^ 32
        else 0xFFFFFFFF) ∧
    ((serve m c).2.ret = -efault ∨ (serve m c).2.ret = -einval →
      (serve m c).1.op1 = m.op1 ∧ (serve m c).1.op2 = m.op2 ∧
        (serve m c).1.opcode = m.opcode) := by
  have htracks := tracks_run calls m tr hrun
  constructor
  · intro hget hret
    have hserved := served m c
    generalize serve m c = x at hret hserved
    rcases x with ⟨m', r⟩
    cases hserved with
    | invalid hx => exact nomatch hx.symm.trans hget
    | fault hx _ => exact absurd hget hx
    | setMatrix s hx _ => cases s <;> exact nomatch hx.symm.trans hget
    | setOpcode hx _ => exact nomatch hx.symm.trans hget
    | getFault _ _ => exact absurd hret errno_ne_zero.1
    | getResult _ _ =>
        refine ⟨m.refreshed.result, rfl, fun i j => ?_⟩
        rw [refreshed_result m htracks.coherent, toNat_product, htracks.op1, htracks.op2,
          htracks.opcode]
  · intro herr
    refine serve_failed m c (fun hzero => ?_)
    rw [hzero] at herr
    exact absurd herr (by decide)

/-- A call that finds the given words and whose copy succeeds. -/
def Ioctl.callWith (x : Ioctl) (user : Mat) : Call :=
  { cmd := x.code, user := user, fault := false, kbuf := fun _ _ => 0 }

/-- A history that sets a matrix of threes, twice the identity and opcode 1,
    and then fails to set another matrix. -/
def doubling : List (Unit × Call) :=
  [((), Ioctl.callWith .setOp1Matrix (fun _ _ => 3)),
    ((), Ioctl.callWith .setOp2Matrix (fun i j => if i = j then 2 else 0)),
    ((), Ioctl.callWith .setOpcode (fun _ _ => 1)),
    ((), { Ioctl.callWith .setOp1Matrix (fun _ _ => 7) with fault := true })]

/-- After it, GET_RESULT delivers a matrix of sixes. -/
theorem results_fresh_doubling :
    ∃ m tr a, (serial devIoctl handler).run initial doubling = some (m, tr) ∧
      (serve m (Ioctl.callWith .getResult (fun _ _ => 0))).2.copied = some a ∧
      ∀ i j, (a i j).toNat = 6 := by
  have hfresh := fun hret => (results_fresh doubling _ _ rfl
    (Ioctl.callWith .getResult (fun _ _ => 0))).1 (by decide) hret
  rcases hfresh rfl with ⟨a, ha, hcells⟩
  refine ⟨_, _, a, rfl, ha, fun i j => ?_⟩
  rw [hcells]
  revert i j
  decide +kernel

end PcieCosim
