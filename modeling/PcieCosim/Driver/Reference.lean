import PcieCosim.Driver.Ioctl
import Mathlib.Algebra.BigOperators.Fin

/-!
# The Reference Matrix Multiplier

The `MatrixMultiplier` that `main.cc` keeps in its comments, the device the
driver was written for.

It stores two operand matrices and an opcode, and multiplies lazily: a write
only marks the result invalid, and the read of the first result word
recomputes it if it is marked. The other fifteen result words are read as they
are.

`product` is what the device is for, a function of the operands and the
opcode. `Coherent` is the invariant of the cache: a result marked valid is the
product of the operands as they are now. With it a GET_RESULT that runs alone
returns the product, and each of the driver's calls has a one-line description
of what it does to the device, which is all that later arguments use.

## Main definitions

* `MatrixMultiplier`: The device.
* `MatrixMultiplier.handleWrite`, `MatrixMultiplier.handleRead`: Its register
  interface.
* `MatrixMultiplier.bTransportBar0`: One BAR0 transaction.
* `MatrixMultiplier.handler`: The device as the driver reaches it.
* `MatrixMultiplier.product`: The result the device stands for.
* `Side`: The two operands, which the driver treats alike.
* `Coherent`: A valid result is the product.
* `serve`: A call of the driver, alone on the device.
* `Served`: The ways such a call ends.

## Theorems

* `handler_write`, `handler_read`: The driver's accesses reach the handlers.
* `handler_side`, `handler_opcode`, `handler_first`, `handler_later`: The
  accesses the driver makes.
* `exec_writeCells`: A matrix written cell by cell.
* `exec_readCells`: The result read cell by cell.
* `ioctl_cases`, `devIoctl_side`: The two SETs of a matrix are one.
* `serve_eq`, `served`: What a call does.
* `coherent_serve`: A call keeps the cache coherent.
* `toNat_product`: The product is the sum of products modulo `2 ^ 32`.
-/

namespace PcieCosim

open Bytes Interaction

/-- The reference device. -/
structure MatrixMultiplier where
  op1 : Mat
  op2 : Mat
  opcode : Word
  result : Mat
  resultValid : Bool

namespace MatrixMultiplier

/-- The device as constructed. -/
def initial : MatrixMultiplier :=
  { op1 := fun _ _ => 0
    op2 := fun _ _ => 0
    opcode := 0
    result := fun _ _ => 0
    resultValid := false }

/-- The cell a register index selects: `[index / 4][index % 4]`. -/
def cellAt (index : Nat) : Fin 4 × Fin 4 := (Fin.ofNat 4 (index / 4), Fin.ofNat 4 (index % 4))

/-- `handle_write`. -/
def handleWrite (m : MatrixMultiplier) (addr : BitVec 64) (value : Word) : MatrixMultiplier :=
  if 0x10 ≤ addr.toNat ∧ addr.toNat < 0x50 then
    { m with op1 := m.op1.set (cellAt ((addr.toNat - 0x10) / 4)) value, resultValid := false }
  else if 0x50 ≤ addr.toNat ∧ addr.toNat < 0x90 then
    { m with op2 := m.op2.set (cellAt ((addr.toNat - 0x50) / 4)) value, resultValid := false }
  else if addr.toNat = 0x90 then { m with opcode := value, resultValid := false }
  else m

/-- The product of the operands, cell by cell, or all ones for an opcode other
    than 1. -/
def product (m : MatrixMultiplier) : Mat :=
  if m.opcode ≠ 1 then fun _ _ => 0xFFFFFFFF
  else fun i j => (List.finRange 4).foldl (fun acc k => acc + m.op1 i k * m.op2 k j) 0

/-- `perform_multiplication`. -/
def performMultiplication (m : MatrixMultiplier) : MatrixMultiplier :=
  { m with result := m.product, resultValid := true }

/-- `handle_read`. -/
def handleRead (m : MatrixMultiplier) (addr : BitVec 64) : MatrixMultiplier × Word :=
  if 0xA0 ≤ addr.toNat ∧ addr.toNat < 0xE0 then
    let m' := if addr.toNat = 0xA0 ∧ m.resultValid = false then m.performMultiplication else m
    let x := cellAt ((addr.toNat - 0xA0) / 4)
    (m', m'.result x.1 x.2)
  else if addr.toNat = 0x90 then (m, m.opcode)
  else (m, 0xFFFFFFFF)

/-- `b_transport_bar0`. -/
def bTransportBar0 (m : MatrixMultiplier) (t : Payload) : MatrixMultiplier × Response :=
  if t.data.length ≠ 4 then (m, { status := .genericError, data := t.data.map some })
  else if t.command = .write then
    (m.handleWrite t.address (BitVec.ofNat 32 (leNat t.data)),
      { status := .ok, data := t.data.map some })
  else
    let r := m.handleRead t.address
    (r.1, { status := .ok, data := memcpy (word32 r.2) 4 })

/-- The device as the driver reaches it: the answer to an access is the word
    the transaction comes back with. -/
def handler : Handler MatrixMultiplier Access Word := fun m a =>
  ((m.bTransportBar0 a.payload).1, ((m.bTransportBar0 a.payload).2.word).getD 0)

end MatrixMultiplier

open MatrixMultiplier

/-- The two operand matrices. -/
inductive Side where
  | op1
  | op2
  deriving DecidableEq

instance (P : Side → Prop) [DecidablePred P] : Decidable (∀ s, P s) :=
  decidable_of_iff (P .op1 ∧ P .op2)
    ⟨fun h s => match s with
      | .op1 => h.1
      | .op2 => h.2,
    fun h => ⟨h .op1, h .op2⟩⟩

/-- Where an operand starts in the BAR. -/
def Side.base : Side → Nat
  | .op1 => 0x10
  | .op2 => 0x50

namespace MatrixMultiplier

/-- One of the operands. -/
def operand (m : MatrixMultiplier) : Side → Mat
  | .op1 => m.op1
  | .op2 => m.op2

/-- The device with an operand replaced, its result marked invalid. -/
def withOperand (m : MatrixMultiplier) (s : Side) (a : Mat) : MatrixMultiplier :=
  match s with
  | .op1 => { m with op1 := a, resultValid := false }
  | .op2 => { m with op2 := a, resultValid := false }

/-- The device with the opcode replaced, its result marked invalid. -/
def withOpcode (m : MatrixMultiplier) (v : Word) : MatrixMultiplier :=
  { m with opcode := v, resultValid := false }

/-- The device after the first result word has been read. -/
def refreshed (m : MatrixMultiplier) : MatrixMultiplier :=
  if m.resultValid = false then m.performMultiplication else m

end MatrixMultiplier

/-- A result marked valid is the product of the operands. -/
def Coherent (m : MatrixMultiplier) : Prop := m.resultValid = true → m.result = m.product

/-- A call of the driver, alone on the device. -/
def serve (m : MatrixMultiplier) (c : Call) : MatrixMultiplier × Result :=
  (devIoctl c).exec handler m

theorem handler_write (m : MatrixMultiplier) (v : Word) (offset : Nat) :
    (handler m (.iowrite32 v offset)).1 = m.handleWrite (BitVec.ofNat 64 offset) v := by
  have hlen : (word32 v).length = 4 := length_word32 v
  change (m.bTransportBar0 (.write32 (BitVec.ofNat 64 offset) v)).1 = _
  unfold bTransportBar0
  have hcmd : (Payload.write32 (BitVec.ofNat 64 offset) v).command = .write := rfl
  rw [if_neg (fun hne => hne hlen), if_pos hcmd]
  exact congrArg (m.handleWrite _) (ofNat_leNat_word32 v)

theorem handler_read (m : MatrixMultiplier) (offset : Nat) :
    handler m (.ioread32 offset) = m.handleRead (BitVec.ofNat 64 offset) := by
  have hword := word_memcpy_word32 (m.handleRead (BitVec.ofNat 64 offset)).2 4 (Or.inl rfl) .ok
  exact Prod.ext rfl (congrArg (fun w => w.getD 0) hword)

theorem cellOffset_bounds (base : Nat) (x : Fin 4 × Fin 4) :
    base ≤ cellOffset base x ∧ cellOffset base x < base + 0x40 := by
  unfold cellOffset
  have hi := x.1.isLt
  have hj := x.2.isLt
  omega

theorem toNat_cellOffset (base : Nat) (hbase : base ≤ 0xA0) (x : Fin 4 × Fin 4) :
    (BitVec.ofNat 64 (cellOffset base x)).toNat = cellOffset base x := by
  have hlt := (cellOffset_bounds base x).2
  rw [BitVec.toNat_ofNat]
  omega

/-- The device decodes the offsets of a matrix as the driver computes them. -/
theorem cellAt_cellOffset (base : Nat) (x : Fin 4 × Fin 4) :
    cellAt ((cellOffset base x - base) / 4) = x := by
  -- The index is the driver's `i * 4 + j`, and division undoes it.
  have hindex : (cellOffset base x - base) / 4 = x.1.val * 4 + x.2.val := by
    unfold cellOffset
    omega
  have hi := x.1.isLt
  have hj := x.2.isLt
  rw [hindex, cellAt]
  refine Prod.ext (Fin.ext ?_) (Fin.ext ?_)
  · change (x.1.val * 4 + x.2.val) / 4 % 4 = x.1.val
    omega
  · change (x.1.val * 4 + x.2.val) % 4 % 4 = x.2.val
    omega

theorem handler_side (m : MatrixMultiplier) (s : Side) (v : Word) (x : Fin 4 × Fin 4) :
    (handler m (.iowrite32 v (cellOffset s.base x))).1 =
      m.withOperand s ((m.operand s).set x v) := by
  cases s with
  | op1 =>
      have hb := cellOffset_bounds 0x10 x
      change (handler m (.iowrite32 v (cellOffset 0x10 x))).1 = _
      rw [handler_write, handleWrite, toNat_cellOffset 0x10 (by decide), if_pos hb,
        cellAt_cellOffset]
      rfl
  | op2 =>
      have hb := cellOffset_bounds 0x50 x
      change (handler m (.iowrite32 v (cellOffset 0x50 x))).1 = _
      rw [handler_write, handleWrite, toNat_cellOffset 0x50 (by decide), if_neg (by omega),
        if_pos hb, cellAt_cellOffset]
      rfl

theorem handler_opcode (m : MatrixMultiplier) (v : Word) :
    (handler m (.iowrite32 v 0x90)).1 = m.withOpcode v := by
  rw [handler_write]
  rfl

theorem handler_first (m : MatrixMultiplier) :
    handler m (.ioread32 (cellOffset 0xA0 (0, 0))) = (m.refreshed, m.refreshed.result 0 0) := by
  rw [handler_read]
  unfold refreshed
  cases hv : m.resultValid <;> simp only [handleRead, hv] <;> rfl

theorem handler_later (m : MatrixMultiplier) (x : Fin 4 × Fin 4) (hx : x ≠ (0, 0)) :
    handler m (.ioread32 (cellOffset 0xA0 x)) = (m, m.result x.1 x.2) := by
  have hb := cellOffset_bounds 0xA0 x
  -- Only the first cell is at the offset that triggers the recomputation.
  have hne : cellOffset 0xA0 x ≠ 0xA0 := by
    intro heq
    apply hx
    rw [← cellAt_cellOffset 0xA0 x, heq]
    rfl
  rw [handler_read, handleRead, toNat_cellOffset 0xA0 (by decide), if_pos hb,
    cellAt_cellOffset]
  simp only [hne, false_and, if_false]

/-- Assigning the listed cells of `g`. -/
theorem foldl_set (g : Mat) (xs : List (Fin 4 × Fin 4)) (b : Mat) :
    xs.foldl (fun b x => b.set x (g x.1 x.2)) b =
      fun i j => if (i, j) ∈ xs then g i j else b i j := by
  induction xs generalizing b with
  | nil => simp only [List.foldl_nil, List.not_mem_nil, if_false]
  | cons x xs ih =>
      rw [List.foldl_cons, ih]
      funext i j
      by_cases hin : (i, j) ∈ xs
      · rw [if_pos hin, if_pos (List.mem_cons_of_mem x hin)]
      · rw [if_neg hin, Mat.set]
        by_cases hx : (i, j) = x
        · rw [if_pos hx, if_pos (by rw [hx]; exact List.mem_cons_self), ← hx]
        · rw [if_neg hx, if_neg (fun hmem => (List.mem_cons.mp hmem).elim hx hin)]

theorem foldl_set_cells (g : Mat) (b : Mat) :
    cells.foldl (fun b x => b.set x (g x.1 x.2)) b = g := by
  rw [foldl_set]
  funext i j
  rw [if_pos (mem_cells i j)]

theorem operand_withOperand (m : MatrixMultiplier) (s : Side) (a : Mat) :
    (m.withOperand s a).operand s = a := by
  cases s <;> rfl

theorem withOperand_withOperand (m : MatrixMultiplier) (s : Side) (a b : Mat) :
    (m.withOperand s a).withOperand s b = m.withOperand s b := by
  cases s <;> rfl

/-- Writing a first cell and then others. -/
theorem foldl_withOperand (s : Side) (g : Mat) (xs : List (Fin 4 × Fin 4)) (m : MatrixMultiplier)
    (a : Mat) :
    xs.foldl (fun m x => m.withOperand s ((m.operand s).set x (g x.1 x.2))) (m.withOperand s a) =
      m.withOperand s (xs.foldl (fun b x => b.set x (g x.1 x.2)) a) := by
  induction xs generalizing a with
  | nil => rfl
  | cons x xs ih =>
      rw [List.foldl_cons, operand_withOperand, withOperand_withOperand, ih, List.foldl_cons]

/-- A matrix written cell by cell. -/
theorem exec_writeCells (m : MatrixMultiplier) (s : Side) (a : Mat) :
    (writeCells s.base a cells).exec handler m = (m.withOperand s a, ()) := by
  rcases cells_eq with ⟨xs, hcells, -, -⟩
  have hstep : (fun (m : MatrixMultiplier) x =>
      (handler m (.iowrite32 (a x.1 x.2) (cellOffset s.base x))).1) =
      fun m x => m.withOperand s ((m.operand s).set x (a x.1 x.2)) :=
    funext fun m => funext fun x => handler_side m s (a x.1 x.2) x
  rw [writeCells, exec_forEach, hstep]
  refine Prod.ext ?_ rfl
  -- After the first write the device is one with the operand replaced, so
  -- the loop is a loop of assignments to it.
  rw [hcells, List.foldl_cons, foldl_withOperand]
  have hall := foldl_set_cells a (m.operand s)
  rw [hcells, List.foldl_cons] at hall
  rw [hall]

/-- The result read cell by cell: the first read refreshes it. -/
theorem exec_readCells (m : MatrixMultiplier) (kbuf : Mat) :
    (readCells cells kbuf).exec handler m = (m.refreshed, m.refreshed.result) := by
  rcases cells_eq with ⟨xs, hcells, hfirst, -⟩
  have hall := foldl_set_cells m.refreshed.result kbuf
  rw [hcells, List.foldl_cons] at hall
  -- The first read may recompute; the device then stays as it is.
  rw [readCells, hcells, collect, Prog.exec, handler_first]
  refine (exec_collect handler _ _ (fun x => m.refreshed.result x.1 x.2) m.refreshed xs
    (fun x hx => handler_later m.refreshed x (fun heq => hfirst (heq ▸ hx))) _).trans ?_
  rw [hall]

/-- What a call of the driver does to the device when it runs alone, and what
    it returns. -/
theorem serve_eq (m : MatrixMultiplier) (c : Call) :
    serve m c =
      match c.ioctl with
      | some .setOp1Matrix =>
          if c.fault then (m, ⟨-efault, none⟩) else (m.withOperand .op1 c.user, ⟨0, none⟩)
      | some .setOp2Matrix =>
          if c.fault then (m, ⟨-efault, none⟩) else (m.withOperand .op2 c.user, ⟨0, none⟩)
      | some .setOpcode =>
          if c.fault then (m, ⟨-efault, none⟩) else (m.withOpcode (c.user 0 0), ⟨0, none⟩)
      | some .getResult =>
          (m.refreshed, if c.fault then ⟨-efault, none⟩ else ⟨0, some m.refreshed.result⟩)
      | none => (m, ⟨-einval, none⟩) := by
  have hset : ∀ s : Side, (setMatrix s.base c).exec handler m =
      if c.fault then (m, ⟨-efault, none⟩) else (m.withOperand s c.user, ⟨0, none⟩) := by
    intro s
    unfold setMatrix
    cases c.fault with
    | true => rfl
    | false =>
        simp only [Bool.false_eq_true, if_false]
        rw [exec_bind, exec_writeCells]
        rfl
  unfold serve devIoctl
  rcases c.ioctl with _ | x
  · rfl
  · cases x with
    | setOp1Matrix => exact hset .op1
    | setOp2Matrix => exact hset .op2
    | setOpcode =>
        simp only [setOpcode]
        cases c.fault with
        | true => rfl
        | false => exact Prod.ext (handler_opcode m _) rfl
    | getResult =>
        simp only
        rw [exec_bind, exec_readCells, copyResult]
        cases c.fault <;> rfl

/-- The command that sets an operand. -/
def Side.ioctl : Side → Ioctl
  | .op1 => .setOp1Matrix
  | .op2 => .setOp2Matrix

theorem side_ioctl_injective (s s' : Side) (h : some s.ioctl = some s'.ioctl) : s = s' := by
  cases s <;> cases s' <;> first | rfl | exact nomatch h

theorem setOpcode_ne_side (s : Side) : Ioctl.setOpcode ≠ s.ioctl := by
  cases s <;> decide

theorem getResult_ne_side (s : Side) : Ioctl.getResult ≠ s.ioctl := by
  cases s <;> decide

theorem devIoctl_side (c : Call) (s : Side) (hx : c.ioctl = some s.ioctl) :
    devIoctl c = setMatrix s.base c := by
  unfold devIoctl
  rw [hx]
  cases s <;> rfl

/-- The commands, with the two SETs of a matrix taken together. -/
theorem ioctl_cases (x : Ioctl) :
    x = .setOpcode ∨ x = .getResult ∨ ∃ s : Side, x = s.ioctl := by
  cases x with
  | setOp1Matrix => exact Or.inr (Or.inr ⟨.op1, rfl⟩)
  | setOp2Matrix => exact Or.inr (Or.inr ⟨.op2, rfl⟩)
  | setOpcode => exact Or.inl rfl
  | getResult => exact Or.inr (Or.inl rfl)

/-- What a call does when it runs alone, by the way it ends. -/
inductive Served (m : MatrixMultiplier) (c : Call) : MatrixMultiplier → Result → Prop where
  | invalid (hx : c.ioctl = none) : Served m c m ⟨-einval, none⟩
  | fault (hx : c.ioctl ≠ some .getResult) (hf : c.fault = true) : Served m c m ⟨-efault, none⟩
  | setMatrix (s : Side) (hx : c.ioctl = some s.ioctl) (hf : c.fault = false) :
      Served m c (m.withOperand s c.user) ⟨0, none⟩
  | setOpcode (hx : c.ioctl = some .setOpcode) (hf : c.fault = false) :
      Served m c (m.withOpcode (c.user 0 0)) ⟨0, none⟩
  | getFault (hx : c.ioctl = some .getResult) (hf : c.fault = true) :
      Served m c m.refreshed ⟨-efault, none⟩
  | getResult (hx : c.ioctl = some .getResult) (hf : c.fault = false) :
      Served m c m.refreshed ⟨0, some m.refreshed.result⟩

theorem served (m : MatrixMultiplier) (c : Call) : Served m c (serve m c).1 (serve m c).2 := by
  rw [serve_eq]
  rcases hx : c.ioctl with _ | x
  · exact Served.invalid hx
  · cases hf : c.fault with
    | true =>
        cases x with
        | getResult => exact Served.getFault hx hf
        | _ => exact Served.fault (by rw [hx]; decide) hf
    | false =>
        cases x with
        | setOp1Matrix => exact Served.setMatrix .op1 hx hf
        | setOp2Matrix => exact Served.setMatrix .op2 hx hf
        | setOpcode => exact Served.setOpcode hx hf
        | getResult => exact Served.getResult hx hf

theorem refreshed_result (m : MatrixMultiplier) (h : Coherent m) :
    m.refreshed.result = m.product := by
  unfold refreshed
  cases hv : m.resultValid with
  | false => rfl
  | true => exact h hv

/-- Refreshing touches neither the operands nor the opcode. -/
theorem refreshed_frame (m : MatrixMultiplier) :
    m.refreshed.op1 = m.op1 ∧ m.refreshed.op2 = m.op2 ∧ m.refreshed.opcode = m.opcode := by
  unfold refreshed
  split
  · exact ⟨rfl, rfl, rfl⟩
  · exact ⟨rfl, rfl, rfl⟩

theorem coherent_refreshed (m : MatrixMultiplier) (h : Coherent m) : Coherent m.refreshed := by
  intro _
  rw [refreshed_result m h]
  rcases refreshed_frame m with ⟨h1, h2, hop⟩
  rw [product, product, h1, h2, hop]

theorem coherent_withOperand (m : MatrixMultiplier) (s : Side) (a : Mat) :
    Coherent (m.withOperand s a) := by
  cases s <;> exact nofun

theorem coherent_serve (m : MatrixMultiplier) (c : Call) (h : Coherent m) :
    Coherent (serve m c).1 := by
  have hserved := served m c
  generalize serve m c = x at hserved
  rcases x with ⟨m', r⟩
  cases hserved with
  | invalid _ => exact h
  | fault _ _ => exact h
  | setMatrix s _ _ => exact coherent_withOperand m s c.user
  | setOpcode _ _ => exact nofun
  | getFault _ _ => exact coherent_refreshed m h
  | getResult _ _ => exact coherent_refreshed m h

/-- The product is the sum of products, modulo `2 ^ 32`. -/
theorem toNat_product (m : MatrixMultiplier) (i j : Fin 4) :
    (m.product i j).toNat =
      if m.opcode = 1 then (∑ k, (m.op1 i k).toNat * (m.op2 k j).toNat) % 2 ^ 32
      else 0xFFFFFFFF := by
  unfold product
  by_cases hop : m.opcode = 1
  · rw [if_neg (fun hne => hne hop), if_pos hop]
    simp only [Fin.sum_univ_four]
    change (0 + m.op1 i 0 * m.op2 0 j + m.op1 i 1 * m.op2 1 j + m.op1 i 2 * m.op2 2 j +
      m.op1 i 3 * m.op2 3 j : Word).toNat = _
    simp only [BitVec.toNat_add, BitVec.toNat_mul, Nat.add_mod_mod, Nat.mod_add_mod]
    rw [show BitVec.toNat (0 : Word) = 0 from rfl, Nat.zero_add]
  · rw [if_pos hop, if_neg hop]
    rfl

end PcieCosim
