import Mathlib.Data.List.Basic

/-!
# Programs That Interact with a Device

Code that makes accesses to a device and goes on with their answers, kept
apart from any particular device.

A program is a tree: it has finished, or it makes an access and has a
continuation for every answer. A handler is a device, a state with an answer
to each access. `exec` runs a program alone on a handler; because the program
is a tree and not a function of the device, the same program can also be run
one access at a time, with others in between.

The two loops a register driver is made of are `forEach`, which makes an
access for each element of a list and ignores the answers, and `collect`,
which stores each answer in an accumulator.

## Main definitions

* `Prog`: A program that makes accesses.
* `Prog.bind`: One program after another.
* `Handler`: A device that answers accesses.
* `Prog.exec`: Running a program alone.
* `forEach`, `collect`: The two loops.

## Theorems

* `exec_bind`: Running one program after another.
* `exec_forEach`: A write loop is a fold over the device.
* `exec_collect`: A read loop on a device that it leaves alone.
-/

namespace Interaction

/-- A program that makes accesses `ι`, gets answers `ω` and ends with an
    `α`. -/
inductive Prog (ι ω α : Type*) where
  | done (a : α)
  | call (i : ι) (next : ω → Prog ι ω α)

/-- A device: what an access does to its state, and the answer. -/
abbrev Handler (σ ι ω : Type*) := σ → ι → σ × ω

variable {ι ω α β γ σ : Type*}

/-- One program after another. -/
def Prog.bind : Prog ι ω α → (α → Prog ι ω β) → Prog ι ω β
  | .done a, f => f a
  | .call i next, f => .call i (fun v => (next v).bind f)

/-- Run a program alone on a device. -/
def Prog.exec (h : Handler σ ι ω) : Prog ι ω α → σ → σ × α
  | .done a, s => (s, a)
  | .call i next, s => (next (h s i).2).exec h (h s i).1

theorem exec_bind (h : Handler σ ι ω) (x : Prog ι ω α) (f : α → Prog ι ω β) (s : σ) :
    (x.bind f).exec h s = (f (x.exec h s).2).exec h (x.exec h s).1 := by
  induction x generalizing s with
  | done a => rfl
  | call i next ih => exact ih (h s i).2 (h s i).1

/-- Make an access for each element, ignoring the answers. -/
def forEach (f : γ → ι) : List γ → Prog ι ω Unit
  | [] => .done ()
  | x :: xs => .call (f x) (fun _ => forEach f xs)

/-- Make an access for each element, storing the answers. -/
def collect (f : γ → ι) (store : β → γ → ω → β) : List γ → β → Prog ι ω β
  | [], b => .done b
  | x :: xs, b => .call (f x) (fun v => collect f store xs (store b x v))

theorem exec_forEach (h : Handler σ ι ω) (f : γ → ι) (xs : List γ) (s : σ) :
    (forEach f xs).exec h s = (xs.foldl (fun s x => (h s (f x)).1) s, ()) := by
  induction xs generalizing s with
  | nil => rfl
  | cons x xs ih => exact ih (h s (f x)).1

theorem exec_collect (h : Handler σ ι ω) (f : γ → ι) (store : β → γ → ω → β) (g : γ → ω)
    (s : σ) (xs : List γ) (hconst : ∀ x ∈ xs, h s (f x) = (s, g x)) (b : β) :
    (collect f store xs b).exec h s = (s, xs.foldl (fun b x => store b x (g x)) b) := by
  induction xs generalizing b with
  | nil => rfl
  | cons x xs ih =>
      have hx := hconst x List.mem_cons_self
      rw [collect, Prog.exec, hx]
      exact ih (fun y hy => hconst y (List.mem_cons_of_mem x hy)) _

end Interaction
