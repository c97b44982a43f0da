import Mathlib.Data.Bool.Basic

/-!
# Simulation Kernel Primitives

The two kernel objects an event-driven model is built from: a thread process,
and a signal that changes only in the update phase.

A process is suspended at a position and may or may not be runnable. Which
positions an event can wake is a property of the position, so `notify` takes
it as a parameter. Notification is immediate: it makes a process that waits on
the event runnable, merges with an earlier notification of the same process,
and is lost on a process that waits on something else. `notify_of_waits` and
`notify_of_not_waits` are those two halves, and losing a notification is the
second one.

A signal holds its current and its next value. A write reaches readers only
after `update`, and `Settled` is the state in which no write is outstanding.

## Main definitions

* `Process`: A suspended thread and whether it may be dispatched.
* `suspend`: A thread that has just reached a wait.
* `Process.wake`: Making a thread runnable.
* `Process.notify`: Immediate notification of an event.
* `Signal`: A value with a delayed update.
* `Signal.write`, `Signal.update`: Writing a signal and the update phase.
* `Signal.Settled`: The last write has taken effect.

## Theorems

* `notify_position`: Notification moves no thread.
* `notify_of_waits`: A waiting thread becomes runnable.
* `notify_of_not_waits`: On any other thread the notification is lost.
* `notify_eq_self_iff`: When a notification has no effect.
* `runnable_notify_of_runnable`: Notifications merge.
* `settled_update`: After the update phase a signal is settled.
-/

namespace Kernel

/-- A suspended thread process. -/
structure Process (α : Type*) where
  position : α
  runnable : Bool

/-- A thread that has just reached the wait at `p`. -/
def suspend {α : Type*} (p : α) : Process α := { position := p, runnable := false }

namespace Process

variable {α : Type*}

/-- Put the thread among the runnable processes. -/
def wake (P : Process α) : Process α := { P with runnable := true }

/-- Immediate notification of an event that the positions in `waits` wait
    for. -/
def notify (waits : α → Bool) (P : Process α) : Process α :=
  if waits P.position then P.wake else P

@[simp]
theorem wake_position (P : Process α) : P.wake.position = P.position := rfl

@[simp]
theorem wake_runnable (P : Process α) : P.wake.runnable = true := rfl

theorem notify_of_waits (waits : α → Bool) (P : Process α) (h : waits P.position = true) :
    P.notify waits = P.wake := by
  rw [notify, if_pos h]

theorem notify_of_not_waits (waits : α → Bool) (P : Process α)
    (h : waits P.position = false) : P.notify waits = P := by
  rw [notify, h, if_neg (by decide)]

/-- A notification is without effect exactly on the threads it does not wake
    and on those already awake. -/
theorem notify_eq_self_iff (waits : α → Bool) (P : Process α) :
    P.notify waits = P ↔ (waits P.position = true → P.runnable = true) := by
  cases hw : waits P.position with
  | true =>
      rw [notify_of_waits waits P hw]
      constructor
      · intro h _
        rw [← h, wake_runnable]
      · intro h
        rw [wake, ← h rfl]
  | false =>
      rw [notify_of_not_waits waits P hw]
      exact ⟨fun _ h => absurd h (by decide), fun _ => rfl⟩

@[simp]
theorem notify_position (waits : α → Bool) (P : Process α) :
    (P.notify waits).position = P.position := by
  cases h : waits P.position with
  | true => rw [notify_of_waits waits P h, wake_position]
  | false => rw [notify_of_not_waits waits P h]

theorem runnable_notify_of_runnable (waits : α → Bool) (P : Process α)
    (h : P.runnable = true) : (P.notify waits).runnable = true := by
  cases hw : waits P.position with
  | true => rw [notify_of_waits waits P hw, wake_runnable]
  | false => rw [notify_of_not_waits waits P hw, h]

end Process

/-- A signal: the value its readers see, and the value last written. -/
structure Signal where
  current : Bool
  next : Bool

namespace Signal

/-- A write, visible to readers after the next update. -/
def write (S : Signal) (v : Bool) : Signal := { S with next := v }

/-- The update phase. -/
def update (S : Signal) : Signal := { S with current := S.next }

/-- The last write has taken effect. -/
def Settled (S : Signal) : Prop := S.current = S.next

instance (S : Signal) : Decidable S.Settled := inferInstanceAs (Decidable (S.current = S.next))

theorem settled_update (S : Signal) : S.update.Settled := rfl

end Signal

end Kernel
