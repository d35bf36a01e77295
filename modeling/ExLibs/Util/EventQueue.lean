/-
# The event queue

`eventQueue` with the effect of each operation at the moment it takes it: what a
consumer finds in its critical section once it does not have to wait.
-/
import Mathlib.Tactic.TypeStar

namespace ExLibs.Util

/-- An `eventQueue`: its items, the next one first, and its stop flag. -/
structure EventQueue (T : Type*) where
  queue : List T
  isStop : Bool

namespace EventQueue

variable {T : Type*}

/-- An empty queue that runs. -/
def empty : EventQueue T := ⟨[], false⟩

/-- Push an item. -/
def enQueue (q : EventQueue T) (item : T) : EventQueue T := { q with queue := q.queue ++ [item] }

/-- Raise the stop flag, whatever is in the queue. -/
def stop (q : EventQueue T) : EventQueue T := { q with isStop := true }

/-- Take an item, or `T()` once the queue is stopped; `none` while there is nothing to
take and the consumer has to wait. -/
def deQueue [Inhabited T] (q : EventQueue T) : Option (T × EventQueue T) :=
  if q.isStop then some (default, q)
  else
    match q.queue with
    | [] => none
    | item :: queue => some (item, { q with queue })

/-- What `deQueue` takes was in the queue or is `T()`, and what it leaves was there. -/
theorem mem_of_deQueue [Inhabited T] {q q' : EventQueue T} {item : T}
    (takes : q.deQueue = some (item, q')) :
    (item ∈ q.queue ∨ item = default) ∧ ∀ other ∈ q'.queue, other ∈ q.queue := by
  unfold deQueue at takes
  split at takes
  · obtain ⟨rfl, rfl⟩ := Prod.mk.inj (Option.some.inj takes)
    exact ⟨.inr rfl, fun _ => id⟩
  · split at takes
    · cases takes
    · rename_i found
      obtain ⟨rfl, rfl⟩ := Prod.mk.inj (Option.some.inj takes)
      rw [found]
      exact ⟨.inl List.mem_cons_self, fun _ => List.mem_cons_of_mem _⟩

/-- Taking an item does not stop the queue. -/
theorem isStop_deQueue [Inhabited T] {q q' : EventQueue T} {item : T}
    (takes : q.deQueue = some (item, q')) : q'.isStop = q.isStop := by
  unfold deQueue at takes
  split at takes
  · rw [(Prod.mk.inj (Option.some.inj takes)).2]
  · split at takes
    · cases takes
    · rw [← (Prod.mk.inj (Option.some.inj takes)).2]

/-- What is taken while the queue runs is its first item. -/
theorem queue_of_deQueue [Inhabited T] {q q' : EventQueue T} {item : T} (runs : q.isStop = false)
    (takes : q.deQueue = some (item, q')) : q.queue = item :: q'.queue := by
  unfold deQueue at takes
  rw [runs, if_neg Bool.false_ne_true] at takes
  split at takes
  · cases takes
  · rename_i found
    obtain ⟨rfl, rfl⟩ := Prod.mk.inj (Option.some.inj takes)
    exact found

end EventQueue

end ExLibs.Util
