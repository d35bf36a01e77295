/-
# A mailbox with one slot

Whoever finds the slot empty may put something into it, and the owner empties it again by
taking or discarding what is there. Everything that was put is then taken, discarded or
still in the slot, once each, so what is put once is taken at most once.
-/
import Mathlib.Data.List.Perm.Basic
import ExLibs.Math.Transition

namespace ExLibs.Math

variable {α : Type*}

/-- A slot, with what has been put into it, taken and discarded so far. -/
structure OneSlot (α : Type*) where
  slot : Option α
  put : List α
  taken : List α
  discarded : List α

/-- An operation on the slot. -/
inductive SlotLabel (α : Type*)
  | put (a : α)
  | take
  | discard

namespace OneSlot

/-- An empty slot that nothing was put into. -/
def empty : OneSlot α := ⟨none, [], [], []⟩

/-- One operation, if it is enabled. -/
def step (s : OneSlot α) : SlotLabel α → Option (OneSlot α)
  | .put a =>
    match s.slot with
    | none => some { s with slot := some a, put := s.put ++ [a] }
    | some _ => none
  | .take =>
    match s.slot with
    | some a => some { s with slot := none, taken := s.taken ++ [a] }
    | none => none
  | .discard =>
    match s.slot with
    | some a => some { s with slot := none, discarded := s.discarded ++ [a] }
    | none => none

/-- What was put is taken, discarded or still there. -/
def Balanced (s : OneSlot α) : Prop :=
  s.put.Perm (s.taken ++ s.discarded ++ s.slot.toList)

variable {s t : OneSlot α} {label : SlotLabel α}

theorem Balanced.keep (balanced : s.Balanced) (next : s.step label = some t) : t.Balanced := by
  obtain ⟨slot, put, taken, discarded⟩ := s
  unfold Balanced at balanced ⊢
  cases label with
  | put a =>
    cases slot with
    | none =>
      obtain rfl := Option.some.inj next
      simpa using balanced.append_right [a]
    | some b => cases next
  | take =>
    cases slot with
    | none => cases next
    | some a =>
      obtain rfl := Option.some.inj next
      refine balanced.trans ?_
      simpa using (@List.perm_append_comm _ discarded [a]).append_left taken
  | discard =>
    cases slot with
    | none => cases next
    | some a =>
      obtain rfl := Option.some.inj next
      simpa using balanced

theorem balanced_of_run {allowed : OneSlot α → SlotLabel α → Prop} {labels : List (SlotLabel α)}
    (run : Run step allowed empty labels s) : s.Balanced := by
  have initial : (empty : OneSlot α).Balanced := List.Perm.refl []
  exact run.invariant initial fun _ _ _ balanced _ next => balanced.keep next

/-- Things that are put once each are taken once at most. -/
theorem Balanced.nodup_taken (balanced : s.Balanced) (once : s.put.Nodup) : s.taken.Nodup :=
  ((balanced.nodup_iff.mp once).sublist (List.sublist_append_left ..)).sublist
    (List.sublist_append_left ..)

/-- What is in the slot was put. -/
theorem Balanced.mem_put (balanced : s.Balanced) {a : α} (there : s.slot = some a) :
    a ∈ s.put := by
  apply balanced.mem_iff.mpr
  simp [there]

/-- What is taken was put. -/
theorem Balanced.subset (balanced : s.Balanced) : s.taken ⊆ s.put := fun _ member =>
  balanced.mem_iff.mpr (List.mem_append_left _ (List.mem_append_left _ member))

end OneSlot

end ExLibs.Math
