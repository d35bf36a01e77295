/-
# Copying into arrays

`memcpy` replaces the front of an array and leaves what is behind it. A string that is
copied so, without a terminator, and read back up to the first zero, is followed by what a
longer string has left there. An array that is only written in this way holds the longest
string's worth of characters, with zeros behind them.
-/
import Mathlib.Data.List.TakeWhile

namespace ExLibs.Math

variable {α : Type*}

/-- Copy a list over the front of an array. -/
def memcpy (array source : List α) : List α := source ++ array.drop source.length

@[simp]
theorem take_memcpy (array source : List α) : (memcpy array source).take source.length = source :=
  List.take_left

theorem length_memcpy {array source : List α} (fits : source.length ≤ array.length) :
    (memcpy array source).length = array.length := by
  rw [memcpy, List.length_append, List.length_drop]
  omega

section Strings

variable [Zero α] {array source : List α} {length : ℕ}

/-- The first `length` elements are not zero, and the rest are. -/
structure FilledTo (array : List α) (length : ℕ) : Prop where
  within : length ≤ array.length
  front : ∀ a ∈ array.take length, a ≠ 0
  rest : ∀ a ∈ array.drop length, a = 0

theorem filledTo_replicate (size : ℕ) : FilledTo (List.replicate size (0 : α)) 0 :=
  ⟨Nat.zero_le _, nofun, fun _ member => List.eq_of_mem_replicate member⟩

/-- A string copied into a filled array fills it to the longer of the two. -/
theorem FilledTo.memcpy (filled : FilledTo array length) (fits : source.length ≤ array.length)
    (proper : ∀ a ∈ source, a ≠ 0) :
    FilledTo (memcpy array source) (max length source.length) := by
  have copied := length_memcpy fits
  rcases le_total length source.length with longest | shorter
  · rw [max_eq_right longest]
    refine ⟨copied ▸ fits, by rwa [take_memcpy], fun a member => ?_⟩
    rw [Math.memcpy, List.drop_left] at member
    exact filled.rest a (List.drop_subset_drop_left array longest member)
  · rw [max_eq_left shorter]
    obtain ⟨more, rfl⟩ := Nat.exists_eq_add_of_le shorter
    refine ⟨copied ▸ filled.within, fun a member => ?_, fun a member => ?_⟩
    · rw [Math.memcpy, List.take_length_add_append, List.mem_append, List.take_drop] at member
      rcases member with copied | kept
      · exact proper a copied
      · exact filled.front a (List.mem_of_mem_drop kept)
    · rw [Math.memcpy, List.drop_length_add_append, List.drop_drop] at member
      exact filled.rest a member

variable [DecidableEq α]

/-- What stands before the first zero. -/
def terminated (array : List α) : List α := array.takeWhile (· ≠ 0)

/-- Reading a filled array up to the first zero reads what fills it. -/
theorem FilledTo.terminated_eq (filled : FilledTo array length) :
    terminated array = array.take length := by
  have behind : (array.drop length).takeWhile (· ≠ 0) = [] := by
    cases rest : array.drop length with
    | nil => rfl
    | cons a rest' =>
      have zero := filled.rest a (rest ▸ List.mem_cons_self)
      rw [List.takeWhile_cons_of_neg (by simp [zero])]
  calc terminated array
      = (array.take length ++ array.drop length).takeWhile (· ≠ 0) := by
        rw [List.take_append_drop, terminated]
    _ = array.take length := by
        rw [List.takeWhile_append_of_pos fun a member => decide_eq_true (filled.front a member),
          behind, List.append_nil]

/-- A string copied into a filled array reads back exactly if nothing longer is in it. -/
theorem FilledTo.terminated_memcpy_iff (filled : FilledTo array length)
    (fits : source.length ≤ array.length) (proper : ∀ a ∈ source, a ≠ 0) :
    terminated (Math.memcpy array source) = source ↔ length ≤ source.length := by
  rw [(filled.memcpy fits proper).terminated_eq]
  constructor
  · intro same
    have lengths := congrArg List.length same
    rw [List.length_take, length_memcpy fits] at lengths
    have within := filled.within
    omega
  · intro longest
    rw [max_eq_right longest, take_memcpy]

end Strings

end ExLibs.Math
