/-
# Cursors

A cursor goes over a number of rows, one after the other, and off the last one. Each time that
it is advanced it tells which row it is on now, if it is on one. Until it is off the end it has
then told the rows in order, each of them once, and when it is off the end all of them.
-/
import Mathlib.Data.List.TakeWhile
import Mathlib.Data.Nat.Notation

namespace ExLibs.Math

variable {n k : ℕ} {told : List (Option ℕ)} {row : Option ℕ}

/-- The row that a cursor over `n` rows comes to. On no row it is before the first one. -/
def advance (n : ℕ) (row : Option ℕ) : Option ℕ :=
  let next := match row with
    | none => 0
    | some k => k + 1
  if next < n then some next else none

/-- Up to the first time that a cursor has told of no row, it has told of the rows in order, each
of them once; and of all of them, if there is such a time. -/
def InOrder (n : ℕ) (told : List (Option ℕ)) : Prop :=
  ∃ k ≤ n, told.takeWhile Option.isSome = (List.range k).map some ∧ (none ∈ told → k = n)

theorem inOrder_nil (n : ℕ) : InOrder n [] := ⟨0, n.zero_le, rfl, nofun⟩

/-- After the first rows comes the next one. -/
theorem advance_range (n k : ℕ) :
    advance n ((List.range k).map some).getLast?.join = if k < n then some k else none := by
  cases k with
  | zero => rfl
  | succ k =>
    rw [List.range_succ, List.map_append]
    simp [advance]

/-- Off the end nothing matters. -/
theorem InOrder.concat_of_mem (inOrder : InOrder n told) (ended : none ∈ told) :
    InOrder n (told ++ [row]) := by
  obtain ⟨k, le, visits, all⟩ := inOrder
  refine ⟨k, le, ?_, fun _ => all ended⟩
  rw [List.takeWhile_append, if_neg, visits]
  intro whole
  have every := List.takeWhile_eq_self_iff.mp (List.takeWhile_prefix _ |>.eq_of_length whole)
  exact nomatch every none ended

/-- A cursor that is advanced from the row that it has told of last goes on in order. -/
theorem InOrder.concat_advance (inOrder : InOrder n told) :
    InOrder n (told ++ [advance n told.getLast?.join]) := by
  by_cases ended : none ∈ told
  · exact inOrder.concat_of_mem ended
  obtain ⟨k, le, visits, -⟩ := inOrder
  have going : told = (List.range k).map some := by
    rw [← visits, List.takeWhile_eq_self_iff.mpr]
    intro row member
    exact Option.isSome_iff_ne_none.mpr fun none => ended (none ▸ member)
  rw [going, advance_range]
  split
  · rename_i more
    have longer : (List.range k).map some ++ [some k] = (List.range (k + 1)).map some := by
      rw [List.range_succ, List.map_append, List.map_singleton]
    refine ⟨k + 1, more, ?_, fun member => ?_⟩
    · rw [longer, List.takeWhile_eq_self_iff.mpr]
      simp
    · simp at member
  · rename_i last
    refine ⟨k, le, ?_, fun _ => le.antisymm (not_lt.mp last)⟩
    rw [List.takeWhile_append_of_pos (by simp)]
    simp

end ExLibs.Math
