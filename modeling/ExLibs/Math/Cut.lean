/-
# Cutting a list at a separator

The first occurrence of a separator in a list splits it into what stands before and what stands
behind, and a list is cut from left to right by cutting what stands behind again. The parts with
the separator between them make up the list, and none of them contains the separator.
-/
import Mathlib.Data.List.Infix
import Mathlib.Order.Lattice.Nat

namespace ExLibs.Math

variable {α : Type*} {d s front back tail piece : List α} {pieces : List (List α)}
  {idx : ℕ}

/-- What stands before the first occurrence of a separator, and behind it. -/
structure First (d s front back : List α) : Prop where
  whole : s = front ++ d ++ back
  least : ∀ front' back', s = front' ++ d ++ back' → front.length ≤ front'.length

/-- The parts of a list that is cut at a separator, with the last of them apart. -/
inductive Cut (d : List α) : List α → List (List α) → List α → Prop
  | last {s : List α} (none : ¬ d <:+: s) : Cut d s [] s
  | next {s front back tail : List α} {pieces : List (List α)} (first : First d s front back)
      (later : Cut d back pieces tail) : Cut d s (front :: pieces) tail

/-- A separator that occurs does so for a first time. -/
theorem exists_first (occurs : d <:+: s) : ∃ front back, First d s front back := by
  classical
  have some_length : ∃ n front back, s = front ++ d ++ back ∧ front.length = n := by
    obtain ⟨front, back, whole⟩ := occurs
    exact ⟨front.length, front, back, whole.symm, rfl⟩
  obtain ⟨front, back, whole, length⟩ := Nat.find_spec some_length
  refine ⟨front, back, whole, fun front' back' whole' => ?_⟩
  rw [length]
  exact Nat.find_min' some_length ⟨front', back', whole', rfl⟩

namespace First

/-- Nothing of a separator begins before its first occurrence. -/
theorem not_infix (first : First d s front back) (nonempty : d ≠ []) : ¬ d <:+: front := by
  rintro ⟨before, behind, rfl⟩
  have least := first.least before (behind ++ d ++ back) (by simp [first.whole])
  have positive := List.length_pos_iff.mpr nonempty
  simp only [List.length_append] at least
  omega

theorem length_lt (first : First d s front back) (nonempty : d ≠ []) :
    back.length < s.length := by
  have positive := List.length_pos_iff.mpr nonempty
  rw [first.whole, List.length_append, List.length_append]
  omega

/-- What stands at the first occurrence, and behind it. -/
theorem drop_eq (first : First d (s.drop idx) front back) :
    s.drop (idx + front.length) = d ++ back ∧
      s.drop (idx + front.length + d.length) = back := by
  have at_first : s.drop (idx + front.length) = d ++ back := by
    rw [← List.drop_drop, first.whole, List.append_assoc, List.drop_left]
  exact ⟨at_first, by rw [← List.drop_drop, at_first, List.drop_left]⟩

theorem dropInfix?_eq_some_iff [BEq α] [LawfulBEq α] :
    s.dropInfix? d = some (front, back) ↔ First d s front back := by
  rw [List.dropInfix?_eq_some_iff]
  constructor
  · rintro ⟨⟨d', whole, same⟩, least⟩
    obtain rfl := eq_of_beq same
    exact ⟨whole, fun front' back' whole' => least front' d' back' whole' same⟩
  · rintro ⟨whole, least⟩
    refine ⟨⟨d, whole, BEq.rfl⟩, fun front' d' back' whole' same => ?_⟩
    obtain rfl := eq_of_beq same
    exact least front' back' whole'

theorem dropInfix?_eq_none_iff [BEq α] [LawfulBEq α] : s.dropInfix? d = none ↔ ¬ d <:+: s := by
  constructor
  · intro none occurs
    obtain ⟨front, back, first⟩ := exists_first occurs
    cases none.symm.trans (dropInfix?_eq_some_iff.mpr first)
  · intro none
    cases found : s.dropInfix? d with
    | none => rfl
    | some parts =>
      have whole := (dropInfix?_eq_some_iff.mp found).whole
      exact absurd ⟨parts.1, parts.2, whole.symm⟩ none

end First

/-- Something stands between the first part and the others, of which there is a last one. -/
theorem intercalate_cons_concat (b : List α) :
    b.intercalate ((front :: pieces) ++ [tail]) = front ++ b ++ b.intercalate (pieces ++ [tail]) :=
  List.intercalate_cons_of_ne_nil
    (List.append_ne_nil_of_right_ne_nil _ (List.cons_ne_nil tail []))

namespace Cut

/-- Every list can be cut at a separator that is not empty. -/
theorem exists_of_ne_nil (nonempty : d ≠ []) (s : List α) : ∃ pieces tail, Cut d s pieces tail := by
  by_cases occurs : d <:+: s
  · obtain ⟨front, back, first⟩ := exists_first occurs
    have shorter := first.length_lt nonempty
    obtain ⟨pieces, tail, later⟩ := exists_of_ne_nil nonempty back
    exact ⟨front :: pieces, tail, .next first later⟩
  · exact ⟨[], s, .last occurs⟩
termination_by s.length

/-- The parts with the separator between them make up the list. -/
theorem intercalate_eq (cut : Cut d s pieces tail) : d.intercalate (pieces ++ [tail]) = s := by
  induction cut with
  | last none => exact List.intercalate_singleton
  | next first later ih =>
    rw [intercalate_cons_concat, ih, first.whole]

/-- No part contains the separator. -/
theorem not_infix (cut : Cut d s pieces tail) (nonempty : d ≠ [])
    (member : piece ∈ pieces ++ [tail]) : ¬ d <:+: piece := by
  induction cut with
  | last none =>
    obtain rfl := List.mem_singleton.mp member
    exact none
  | next first later ih =>
    rcases List.mem_cons.mp member with rfl | member
    · exact first.not_infix nonempty
    · exact ih member

end Cut

end ExLibs.Math
