/-
# Records

A record lists what has happened, in order. It is lawful if each of its entries is permitted by
those before it, so that what may happen next depends on all that has happened. The labels of a
run are a record, too: a property that a step breaks exactly when the labels before do not permit
it holds at the end of a run exactly when its labels are lawful.
-/
import Mathlib.Data.List.Induction
import Mathlib.Tactic.TypeStar
import ExLibs.Math.Transition

namespace ExLibs.Math

variable {Entry : Type*} {permits : List Entry → Entry → Prop}
  {front back record : List Entry} {entry : Entry}

/-- Each entry of a record is permitted by those before it. -/
inductive Lawful (permits : List Entry → Entry → Prop) : List Entry → Prop
  | nil : Lawful permits []
  | snoc {front : List Entry} {entry : Entry} (earlier : Lawful permits front)
      (permitted : permits front entry) : Lawful permits (front ++ [entry])

theorem lawful_concat :
    Lawful permits (front ++ [entry]) ↔ Lawful permits front ∧ permits front entry := by
  constructor
  · intro lawful
    generalize whole : front ++ [entry] = record at lawful
    cases lawful with
    | nil => exact absurd whole (List.append_ne_nil_of_right_ne_nil _ (List.cons_ne_nil _ _))
    | snoc earlier permitted =>
      obtain ⟨rfl, same⟩ := List.append_inj' whole rfl
      obtain rfl := List.singleton_inj.mp same
      exact ⟨earlier, permitted⟩
  · rintro ⟨earlier, permitted⟩
    exact .snoc earlier permitted

theorem Lawful.of_append (lawful : Lawful permits (front ++ back)) : Lawful permits front := by
  induction back using List.reverseRecOn with
  | nil => rwa [List.append_nil] at lawful
  | append_singleton back entry ih =>
    rw [← List.append_assoc] at lawful
    exact ih (lawful_concat.mp lawful).1

/-- An entry is permitted wherever it stands. -/
theorem Lawful.permitted (lawful : Lawful permits (front ++ entry :: back)) :
    permits front entry := by
  rw [List.append_cons] at lawful
  exact (lawful_concat.mp lawful.of_append).2

/-- Entries that are permitted at any time may be added. -/
theorem Lawful.append (lawful : Lawful permits front)
    (always : ∀ entry ∈ back, ∀ before, permits before entry) : Lawful permits (front ++ back) := by
  induction back using List.reverseRecOn with
  | nil => rwa [List.append_nil]
  | append_singleton back entry ih =>
    rw [← List.append_assoc]
    have earlier := ih fun entry member => always entry (List.mem_append_left _ member)
    exact .snoc earlier (always entry (by simp) _)

/-- A record that is lawful so far is lawful with two more entries if each of them is permitted. -/
theorem lawful_concat_two {first second : Entry} :
    Lawful permits (record ++ [first, second]) ↔
      Lawful permits record ∧ permits record first ∧ permits (record ++ [first]) second := by
  rw [List.append_cons, lawful_concat, lawful_concat, and_assoc]

/-- Either a record has no entry of a kind, or there is the last of them, and what has happened
since. -/
theorem exists_last (kind : Entry → Prop) (record : List Entry) :
    (∀ entry ∈ record, ¬ kind entry) ∨ ∃ front entry back, record = front ++ entry :: back ∧
      kind entry ∧ ∀ other ∈ back, ¬ kind other := by
  induction record using List.reverseRecOn with
  | nil => exact .inl nofun
  | append_singleton record entry ih =>
    by_cases here : kind entry
    · exact .inr ⟨record, entry, [], rfl, here, nofun⟩
    · have alone : ∀ other ∈ [entry], ¬ kind other := List.forall_mem_singleton.mpr here
      rcases ih with none | ⟨front, last, back, rfl, found, since⟩
      · exact .inl (List.forall_mem_append.mpr ⟨none, alone⟩)
      · refine .inr ⟨front, last, back ++ [entry], ?_, found, List.forall_mem_append.mpr
          ⟨since, alone⟩⟩
        rw [List.append_assoc, List.cons_append]

section Runs

variable {State Label : Type*} {step : State → Label → Option State} {start s : State}
  {labels : List Label} {lawful : List Label → Label → Prop}

/-- When each step of a run keeps `Good` exactly if the labels before it permit it, a run ends in
a good state exactly if its labels are lawful. -/
theorem Run.good_iff_lawful {Good : State → Prop} (initial : Good start)
    (exactly : ∀ labels s a t, Run step Free start labels s → step s a = some t →
      (Good t ↔ Good s ∧ lawful labels a))
    (run : Run step Free start labels s) : Good s ↔ Lawful lawful labels := by
  induction run with
  | nil => exact ⟨fun _ => .nil, fun _ => initial⟩
  | snoc earlier _ next ih => rw [exactly _ _ _ _ earlier next, ih, lawful_concat]

end Runs

end ExLibs.Math
