/-
# Lists that are read up to a terminator

What is read of a list ends before its first terminator. It begins with what is read of another
list exactly if the whole list does. When no character is less than the terminator, comparing
what is read of two lists gives the order of the lists, unless the same is read of both of them.
-/
import Mathlib.Data.List.Infix
import Mathlib.Data.List.TakeWhile
import Mathlib.Order.Lattice

namespace ExLibs.Math

section Reading

variable {α : Type*} [DecidableEq α] {stop c : α} {s x y : List α}

/-- What stands before the first terminator. -/
def upTo (stop : α) (s : List α) : List α := s.takeWhile fun c => c ≠ stop

@[simp] theorem upTo_nil : upTo stop [] = [] := rfl

@[simp] theorem upTo_cons_self : upTo stop (stop :: s) = [] :=
  List.takeWhile_cons_of_neg (by simp)

theorem upTo_cons (ne : c ≠ stop) : upTo stop (c :: s) = c :: upTo stop s :=
  List.takeWhile_cons_of_pos (by simp [ne])

theorem upTo_prefix : upTo stop s <+: s := List.takeWhile_prefix _

/-- Nothing is left out of a list without terminators. -/
theorem upTo_of_notMem (absent : stop ∉ s) : upTo stop s = s :=
  List.takeWhile_eq_self_iff.mpr fun _ member =>
    decide_eq_true fun same => absent (same ▸ member)

/-- What is read of a list cannot be told from the list by its beginning. -/
theorem upTo_prefix_upTo_iff : upTo stop x <+: upTo stop y ↔ upTo stop x <+: y := by
  refine ⟨fun begins => begins.trans upTo_prefix, fun begins => ?_⟩
  induction x generalizing y with
  | nil => exact List.nil_prefix
  | cons c x ih =>
    by_cases ends : c = stop
    · rw [ends, upTo_cons_self]
      exact List.nil_prefix
    · rw [upTo_cons ends] at begins ⊢
      cases y with
      | nil => cases List.prefix_nil.mp begins
      | cons c' y =>
        obtain ⟨rfl, later⟩ := List.cons_prefix_cons.mp begins
        rw [upTo_cons ends]
        exact List.cons_prefix_cons.mpr ⟨rfl, ih later⟩

end Reading

section Order

variable {α : Type*} [LinearOrder α] {stop : α} {x y : List α}

/-- Compare characters from the left, and then lengths. -/
def comparison : List α → List α → ℤ
  | [], [] => 0
  | [], _ :: _ => -1
  | _ :: _, [] => 1
  | c :: x, c' :: y => if c < c' then -1 else if c' < c then 1 else comparison x y

theorem comparison_eq_zero_iff : comparison x y = 0 ↔ x = y := by
  induction x generalizing y with
  | nil => cases y <;> simp [comparison]
  | cons c x ih =>
    cases y with
    | nil => simp [comparison]
    | cons c' y =>
      rw [comparison, List.cons.injEq]
      rcases lt_trichotomy c c' with less | rfl | more
      · simp [less, less.ne]
      · simp [ih]
      · simp [more, more.not_gt, more.ne']

/-- Comparing what is read of two lists gives their order, unless only what is read is the
same. -/
theorem comparison_upTo_iff (least : ∀ c, stop ≤ c) :
    comparison (upTo stop x) (upTo stop y) = comparison x y ↔
      (upTo stop x = upTo stop y → x = y) := by
  induction x generalizing y with
  | nil =>
    cases y with
    | nil => simp only [forall_const, upTo_nil]
    | cons c' y =>
      by_cases ends : c' = stop
      · simp [ends, comparison]
      · simp [upTo_cons ends, comparison]
  | cons c x ih =>
    cases y with
    | nil =>
      by_cases ends : c = stop
      · simp [ends, comparison]
      · simp [upTo_cons ends, comparison]
    | cons c' y =>
      by_cases ends : c = stop
      · subst ends
        by_cases ends' : c' = c
        · subst ends'
          simp only [upTo_cons_self, comparison, lt_irrefl, if_false, List.cons.injEq, true_and,
            forall_const]
          rw [eq_comm, comparison_eq_zero_iff]
        · -- of the first list nothing is read, and its terminator is the smaller character
          have less : c < c' := lt_of_le_of_ne (least c') (Ne.symm ends')
          simp [upTo_cons ends', comparison, less]
      · by_cases ends' : c' = stop
        · subst ends'
          have less : c' < c := lt_of_le_of_ne (least c) (Ne.symm ends)
          simp [upTo_cons ends, comparison, less, less.not_gt]
        · rw [upTo_cons ends, upTo_cons ends']
          simp only [comparison, List.cons.injEq]
          rcases lt_trichotomy c c' with less | rfl | more
          · simp [less, less.ne]
          · simpa using ih
          · simp [more, more.not_gt, more.ne']

end Order

end ExLibs.Math
