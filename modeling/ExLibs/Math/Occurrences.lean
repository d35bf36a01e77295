/-
# Occurrences of a list in another

Occurrences lie apart when each ends before the next one begins. Cutting a list at a separator
takes as many occurrences apart from each other as there can be, since the first one ends no
later than any that could be taken in its place. Substitution is one pass over a list; it puts
what it substitutes between the same parts.
-/
import Mathlib.Order.Bounds.Basic
import Mathlib.Tactic.Ring
import ExLibs.Math.Cut

namespace ExLibs.Math

variable {α : Type*} {d b s front back tail : List α} {pieces : List (List α)}
  {positions : List ℕ} {idx p : ℕ} {c c' : α}

/-- Positions at which a list occurs in another, each behind the ends of those before it. -/
structure Apart (d s : List α) (positions : List ℕ) : Prop where
  occurs : ∀ p ∈ positions, d <+: s.drop p
  behind : positions.Pairwise fun p q => p + d.length ≤ q

/-- From left to right, put the one list in place of the other and pass it, and copy what stands
elsewhere. The number is of what is still to be passed. -/
def substitute [DecidableEq α] (d b : List α) : ℕ → List α → List α
  | _, [] => []
  | skip + 1, _ :: s => substitute d b skip s
  | 0, c :: s =>
    if d <+: c :: s then b ++ substitute d b (d.length - 1) s else c :: substitute d b 0 s

namespace First

/-- Nothing occurs before the first occurrence. -/
theorem le_of_prefix (first : First d (s.drop idx) front back) (beyond : idx ≤ p)
    (occurs : d <+: s.drop p) : idx + front.length ≤ p := by
  obtain ⟨rest, whole⟩ := occurs
  have split : s.drop idx = (s.drop idx).take (p - idx) ++ d ++ rest := by
    rw [List.append_assoc, whole, ← Nat.add_sub_of_le beyond, ← List.drop_drop,
      Nat.add_sub_cancel_left, List.take_append_drop]
  have least := first.least _ _ split
  have short := List.length_take_le (p - idx) (s.drop idx)
  omega

/-- Behind a character that is not part of it the first occurrence stays the first. -/
theorem of_cons (first : First d (c :: s) (c' :: front) back) :
    c = c' ∧ First d s front back ∧ ¬ d <+: c :: s := by
  obtain ⟨rfl, whole⟩ := List.cons.inj first.whole
  refine ⟨rfl, ⟨whole, fun front' back' whole' => ?_⟩, fun ⟨rest, whole'⟩ => ?_⟩
  · have least := first.least (c :: front') back' (by rw [whole']; rfl)
    exact Nat.le_of_succ_le_succ least
  · have least := first.least [] rest whole'.symm
    cases least

end First

section Greatest

/-- There are no more occurrences apart from each other than parts before the last one. -/
theorem Cut.length_le (cut : Cut d (s.drop idx) pieces tail) (apart : Apart d s positions)
    (beyond : ∀ p ∈ positions, idx ≤ p) : positions.length ≤ pieces.length := by
  generalize rest : s.drop idx = text at cut
  -- the first of the occurrences is given up for the one that the cut takes
  induction cut generalizing idx positions with
  | last none =>
    subst rest
    cases positions with
    | nil => exact Nat.zero_le _
    | cons p positions =>
      refine absurd ?_ none
      have occurs := apart.occurs p List.mem_cons_self
      rw [← Nat.add_sub_of_le (beyond p List.mem_cons_self), ← List.drop_drop] at occurs
      exact occurs.isInfix.trans (List.drop_suffix _ _).isInfix
  | next first later ih =>
    subst rest
    cases positions with
    | nil => exact Nat.zero_le _
    | cons p positions =>
      have reached := first.le_of_prefix (beyond p List.mem_cons_self)
        (apart.occurs p List.mem_cons_self)
      obtain ⟨head, behind⟩ := List.pairwise_cons.mp apart.behind
      have others : Apart d s positions :=
        ⟨fun q member => apart.occurs q (List.mem_cons_of_mem _ member), behind⟩
      refine Nat.succ_le_succ (ih others (fun q member => ?_) first.drop_eq.2)
      have ends := head q member
      omega

/-- The occurrences at which a list is cut lie apart. -/
theorem Cut.exists_apart (cut : Cut d (s.drop idx) pieces tail) :
    ∃ positions, Apart d s positions ∧ (∀ p ∈ positions, idx ≤ p) ∧
      positions.length = pieces.length := by
  generalize rest : s.drop idx = text at cut
  induction cut generalizing idx with
  | last none => exact ⟨[], ⟨by simp, .nil⟩, by simp, rfl⟩
  | @next text front back tail pieces first later ih =>
    subst rest
    obtain ⟨at_first, behind⟩ := first.drop_eq
    obtain ⟨positions, apart, beyond, length⟩ := ih behind
    refine ⟨(idx + front.length) :: positions, ⟨fun p member => ?_, ?_⟩, fun p member => ?_, ?_⟩
    · rcases List.mem_cons.mp member with rfl | member
      · exact ⟨back, at_first.symm⟩
      · exact apart.occurs p member
    · exact List.pairwise_cons.mpr ⟨beyond, apart.behind⟩
    · rcases List.mem_cons.mp member with rfl | member
      · omega
      · have := beyond p member
        omega
    · rw [List.length_cons, List.length_cons, length]

/-- A list of one character is cut everywhere. -/
theorem cut_replicate (c : α) (n : ℕ) :
    Cut [c] (List.replicate n c) (List.replicate n []) [] := by
  induction n with
  | zero => exact .last fun occurs => List.cons_ne_nil _ _ (List.infix_nil.mp occurs)
  | succ n ih => exact .next ⟨rfl, fun _ _ _ => Nat.zero_le _⟩ ih

/-- Cutting takes the greatest number of occurrences that lie apart. -/
theorem Cut.isGreatest (cut : Cut d s pieces tail) :
    IsGreatest {k | ∃ positions, Apart d s positions ∧ positions.length = k} pieces.length := by
  have cut_at : Cut d (s.drop 0) pieces tail := cut
  constructor
  · obtain ⟨positions, apart, -, length⟩ := cut_at.exists_apart
    exact ⟨positions, apart, length⟩
  · rintro k ⟨positions, apart, rfl⟩
    exact cut_at.length_le apart fun p _ => Nat.zero_le p

end Greatest

section Substitution

/-- The length of the parts with something else between them. -/
theorem Cut.length_intercalate (cut : Cut d s pieces tail) (b : List α) :
    (b.intercalate (pieces ++ [tail])).length + pieces.length * d.length =
      s.length + pieces.length * b.length := by
  induction cut with
  | last none => simp
  | next first later ih =>
    rw [intercalate_cons_concat, first.whole]
    simp only [List.length_append, List.length_cons, Nat.add_mul, Nat.one_mul]
    omega

/-- There are no more parts before the last one than characters. -/
theorem Cut.length_pieces_le (nonempty : d ≠ []) (cut : Cut d s pieces tail) :
    pieces.length ≤ s.length := by
  have length := cut.length_intercalate []
  have part := Nat.le_mul_of_pos_right pieces.length (List.length_pos_iff.mpr nonempty)
  rw [List.length_nil, Nat.mul_zero] at length
  omega

variable [DecidableEq α]

theorem substitute_passed (passed : List α) :
    substitute d b passed.length (passed ++ s) = substitute d b 0 s := by
  induction passed with
  | nil => rfl
  | cons c passed ih => exact ih

/-- Where the list does not occur, nothing is substituted. -/
theorem substitute_of_lacks (lacks : ¬ d <:+: s) : substitute d b 0 s = s := by
  induction s with
  | nil => rfl
  | cons c s ih =>
    have not_here : ¬ d <+: c :: s := fun here => lacks here.isInfix
    have not_later : ¬ d <:+: s := fun later => lacks (later.trans (List.suffix_cons c s).isInfix)
    rw [substitute, if_neg not_here, ih not_later]

/-- What stands before the first occurrence is copied, and the occurrence passed. -/
theorem First.substitute_eq (nonempty : d ≠ []) (first : First d s front back) :
    substitute d b 0 s = front ++ b ++ substitute d b 0 back := by
  induction front generalizing s with
  | nil =>
    obtain ⟨c, d, rfl⟩ := List.exists_cons_of_ne_nil nonempty
    have whole : s = c :: (d ++ back) := first.whole
    rw [whole, substitute, if_pos ⟨back, rfl⟩, List.length_cons, Nat.add_sub_cancel,
      substitute_passed, List.nil_append]
  | cons c front ih =>
    cases s with
    | nil => cases first.whole
    | cons c' s =>
      obtain ⟨rfl, later, not_here⟩ := first.of_cons
      rw [substitute, if_neg not_here, ih later]
      rfl

/-- Substitution puts the list between the parts. -/
theorem Cut.substitute_eq (nonempty : d ≠ []) (cut : Cut d s pieces tail) :
    substitute d b 0 s = b.intercalate (pieces ++ [tail]) := by
  induction cut with
  | last none => rw [substitute_of_lacks none, List.nil_append, List.intercalate_singleton]
  | next first later ih =>
    rw [first.substitute_eq nonempty, ih, intercalate_cons_concat]

/-- One character is substituted wherever it stands. -/
theorem substitute_singleton (s : List α) :
    substitute [c] [c'] 0 s = s.map fun x => if x = c then c' else x := by
  induction s with
  | nil => rfl
  | cons x s ih =>
    have here : [c] <+: x :: s ↔ x = c := by
      rw [List.cons_prefix_cons]
      exact ⟨fun ⟨same, _⟩ => same.symm, fun same => ⟨same.symm, List.nil_prefix⟩⟩
    rw [substitute, List.map_cons]
    by_cases same : x = c
    · rw [if_pos (here.mpr same), if_pos same, ← ih]
      rfl
    · rw [if_neg (mt here.mp same), if_neg same, ih]

end Substitution

end ExLibs.Math
