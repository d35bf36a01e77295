/-
# Loops with fuel

A loop takes turns until one returns. With fuel it is a function; it returns a result when some
amount of fuel is enough for it, and then every larger amount gives the same one.

A state leads to another when the loop goes on from there, so that a loop over a text is
described piece by piece. A loop returns if a measure decreases from turn to turn as far as it
comes, and never does once a turn changes nothing.
-/
import Mathlib.Data.Nat.Notation
import Mathlib.Logic.Relation
import Mathlib.Tactic.TypeStar

namespace ExLibs.Math

variable {State Result : Type*} {turn : State → Result ⊕ State} {s t u : State}
  {r r' : Result} {m n : ℕ}

/-- Take turns until one returns, or the fuel runs out. -/
def loop (turn : State → Result ⊕ State) : ℕ → State → Option Result
  | 0, _ => none
  | n + 1, s =>
    match turn s with
    | .inl r => some r
    | .inr t => loop turn n t

/-- The loop returns. -/
def Returns (turn : State → Result ⊕ State) (s : State) (r : Result) : Prop :=
  ∃ n, loop turn n s = some r

/-- The loop goes on from the second state as from the first. -/
def Leads (turn : State → Result ⊕ State) (s t : State) : Prop :=
  ∃ k, ∀ n, loop turn (n + k) s = loop turn n t

theorem loop_mono (returns : loop turn n s = some r) : loop turn (n + m) s = some r := by
  induction n generalizing s with
  | zero => cases returns
  | succ n ih =>
    rw [Nat.succ_add]
    unfold loop at returns ⊢
    cases turned : turn s with
    | inl r => rw [turned] at returns; exact returns
    | inr t => rw [turned] at returns; exact ih returns

namespace Returns

/-- A loop returns one result. -/
theorem unique (first : Returns turn s r) (second : Returns turn s r') : r = r' := by
  obtain ⟨n, first⟩ := first
  obtain ⟨m, second⟩ := second
  have both := loop_mono (m := m) first
  rw [Nat.add_comm, loop_mono (m := n) second] at both
  exact (Option.some.inj both).symm

theorem of_turn (turned : turn s = .inl r) : Returns turn s r := ⟨1, by rw [loop, turned]⟩

end Returns

namespace Leads

theorem refl (s : State) : Leads turn s s := ⟨0, fun _ => rfl⟩

theorem trans (first : Leads turn s t) (second : Leads turn t u) : Leads turn s u := by
  obtain ⟨k, first⟩ := first
  obtain ⟨l, second⟩ := second
  exact ⟨l + k, fun n => by rw [← Nat.add_assoc, first, second]⟩

theorem of_turn (turned : turn s = .inr t) : Leads turn s t :=
  ⟨1, fun n => by rw [loop, turned]⟩

/-- States from which the same turn is taken are as good as each other. -/
theorem of_same (same : turn s = turn t) : Leads turn s t := by
  refine ⟨0, fun n => ?_⟩
  cases n with
  | zero => rfl
  | succ n => rw [Nat.add_zero, loop, loop, same]

theorem returns (leads : Leads turn s t) (returns : Returns turn t r) : Returns turn s r := by
  obtain ⟨k, leads⟩ := leads
  obtain ⟨n, returns⟩ := returns
  exact ⟨n + k, (leads n).trans returns⟩

/-- The loop returns from the one state what it returns from the other. -/
theorem returns_iff (leads : Leads turn s t) : Returns turn s r ↔ Returns turn t r := by
  refine ⟨fun ⟨n, returns⟩ => ?_, leads.returns⟩
  obtain ⟨k, leads⟩ := leads
  exact ⟨n, by rw [← leads n, loop_mono returns]⟩

end Leads

/-- The loop comes to a state. -/
def Reaches (turn : State → Result ⊕ State) : State → State → Prop :=
  Relation.ReflTransGen fun s t => turn s = .inr t

theorem Reaches.leads (reaches : Reaches turn s t) : Leads turn s t := by
  induction reaches with
  | refl => exact .refl s
  | tail _ turned ih => exact ih.trans (.of_turn turned)

/-- What every turn keeps holds wherever the loop comes. -/
theorem Reaches.invariant {Inv : State → Prop} (reaches : Reaches turn s t) (initial : Inv s)
    (keep : ∀ t u, Inv t → turn t = .inr u → Inv u) : Inv t := by
  induction reaches with
  | refl => exact initial
  | tail _ turned ih => exact keep _ _ ih turned

/-- A loop that returns comes to a turn that does. -/
theorem Returns.exists_reaches (returns : Returns turn s r) :
    ∃ t, Reaches turn s t ∧ turn t = .inl r := by
  obtain ⟨n, returns⟩ := returns
  induction n generalizing s with
  | zero => cases returns
  | succ n ih =>
    unfold loop at returns
    cases turned : turn s with
    | inl r' =>
      rw [turned] at returns
      exact ⟨s, .refl, turned.trans (congrArg _ (Option.some.inj returns))⟩
    | inr t =>
      rw [turned] at returns
      obtain ⟨u, reaches, last⟩ := ih returns
      exact ⟨u, .head turned reaches, last⟩

/-- A loop whose turn changes nothing never returns. -/
theorem not_returns_of_turn_self (same : turn s = .inr s) : ¬ Returns turn s r := by
  rintro ⟨n, returns⟩
  induction n with
  | zero => cases returns
  | succ n ih =>
    rw [loop, same] at returns
    exact ih returns

/-- A loop returns if a measure decreases at every turn that it comes to. -/
theorem exists_returns_of_measure (measure : State → ℕ)
    (decreases : ∀ t u, Reaches turn s t → turn t = .inr u → measure u < measure t) :
    ∃ r, Returns turn s r := by
  induction size : measure s using Nat.strongRecOn generalizing s with
  | ind n ih =>
    cases turned : turn s with
    | inl r => exact ⟨r, .of_turn turned⟩
    | inr t =>
      have less : measure t < n := size ▸ decreases s t .refl turned
      obtain ⟨r, returns⟩ := ih (measure t) less
        (fun u v reaches => decreases u v (.head turned reaches)) rfl
      exact ⟨r, (Leads.of_turn turned).returns returns⟩

end ExLibs.Math
