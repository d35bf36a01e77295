/-
# Ledgers of resources

A ledger lists what a program acquires and what it releases, in order. A resource goes by the
variable that holds it, so that acquiring into a variable that still holds something loses what
it holds, and releasing from one that holds nothing releases something twice. A ledger is
settled when neither happens to any variable and all of them are empty at its end: everything
acquired has been released exactly once.

A system keeps a ledger with its steps. If a state tells which variables are to hold something,
then the ledger of a run to a state where none is to is settled exactly if each step has handed
the variables on as they are to be.
-/
import Mathlib.Data.Finset.Basic
import Mathlib.Data.Finset.Lattice.Lemmas
import ExLibs.Math.Transition

namespace ExLibs.Math

variable {Resource State Label : Type*}

/-- An entry of a ledger. -/
inductive Entry (Resource : Type*)
  | acquire (r : Resource)
  | release (r : Resource)
  deriving DecidableEq

section Play

variable [DecidableEq Resource] {held held' after : Finset Resource}
  {front back ledger : List (Entry Resource)}

/-- The variables that hold something after a ledger, if nothing is lost or released twice. -/
def play : Finset Resource → List (Entry Resource) → Option (Finset Resource)
  | held, [] => some held
  | held, .acquire r :: later => if r ∈ held then none else play (insert r held) later
  | held, .release r :: later => if r ∈ held then play (held.erase r) later else none

/-- Everything acquired is released exactly once. -/
def Settled (ledger : List (Entry Resource)) : Prop := play ∅ ledger = some ∅

instance (ledger : List (Entry Resource)) : Decidable (Settled ledger) :=
  inferInstanceAs (Decidable (play ∅ ledger = some ∅))

theorem play_append :
    play held (front ++ back) = (play held front).bind fun held => play held back := by
  induction front generalizing held with
  | nil => rfl
  | cons entry front ih =>
    cases entry with
    | acquire r =>
      simp only [List.cons_append, play]
      split
      · rfl
      · exact ih
    | release r =>
      simp only [List.cons_append, play]
      split
      · exact ih
      · rfl

/-- What is acquired last is held. -/
theorem mem_of_acquire {r : Resource} (played : play held [.acquire r] = some after) :
    r ∈ after := by
  simp only [play, Option.ite_none_left_eq_some, Option.some.injEq] at played
  exact played.2 ▸ Finset.mem_insert_self r held

/-- A variable that holds nothing and is not acquired into cannot be released. -/
theorem release_notMem_of_play {r : Resource} (played : play held ledger = some after)
    (empty : r ∉ held) (kept : .acquire r ∉ ledger) : .release r ∉ ledger := by
  induction ledger generalizing held with
  | nil => exact nofun
  | cons entry ledger ih =>
    obtain ⟨other, keeps⟩ := List.ne_and_not_mem_of_not_mem_cons kept
    cases entry with
    | acquire r' =>
      have differs : r ≠ r' := fun same => other (congrArg _ same)
      simp only [play, Option.ite_none_left_eq_some] at played
      have later := ih played.2 (by simp [differs, empty]) keeps
      exact List.not_mem_cons_of_ne_of_not_mem nofun later
    | release r' =>
      simp only [play, Option.ite_none_right_eq_some] at played
      have differs : r ≠ r' := fun same => empty (same ▸ played.1)
      have later := ih played.2 (fun member => empty (Finset.mem_of_mem_erase member)) keeps
      exact List.not_mem_cons_of_ne_of_not_mem (fun same => differs (Entry.release.inj same)) later

/-- A ledger that releases a variable twice is not played to its end. -/
theorem play_of_release_twice {r : Resource} (again : .release r ∈ back)
    (kept : .acquire r ∉ back) : play held (front ++ .release r :: back) = none := by
  refine Option.eq_none_iff_forall_ne_some.mpr fun after played => ?_
  obtain ⟨before, -, played⟩ := Option.bind_eq_some_iff.mp (play_append.symm.trans played)
  simp only [play, Option.ite_none_right_eq_some] at played
  exact release_notMem_of_play played.2 (Finset.notMem_erase r before) kept again

/-- Variables that a ledger is not about keep what they hold. -/
theorem play_union {apart : Finset Resource} (played : play held ledger = some after)
    (others : ∀ r ∈ apart, .acquire r ∉ ledger ∧ .release r ∉ ledger) :
    play (held ∪ apart) ledger = some (after ∪ apart) := by
  induction ledger generalizing held with
  | nil =>
    obtain rfl := Option.some.inj played
    rfl
  | cons entry ledger ih =>
    have later : ∀ r ∈ apart, .acquire r ∉ ledger ∧ .release r ∉ ledger := fun r member =>
      ⟨List.not_mem_of_not_mem_cons (others r member).1,
        List.not_mem_of_not_mem_cons (others r member).2⟩
    cases entry with
    | acquire r =>
      have other : r ∉ apart := fun member => (others r member).1 List.mem_cons_self
      simp only [play, Option.ite_none_left_eq_some] at played ⊢
      refine ⟨by simp [played.1, other], ?_⟩
      rw [← Finset.insert_union]
      exact ih played.2 later
    | release r =>
      have other : r ∉ apart := fun member => (others r member).2 List.mem_cons_self
      simp only [play, Option.ite_none_right_eq_some] at played ⊢
      refine ⟨Finset.mem_union_left _ played.1, ?_⟩
      rw [Finset.erase_union_distrib, Finset.erase_eq_of_notMem other]
      exact ih played.2 later

/-- A settled ledger leaves the variables that it is not about alone. -/
theorem Settled.play_eq (settled : Settled ledger)
    (others : ∀ r ∈ held, .acquire r ∉ ledger ∧ .release r ∉ ledger) :
    play held ledger = some held := by
  have whole := play_union settled others
  rwa [Finset.empty_union] at whole

/-- What the variables hold after a ledger tells what they held before. -/
theorem play_injective (first : play held ledger = some after)
    (second : play held' ledger = some after) : held = held' := by
  induction ledger generalizing held held' with
  | nil => exact (Option.some.inj first).trans (Option.some.inj second).symm
  | cons entry ledger ih =>
    cases entry with
    | acquire r =>
      simp only [play, Option.ite_none_left_eq_some] at first second
      have same := congrArg (Finset.erase · r) (ih first.2 second.2)
      simpa only [Finset.erase_insert first.1, Finset.erase_insert second.1] using same
    | release r =>
      simp only [play, Option.ite_none_right_eq_some] at first second
      have same := congrArg (insert r) (ih first.2 second.2)
      simpa only [Finset.insert_erase first.1, Finset.insert_erase second.1] using same

/-- Entries that hand on what is to be held keep a ledger in order, and do not mend one. -/
theorem play_append_eq_some_iff {start : Finset Resource} (hands : play held back = some after) :
    play start (front ++ back) = some after ↔ play start front = some held := by
  rw [play_append, Option.bind_eq_some_iff]
  constructor
  · rintro ⟨before, earlier, played⟩
    rwa [play_injective played hands] at earlier
  · intro agrees
    exact ⟨held, agrees, hands⟩

end Play

/-- The steps of a system, with the ledger that they keep. -/
def booked (step : State → Label → Option State)
    (entries : State → Label → List (Entry Resource)) :
    State × List (Entry Resource) → Label → Option (State × List (Entry Resource))
  | (s, ledger), a => (step s a).map fun t => (t, ledger ++ entries s a)

section Booked

variable {step : State → Label → Option State}
  {entries : State → Label → List (Entry Resource)} (allowed : State → Label → Prop)
  {start : State} {labels : List Label} {s : State × List (Entry Resource)}

theorem run_of_booked (run : Run (booked step entries) Free (start, []) labels s) :
    Run step Free start labels s.1 := by
  induction run with
  | nil => exact .nil
  | snoc _ permitted recorded ih =>
    obtain ⟨t, next, rfl⟩ := Option.map_eq_some_iff.mp recorded
    exact .snoc ih permitted next

/-- The ledger of a state agrees with what the variables are to hold there. -/
def Agrees [DecidableEq Resource] (held : State → Finset Resource)
    (s : State × List (Entry Resource)) : Prop := play ∅ s.2 = some (held s.1)

/-- The ledger of a run that ends with nothing held is settled if and only if every step was
allowed, when an allowed step hands on what the variables are to hold, and any other spoils one
of them. A dead state takes no further step, and what it holds does not matter. -/
theorem settled_iff_allowed [DecidableEq Resource] {Dead : State → Prop}
    {held : State → Finset Resource} (stuck : ∀ s a, Dead s → step s a = none)
    (initial : held start = ∅)
    (hands : ∀ labels s a t, Run step Free start labels s → allowed s a → step s a = some t →
      ¬ Dead t → play (held s) (entries s a) = some (held t))
    (spoils : ∀ s a t before, ¬ allowed s a → step s a = some t → ¬ Dead t →
      play before (entries s a) ≠ some (held t))
    (run : Run (booked step entries) Free (start, []) labels s) (alive : ¬ Dead s.1)
    (ends : held s.1 = ∅) :
    Settled s.2 ↔ Run (booked step entries) (fun s a => allowed s.1 a) (start, []) labels s := by
  have survives : Run (booked step entries)
      (fun s a => ∀ t, booked step entries s a = some t → ¬ Dead t.1) (start, []) labels s := by
    refine run.avoids (fun s a dead => ?_) alive
    rw [booked, stuck s.1 a dead, Option.map_none]
  have begins : Agrees held (start, []) := congrArg some initial.symm
  have settled : Settled s.2 ↔ Agrees held s := by rw [Settled, Agrees, ends]
  rw [settled]
  -- the ledger agrees with the state all along the run
  refine survives.good_iff_of_held begins ?_
  rintro labels ⟨s, ledger⟩ a ⟨t, ledger'⟩ earlier lives recorded
  obtain ⟨t', next, same⟩ := Option.map_eq_some_iff.mp recorded
  obtain ⟨rfl, rfl⟩ := Prod.mk.inj same
  have alive := lives _ recorded
  simp only [Agrees, play_append, Option.bind_eq_some_iff]
  constructor
  · rintro ⟨before, earlier', played⟩
    by_cases permitted : allowed s a
    · have handed := hands labels s a t' (run_of_booked earlier.free) permitted next alive
      rw [play_injective played handed] at earlier'
      exact ⟨earlier', permitted⟩
    · exact absurd played (spoils s a t' before permitted next alive)
  · rintro ⟨agrees, permitted⟩
    exact ⟨_, agrees, hands labels s a t' (run_of_booked earlier.free) permitted next alive⟩

end Booked

end ExLibs.Math
