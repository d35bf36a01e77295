/-
# Programs that share a mutex

Threads run programs that lock and unlock one mutex, shared or exclusively, and act on a state
in between; how a program goes on may depend on what an action answers. The mutex is not
recursive, so that a thread must not ask for it while it holds it, in whatever mode.

A program that keeps to this for every answer that it may get is disciplined, which is decided
along its structure. The rule is that threads with disciplined programs never ask for a mutex
that they hold, whatever the others do.
-/
import Mathlib.Data.List.Basic
import Mathlib.Logic.Function.Basic
import ExLibs.Math.Transition

namespace ExLibs.Math

inductive LockMode
  | shared
  | exclusive
  deriving DecidableEq

/-- A mutex: the thread that holds it exclusively, and those that share it. -/
structure SharedMutex where
  exclusive : Option ℕ
  readers : List ℕ

namespace SharedMutex

/-- A mutex that nobody holds. -/
def free : SharedMutex := ⟨none, []⟩

/-- The thread holds the mutex. -/
def Holds (m : SharedMutex) (a : ℕ) : Prop := m.exclusive = some a ∨ a ∈ m.readers

instance (m : SharedMutex) (a : ℕ) : Decidable (m.Holds a) :=
  inferInstanceAs (Decidable (m.exclusive = some a ∨ a ∈ m.readers))

/-- Acquire the mutex, or wait. -/
def lock (m : SharedMutex) (a : ℕ) : LockMode → Option SharedMutex
  | .shared => if m.exclusive = none then some { m with readers := a :: m.readers } else none
  | .exclusive =>
    if m.exclusive = none ∧ m.readers = [] then some { m with exclusive := some a } else none

/-- Release the mutex. -/
def unlock (m : SharedMutex) (a : ℕ) : SharedMutex :=
  if m.exclusive = some a then { m with exclusive := none }
  else { m with readers := m.readers.erase a }

/-- The mutex is held exclusively or shared, and shared once by each. -/
structure Sound (m : SharedMutex) : Prop where
  once : m.readers.Nodup
  apart : m.exclusive ≠ none → m.readers = []

variable {m n : SharedMutex} {a b : ℕ} {mode : LockMode}

theorem not_holds_free : ¬ free.Holds a := by
  rintro (exclusive | shared)
  · cases exclusive
  · cases shared

theorem sound_free : free.Sound := ⟨List.nodup_nil, fun _ => rfl⟩

theorem holds_lock_iff (locks : m.lock a mode = some n) : n.Holds b ↔ b = a ∨ m.Holds b := by
  cases mode with
  | shared =>
    simp only [lock, Option.ite_none_right_eq_some, Option.some.injEq] at locks
    obtain ⟨-, rfl⟩ := locks
    simp only [Holds, List.mem_cons]
    exact or_left_comm
  | exclusive =>
    simp only [lock, Option.ite_none_right_eq_some, Option.some.injEq] at locks
    obtain ⟨⟨nobody, none⟩, rfl⟩ := locks
    simp [Holds, nobody, none, eq_comm]

theorem Sound.lock (sound : m.Sound) (locks : m.lock a mode = some n) (outside : ¬ m.Holds a) :
    n.Sound := by
  cases mode with
  | shared =>
    simp only [SharedMutex.lock, Option.ite_none_right_eq_some, Option.some.injEq] at locks
    obtain ⟨nobody, rfl⟩ := locks
    exact ⟨List.nodup_cons.mpr ⟨fun member => outside (.inr member), sound.once⟩,
      fun held => absurd nobody held⟩
  | exclusive =>
    simp only [SharedMutex.lock, Option.ite_none_right_eq_some, Option.some.injEq] at locks
    obtain ⟨⟨-, none⟩, rfl⟩ := locks
    exact ⟨sound.once, fun _ => none⟩

theorem holds_unlock_iff (sound : m.Sound) (holds : m.Holds a) :
    (m.unlock a).Holds b ↔ b ≠ a ∧ m.Holds b := by
  by_cases exclusive : m.exclusive = some a
  · have none := sound.apart (by rw [exclusive]; nofun)
    simp [unlock, exclusive, Holds, none, eq_comm]
  · have shared := holds.resolve_left exclusive
    have nobody : m.exclusive = none := by
      by_contra held
      rw [sound.apart held] at shared
      cases shared
    simp [unlock, nobody, Holds, sound.once.mem_erase_iff]

theorem Sound.unlock (sound : m.Sound) : (m.unlock a).Sound := by
  unfold SharedMutex.unlock
  split_ifs
  · exact ⟨sound.once, fun held => absurd rfl held⟩
  · refine ⟨sound.once.erase a, fun held => ?_⟩
    rw [sound.apart held]
    rfl

end SharedMutex

/-- A program that uses a mutex. An action gives an answer, and the program goes on with it. -/
inductive LockProgram (Action : Type*) (Answer : Action → Type*)
  | done
  /-- The program breaks down. -/
  | fault
  | lock (mode : LockMode) (rest : LockProgram Action Answer)
  | unlock (rest : LockProgram Action Answer)
  | act (action : Action) (rest : Answer action → LockProgram Action Answer)

variable {Action : Type*} {Answer : Action → Type*} {Operation State Input : Type*}

/-- A program that asks for the mutex only where it does not hold it, and releases it only
where it does, as long as its actions give answers that they may give. -/
def LockProgram.Disciplined (may : ∀ action, Answer action → Prop) :
    Bool → LockProgram Action Answer → Prop
  | holding, .done => holding = false
  | _, .fault => True
  | holding, .lock _ rest => holding = false ∧ rest.Disciplined may true
  | holding, .unlock rest => holding = true ∧ rest.Disciplined may false
  | holding, .act action rest =>
    ∀ answer, may action answer → (rest answer).Disciplined may holding

/-- Threads that perform operations with a mutex, each with what is left of its program. -/
structure LockThreads (Operation State Action : Type*) (Answer : Action → Type*) where
  state : State
  mutex : SharedMutex
  thread : ℕ → Option (Operation × LockProgram Action Answer)

/-- A thread begins an operation, or goes on with it. -/
inductive LockLabel (Operation Input : Type*)
  | call (a : ℕ) (operation : Operation)
  | proceed (a : ℕ) (input : Input)

namespace LockThreads

/-- Threads that are all elsewhere. -/
def start (state : State) : LockThreads Operation State Action Answer :=
  ⟨state, .free, fun _ => none⟩

/-- A thread moves on. -/
def goto (s : LockThreads Operation State Action Answer) (a : ℕ)
    (place : Option (Operation × LockProgram Action Answer)) :
    LockThreads Operation State Action Answer :=
  { s with thread := Function.update s.thread a place }

/-- One step, if the label is enabled, given the programs and what the actions do. -/
def step (code : Operation → LockProgram Action Answer)
    (perform : State → (action : Action) → Input → Answer action × State)
    (s : LockThreads Operation State Action Answer) :
    LockLabel Operation Input → Option (LockThreads Operation State Action Answer)
  | .call a operation =>
    match s.thread a with
    | none => some (s.goto a (some (operation, code operation)))
    | some _ => none
  | .proceed a input =>
    match s.thread a with
    | none => none
    | some (_, .done) => some (s.goto a none)
    | some (_, .fault) => none
    | some (operation, .lock mode rest) => (s.mutex.lock a mode).map fun mutex =>
      { s.goto a (some (operation, rest)) with mutex }
    | some (operation, .unlock rest) =>
      some { s.goto a (some (operation, rest)) with mutex := s.mutex.unlock a }
    | some (operation, .act action rest) =>
      let (answer, state) := perform s.state action input
      some { s.goto a (some (operation, rest answer)) with state }

/-- The thread asks for the mutex. -/
def Asks (s : LockThreads Operation State Action Answer) (a : ℕ) : Prop :=
  ∃ operation mode rest, s.thread a = some (operation, .lock mode rest)

instance (s : LockThreads Operation State Action Answer) (a : ℕ) : Decidable (s.Asks a) :=
  decidable_of_iff ((match s.thread a with | some (_, .lock ..) => true | _ => false) = true) (by
    unfold Asks
    split <;> simp_all)

/-- The operations that are begun are good ones, and each gets answers that it may get. -/
def Expected (good : Operation → Prop)
    (may : Operation → (action : Action) → Answer action → Prop)
    (perform : State → (action : Action) → Input → Answer action × State)
    (s : LockThreads Operation State Action Answer) : LockLabel Operation Input → Prop
  | .call _ operation => good operation
  | .proceed a input => ∀ operation action rest,
      s.thread a = some (operation, .act action rest) →
      may operation action (perform s.state action input).1

/-- What a thread that holds the mutex, or does not, may still have to do. -/
def Fits (may : Operation → (action : Action) → Answer action → Prop) (holds : Prop) :
    Option (Operation × LockProgram Action Answer) → Prop
  | none => ¬ holds
  | some (operation, rest) =>
    ∃ holding, (holds ↔ holding = true) ∧ rest.Disciplined (may operation) holding

/-- What is kept by threads whose programs are disciplined. -/
structure Orderly (may : Operation → (action : Action) → Answer action → Prop)
    (s : LockThreads Operation State Action Answer) : Prop where
  sound : s.mutex.Sound
  fits : ∀ a, Fits may (s.mutex.Holds a) (s.thread a)

variable {code : Operation → LockProgram Action Answer}
  {perform : State → (action : Action) → Input → Answer action × State}
  {good : Operation → Prop} {may : Operation → (action : Action) → Answer action → Prop}
  {s t : LockThreads Operation State Action Answer} {label : LockLabel Operation Input}
  {labels : List (LockLabel Operation Input)} {state : State} {a : ℕ}

/-- A thread moves on and leaves the others as they are. -/
theorem Orderly.moved (orderly : s.Orderly may) (sound : t.mutex.Sound)
    {place : Option (Operation × LockProgram Action Answer)}
    (moves : t.thread = Function.update s.thread a place)
    (others : ∀ b, b ≠ a → (t.mutex.Holds b ↔ s.mutex.Holds b))
    (own : Fits may (t.mutex.Holds a) place) : t.Orderly may := by
  refine ⟨sound, fun b => ?_⟩
  by_cases same : b = a
  · rw [same, moves, Function.update_self]
    exact own
  · rw [moves, Function.update_of_ne same, others b same]
    exact orderly.fits b

/-- What a thread that is in an operation still has to do. -/
theorem Orderly.at_place (orderly : s.Orderly may) {operation : Operation}
    {rest : LockProgram Action Answer} (place : s.thread a = some (operation, rest)) :
    ∃ holding, (s.mutex.Holds a ↔ holding = true) ∧
      rest.Disciplined (may operation) holding := by
  have fits := orderly.fits a
  rw [place] at fits
  exact fits

theorem Orderly.keep (disciplined : ∀ operation, good operation →
      (code operation).Disciplined (may operation) false)
    (orderly : s.Orderly may) (expected : Expected good may perform s label)
    (next : step code perform s label = some t) : t.Orderly may := by
  cases label with
  | call a operation =>
    simp only [step] at next
    split at next
    · rename_i outside
      obtain rfl := Option.some.inj next
      have free := orderly.fits a
      rw [outside] at free
      exact orderly.moved orderly.sound rfl (fun _ _ => Iff.rfl)
        ⟨false, iff_of_false free Bool.false_ne_true, disciplined operation expected⟩
    · cases next
  | proceed a input =>
    simp only [step] at next
    split at next
    case h_1 => cases next
    case h_2 operation place =>
      obtain ⟨holding, holds, rest⟩ := orderly.at_place place
      obtain rfl := Option.some.inj next
      refine orderly.moved orderly.sound rfl (fun _ _ => Iff.rfl) fun held => ?_
      cases (show holding = false from rest).symm.trans (holds.mp held)
    case h_3 => cases next
    case h_4 operation mode rest place =>
      obtain ⟨holding, holds, outside, onward⟩ := orderly.at_place place
      obtain ⟨mutex, locks, rfl⟩ := Option.map_eq_some_iff.mp next
      have free : ¬ s.mutex.Holds a := fun held => by
        cases outside.symm.trans (holds.mp held)
      refine orderly.moved (orderly.sound.lock locks free) rfl (fun b distinct => ?_)
        ⟨true, ?_, onward⟩
      · exact (SharedMutex.holds_lock_iff locks).trans (or_iff_right distinct)
      · exact iff_of_true ((SharedMutex.holds_lock_iff locks).mpr (.inl rfl)) rfl
    case h_5 operation rest place =>
      obtain ⟨holding, holds, inside, onward⟩ := orderly.at_place place
      obtain rfl := Option.some.inj next
      have release (b : ℕ) := SharedMutex.holds_unlock_iff (b := b) orderly.sound
        (holds.mpr inside)
      refine orderly.moved orderly.sound.unlock rfl (fun b distinct => ?_) ⟨false, ?_, onward⟩
      · exact (release b).trans (and_iff_right distinct)
      · exact iff_of_false (fun held => ((release a).mp held).1 rfl) Bool.false_ne_true
    case h_6 operation action rest place =>
      obtain ⟨holding, holds, onward⟩ := orderly.at_place place
      obtain rfl := Option.some.inj next
      exact orderly.moved orderly.sound rfl (fun _ _ => Iff.rfl)
        ⟨holding, holds, onward _ (expected operation action rest place)⟩

/-- Threads whose programs are disciplined never ask for a mutex that they hold. -/
theorem not_holds_of_asks (disciplined : ∀ operation, good operation →
      (code operation).Disciplined (may operation) false)
    (run : Run (step code perform) (Expected good may perform) (start state) labels s)
    (asks : s.Asks a) : ¬ s.mutex.Holds a := by
  have orderly : s.Orderly may := by
    apply run.invariant
    · exact ⟨SharedMutex.sound_free, fun _ => SharedMutex.not_holds_free⟩
    · intro s label t orderly expected next
      exact orderly.keep disciplined expected next
  obtain ⟨operation, mode, rest, place⟩ := asks
  obtain ⟨holding, holds, outside, -⟩ := orderly.at_place place
  intro held
  cases outside.symm.trans (holds.mp held)

end LockThreads

end ExLibs.Math
