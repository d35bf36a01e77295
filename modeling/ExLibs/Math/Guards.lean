/-
# Guards of named semaphores

Semaphores are created under names while a program runs, and its threads go through sections of
those that they have open. A section may have one of another semaphore inside, whose name ranks
higher, and that makes the names an order in which the semaphores are waited for, however many
there are and whatever they are called.

A mutex is a semaphore that the system takes back from a thread that dies. Threads come out of
the sections of mutexes in any case, and out of those of semaphores unless one has died there.
-/
import ExLibs.Math.Sections

namespace ExLibs.Math

variable {Guarded Name : Type*}

inductive GuardKind
  | semaphore
  | mutex
  deriving DecidableEq

/-- What may happen to threads that wait or are in sections. -/
def GuardKind.allows : GuardKind → SectionLabel ℕ ℕ → Bool
  | _, .enter _ | _, .leave _ => true
  -- a semaphore is posted when a guard goes out of scope only
  | .semaphore, .interrupt _ | .semaphore, .die _ => true
  | .mutex, .giveUp _ | .mutex, .release .. | .mutex, .abandon _ => true
  | _, _ => false

theorem GuardKind.allows_of_eq {kind : GuardKind} {thread : ℕ} {moved : SectionLabel ℕ ℕ}
    (which : moved = .enter thread ∨ moved = .leave thread) : kind.allows moved = true := by
  rcases which with rfl | rfl <;> cases kind <;> rfl

/-- The sections of a program. -/
structure GuardScheme (Guarded Name : Type*) where
  kind : GuardKind
  /-- The name of the semaphore. -/
  name : Guarded → Name
  /-- That of the semaphore of the section inside, if there is one. -/
  inner : Guarded → Option Name
  rank : Name → ℕ
  climbs : ∀ guarded, ∀ name' ∈ inner guarded, rank (name guarded) < rank name'

/-- The semaphores that have been created, by their names, the sections that threads have gone to
last, and the guards. Threads are numbered, and so are the semaphores. -/
structure Guards (Guarded Name : Type*) where
  names : List Name
  within : ℕ → Option Guarded
  sections : Sections ℕ ℕ

inductive GuardLabel (Guarded Name : Type*)
  /-- A semaphore is created. -/
  | create (name : Name)
  /-- A guard is made for a semaphore that a thread has open. -/
  | guard (thread : ℕ) (guarded : Guarded) (sem : ℕ)
  /-- And one for the section inside. -/
  | inner (thread sem : ℕ)
  | move (label : SectionLabel ℕ ℕ)
  deriving DecidableEq

namespace Guards

def start : Guards Guarded Name := ⟨[], fun _ => none, .start⟩

/-- The names of the semaphores that a thread is in sections of. -/
def held (s : Guards Guarded Name) (thread : ℕ) : List (Option Name) :=
  (s.sections.guards.filter (·.1 = thread)).map fun guard => s.names[guard.2]?

/-- One step, if the label is enabled. A semaphore keeps its name when another is created with
it. -/
def step [DecidableEq Name] (scheme : GuardScheme Guarded Name) (s : Guards Guarded Name) :
    GuardLabel Guarded Name → Option (Guards Guarded Name)
  | .create name => some { s with names := s.names ++ [name] }
  | .guard thread guarded sem =>
    if s.names[sem]? = some (scheme.name guarded) ∧ s.held thread = [] then
      (s.sections.step (.wait thread sem)).map fun sections => { s with
        sections, within := Function.update s.within thread (some guarded) }
    else none
  | .inner thread sem =>
    match s.within thread with
    | none => none
    | some guarded =>
      if (scheme.inner guarded).isSome = true ∧ s.names[sem]? = scheme.inner guarded ∧
          s.held thread = [some (scheme.name guarded)] then
        (s.sections.step (.wait thread sem)).map fun sections => { s with sections }
      else none
  | .move label =>
    if scheme.kind.allows label then
      (s.sections.step label).map fun sections => { s with sections }
    else none

/-- A thread that waits gets in, or a thread comes out. -/
def Moves (_ : Guards Guarded Name) (label : GuardLabel Guarded Name) : Prop :=
  ∃ moved : SectionLabel ℕ ℕ, moved.Moves ∧ label = .move moved

/-- A thread that waits gets in or gives up, or a thread comes out. -/
def Settles (_ : Guards Guarded Name) (label : GuardLabel Guarded Name) : Prop :=
  ∃ moved : SectionLabel ℕ ℕ, moved.Settles ∧ label = .move moved

/-- The semaphore has a name of this rank. -/
def rank (scheme : GuardScheme Guarded Name) (names : List Name) (sem : ℕ) : ℕ :=
  (names[sem]?).elim 0 scheme.rank

variable {scheme : GuardScheme Guarded Name} {s t : Guards Guarded Name}
  {label : GuardLabel Guarded Name} {labels labels' : List (GuardLabel Guarded Name)}

/-- What a step does. -/
inductive Step (scheme : GuardScheme Guarded Name) (s : Guards Guarded Name) :
    GuardLabel Guarded Name → Guards Guarded Name → Prop
  | create {name : Name} : Step scheme s (.create name) { s with names := s.names ++ [name] }
  | guard {thread sem : ℕ} {guarded : Guarded} {sections : Sections ℕ ℕ}
      {within : ℕ → Option Guarded} (named : s.names[sem]? = some (scheme.name guarded))
      (outside : s.held thread = []) (next : s.sections.step (.wait thread sem) = some sections) :
      Step scheme s (.guard thread guarded sem) { s with sections, within }
  | inner {thread sem : ℕ} {guarded : Guarded} {name : Name} {sections : Sections ℕ ℕ}
      (nests : scheme.inner guarded = some name) (named : s.names[sem]? = some name)
      (inside : s.held thread = [some (scheme.name guarded)])
      (next : s.sections.step (.wait thread sem) = some sections) :
      Step scheme s (.inner thread sem) { s with sections }
  | move {label : SectionLabel ℕ ℕ} {sections : Sections ℕ ℕ}
      (allowed : scheme.kind.allows label = true)
      (next : s.sections.step label = some sections) :
      Step scheme s (.move label) { s with sections }

theorem step_cases [DecidableEq Name] (next : s.step scheme label = some t) :
    Step scheme s label t := by
  cases label with
  | create name => exact Option.some.inj next ▸ .create
  | guard thread guarded sem =>
    simp only [step, Option.ite_none_right_eq_some, Option.map_eq_some_iff] at next
    obtain ⟨⟨named, outside⟩, sections, next, rfl⟩ := next
    exact .guard named outside next
  | inner thread sem =>
    simp only [step] at next
    split at next
    · cases next
    · simp only [Option.ite_none_right_eq_some, Option.map_eq_some_iff] at next
      obtain ⟨⟨nests, named, inside⟩, sections, next, rfl⟩ := next
      obtain ⟨name, nests⟩ := Option.isSome_iff_exists.mp nests
      exact .inner nests (named.trans nests) inside next
  | move label =>
    simp only [step, Option.ite_none_right_eq_some, Option.map_eq_some_iff] at next
    obtain ⟨allowed, sections, next, rfl⟩ := next
    exact .move allowed next

/-- A step is a move of the sections that the kind of semaphore allows, or a wait, or it leaves
them as they are. -/
theorem sections_of_step (next : Step scheme s label t) :
    t.sections = s.sections ∧ (∀ moved, label ≠ .move moved) ∨
    ∃ moved, s.sections.Step moved t.sections ∧
      (label = .move moved ∧ scheme.kind.allows moved = true ∨
        (∃ thread sem, moved = .wait thread sem) ∧ ∀ moved, label ≠ .move moved) := by
  cases next with
  | create => exact .inl ⟨rfl, nofun⟩
  | guard _ _ next => exact .inr ⟨_, Sections.step_cases next, .inr ⟨⟨_, _, rfl⟩, nofun⟩⟩
  | inner _ _ _ next => exact .inr ⟨_, Sections.step_cases next, .inr ⟨⟨_, _, rfl⟩, nofun⟩⟩
  | move allowed next => exact .inr ⟨_, Sections.step_cases next, .inl ⟨rfl, allowed⟩⟩

section Names

theorem rank_of_named {names : List Name} {sem : ℕ} {name : Name}
    (named : names[sem]? = some name) : rank scheme names sem = scheme.rank name := by
  rw [rank, named, Option.elim_some]

/-- Semaphores that have been created keep their names. -/
theorem rank_append {names : List Name} {sem : ℕ} (created : sem < names.length) (name : Name) :
    rank scheme (names ++ [name]) sem = rank scheme names sem := by
  rw [rank, rank, List.getElem?_append_left created]

/-- The semaphores in use have been created, and are waited for in the order of their names. -/
structure Sound (scheme : GuardScheme Guarded Name) (s : Guards Guarded Name) : Prop where
  created : ∀ entry ∈ s.sections.waiting ++ s.sections.guards, entry.2 < s.names.length
  sections : s.sections.Sound (rank scheme s.names)

theorem mem_held {thread outer : ℕ} (member : (thread, outer) ∈ s.sections.guards) :
    s.names[outer]? ∈ s.held thread :=
  List.mem_map.mpr ⟨_, List.mem_filter.mpr ⟨member, decide_eq_true rfl⟩, rfl⟩

theorem Sound.wait {thread sem : ℕ} {sections : Sections ℕ ℕ} {name : Name}
    {within : ℕ → Option Guarded} (sound : s.Sound scheme) (named : s.names[sem]? = some name)
    (climbs : ∀ outer, (thread, outer) ∈ s.sections.guards →
      rank scheme s.names outer < scheme.rank name)
    (next : s.sections.step (.wait thread sem) = some sections) :
    Sound scheme { s with sections, within } := by
  have move := Sections.step_cases next
  refine ⟨fun entry member => ?_, sound.sections.step ?_ move⟩
  · rcases Sections.mem_of_step move member with before | now
    · exact sound.created entry before
    · obtain ⟨-, rfl⟩ := SectionLabel.wait.inj now
      exact (List.getElem?_eq_some_iff.mp named).1
  · intro outer member
    rw [rank_of_named named]
    exact climbs outer member

theorem Sound.step (sound : s.Sound scheme) (next : Step scheme s label t) : t.Sound scheme := by
  cases next with
  | create =>
    refine ⟨fun entry member => ?_, sound.sections.congr fun entry member => ?_⟩
    · rw [List.length_append]
      exact Nat.lt_add_right _ (sound.created entry member)
    · exact rank_append (sound.created entry member) _
  | guard named outside next =>
    refine sound.wait named (fun outer member => ?_) next
    -- the thread is in no section
    have held : s.names[outer]? ∈ s.held _ := mem_held member
    rw [outside] at held
    cases held
  | @inner _ _ guarded name _ nests named inside next =>
    refine sound.wait named (fun outer member => ?_) next
    -- the only section that the thread is in is the one around
    have held : s.names[outer]? ∈ s.held _ := mem_held member
    rw [inside, List.mem_singleton] at held
    rw [rank_of_named held]
    exact scheme.climbs guarded name nests
  | @move moved _ allowed next =>
    -- waits are no moves, so that no semaphore comes into use
    have waits : ∀ thread sem, moved ≠ .wait thread sem := by
      rintro thread sem rfl
      cases scheme.kind <;> cases allowed
    have move := Sections.step_cases next
    refine ⟨fun entry member => ?_, sound.sections.step ?_ move⟩
    · exact sound.created entry ((Sections.mem_of_step move member).resolve_right (waits _ _))
    · cases moved with
      | wait thread sem => exact absurd rfl (waits thread sem)
      | _ => trivial

theorem sound_start : (start : Guards Guarded Name).Sound scheme :=
  ⟨nofun, Sections.sound_start⟩

theorem sound_of_run [DecidableEq Name]
    {allowed : Guards Guarded Name → GuardLabel Guarded Name → Prop}
    (run : Run (step scheme) allowed start labels s) : s.Sound scheme :=
  run.invariant sound_start fun _ _ _ sound _ next => sound.step (step_cases next)

end Names

section Exclusion

variable [DecidableEq Name]

/-- No wait for a mutex is interrupted. -/
theorem interrupted_of_run {allowed : Guards Guarded Name → GuardLabel Guarded Name → Prop}
    (takes : scheme.kind = .mutex) (run : Run (step scheme) allowed start labels s) :
    s.sections.interrupted = [] := by
  refine @Run.invariant _ _ (step scheme) allowed start s labels
    (fun s => s.sections.interrupted = []) rfl (fun s label t completed _ next => ?_) run
  rcases sections_of_step (step_cases next) with ⟨same, -⟩ | ⟨moved, move, which⟩
  · rw [same]
    exact completed
  · refine (Sections.interrupted_of_step move fun thread => ?_).trans completed
    rintro rfl
    rcases which with ⟨-, allowed⟩ | ⟨⟨_, _, waits⟩, -⟩
    · rw [takes] at allowed
      cases allowed
    · cases waits

/-- No two threads are in sections of the same mutex. -/
theorem exclusive_of_run {allowed : Guards Guarded Name → GuardLabel Guarded Name → Prop}
    (takes : scheme.kind = .mutex) (run : Run (step scheme) allowed start labels s) :
    s.sections.Exclusive :=
  (sound_of_run run).sections.counted.exclusive (interrupted_of_run takes run)

end Exclusion

section Leaving

variable [DecidableEq Name]

/-- The guards of a thread that has died in the section of a semaphore stay. -/
theorem mem_guards_of_dead {thread sem : ℕ} (keeps : scheme.kind = .semaphore)
    (run : Run (step scheme) Free s labels t) (dead : thread ∈ s.sections.dead)
    (member : (thread, sem) ∈ s.sections.guards) :
    thread ∈ t.sections.dead ∧ (thread, sem) ∈ t.sections.guards := by
  refine @Run.invariant _ _ (step scheme) Free s t labels
    (fun s => thread ∈ s.sections.dead ∧ (thread, sem) ∈ s.sections.guards) ⟨dead, member⟩
    (fun s label t stays _ next => ?_) run
  rcases sections_of_step (step_cases next) with ⟨same, -⟩ | ⟨moved, move, which⟩
  · rw [same]
    exact stays
  · refine Sections.mem_guards_of_dead move (fun thread => ?_) stays.1 stays.2
    rintro rfl
    rcases which with ⟨-, allowed⟩ | ⟨⟨_, _, waits⟩, -⟩
    · rw [keeps] at allowed
      cases allowed
    · cases waits

/-- Nobody is in the section of a mutex who has died. -/
theorem alive_of_run {allowed : Guards Guarded Name → GuardLabel Guarded Name → Prop}
    (takes : scheme.kind = .mutex) (run : Run (step scheme) allowed start labels s) :
    s.sections.Alive := by
  have initial : (start : Guards Guarded Name).sections.Alive := by
    intro guard member
    cases member
  refine @Run.invariant_of_reached _ _ (step scheme) allowed start s labels
    (fun s => s.sections.Alive) initial (fun _ s label t earlier alive _ next => ?_) run
  rcases sections_of_step (step_cases next) with ⟨same, -⟩ | ⟨moved, move, which⟩
  · rw [same]
    exact alive
  · refine alive.step (sound_of_run earlier).sections (fun thread => ?_) move
    rintro rfl
    rcases which with ⟨-, allowed⟩ | ⟨⟨_, _, waits⟩, -⟩
    · rw [takes] at allowed
      cases allowed
    · cases waits

theorem step_move {moved : SectionLabel ℕ ℕ} {sections : Sections ℕ ℕ}
    (allowed : scheme.kind.allows moved = true) (next : s.sections.step moved = some sections) :
    s.step scheme (.move moved) = some { s with sections } := by
  rw [step, if_pos allowed, next, Option.map_some]

/-- Where the sections can go the semaphores can. -/
theorem exec_move {moves : List (SectionLabel ℕ ℕ)} {sections : Sections ℕ ℕ}
    (only : ∀ moved ∈ moves, ∃ thread, moved = .enter thread ∨ moved = .leave thread)
    (executes : exec Sections.step s.sections moves = some sections) :
    exec (step scheme) s (moves.map .move) = some { s with sections } := by
  induction moves generalizing s with
  | nil =>
    obtain rfl := Option.some.inj executes
    rfl
  | cons moved moves ih =>
    obtain ⟨between, first, rest⟩ := Option.bind_eq_some_iff.mp executes
    obtain ⟨⟨thread, which⟩, only'⟩ := List.forall_mem_cons.mp only
    rw [List.map_cons, exec, step_move (GuardKind.allows_of_eq which) first, Option.bind_some]
    exact ih (s := { s with sections := between }) only' rest

/-- Whatever has happened, all threads can come out of their sections of semaphores, which takes
no new ones, if and only if none has died there. -/
theorem exists_exec_iff_alive (keeps : scheme.kind = .semaphore)
    (run : Run (step scheme) Free start labels s) :
    (∃ labels' t, exec (step scheme) s labels' = some t ∧ t.sections.guards = []) ↔
      s.sections.Alive := by
  constructor
  · rintro ⟨labels', t, executes, outside⟩ ⟨thread, sem⟩ member dead
    obtain ⟨-, stays⟩ := mem_guards_of_dead keeps (run_of_exec executes) dead member
    rw [outside] at stays
    exact List.not_mem_nil stays
  · intro alive
    obtain ⟨moves, sections, only, executes, outside⟩ :=
      (sound_of_run run).sections.exists_outside alive
    exact ⟨moves.map .move, _, exec_move only executes, outside⟩

omit [DecidableEq Name] in
theorem moves_lt_of_step (settles : s.Settles label) (next : Step scheme s label t) :
    t.sections.moves < s.sections.moves := by
  obtain ⟨moved, settles, rfl⟩ := settles
  cases next with
  | move _ next => exact Sections.moves_lt_of_step (Sections.step_cases next) settles

/-- There is an end to moves. -/
theorem length_add_moves_le (on : Run (step scheme) Settles s labels' t) :
    labels'.length + t.sections.moves ≤ s.sections.moves := by
  induction on with
  | nil => exact Nat.le_of_eq (Nat.zero_add _)
  | snoc _ settles next ih =>
    have fewer := moves_lt_of_step settles (step_cases next)
    rw [List.length_append, List.length_singleton]
    omega

/-- However the threads that are in sections of mutexes or wait for them go on, giving up included,
there is an end to it, and somebody gets in or out as long as one is in a section or waits. -/
theorem outside_of_moves (takes : scheme.kind = .mutex)
    (run : Run (step scheme) Free start labels s) (on : Run (step scheme) Settles s labels' t) :
    labels'.length ≤ s.sections.moves ∧
      ((∀ label, t.Moves label → t.step scheme label = none) →
        t.sections.guards = [] ∧ t.sections.waiting = []) := by
  refine ⟨(Nat.le_add_right _ _).trans (length_add_moves_le on), fun stuck => ?_⟩
  -- the moves go on from a state of a run, in which the invariant holds
  have reached := run.trans on.free
  by_contra left
  obtain ⟨thread, moved, which, u, next⟩ := (sound_of_run reached).sections.exists_move
    (alive_of_run takes reached) (not_and_or.mp left)
  have goes : moved.Moves := by rcases which with rfl | rfl <;> trivial
  exact nomatch (stuck _ ⟨moved, goes, rfl⟩).symm.trans
    (step_move (GuardKind.allows_of_eq which) next)

end Leaving

end Guards

end ExLibs.Math
