/-
# Sections under semaphores

Threads go through sections with guards: a guard waits for its semaphore, which is one at first,
and posts it at the end of the section, and sections lie inside one another. A wait that is
interrupted fails, which the guard does not notice: it posts a semaphore that it has not taken. A
thread that dies posts nothing, unless the system does so for it.

What a semaphore stands at and those in its sections are one together, and one more for each wait
for it that was interrupted. Where semaphores have ranks, and
a thread in a section waits for those of a higher rank only, all threads come out of their
sections again, however they go on, unless one has died there.
-/
import Mathlib.Data.List.MinMax
import Mathlib.Logic.Function.Basic
import ExLibs.Math.Transition

namespace ExLibs.Math

variable {Thread Semaphore : Type*}

/-- The semaphores, the guards that threads have, the latest first, those that they wait with, and
the threads that have died. The last field is a record of the waits that were interrupted. -/
structure Sections (Thread Semaphore : Type*) where
  value : Semaphore → ℕ
  guards : List (Thread × Semaphore)
  waiting : List (Thread × Semaphore)
  dead : List Thread
  interrupted : List Semaphore

inductive SectionLabel (Thread Semaphore : Type*)
  | wait (thread : Thread) (semaphore : Semaphore)
  /-- The wait is over. -/
  | enter (thread : Thread)
  /-- The wait is interrupted, and the thread goes on all the same. -/
  | interrupt (thread : Thread)
  /-- The wait ends without the semaphore, and the thread does not go on. -/
  | giveUp (thread : Thread)
  /-- The latest guard goes out of scope. -/
  | leave (thread : Thread)
  /-- A guard that need not be the latest posts its semaphore. -/
  | release (thread : Thread) (semaphore : Semaphore)
  | die (thread : Thread)
  /-- A thread dies, and the system posts the semaphores of its guards. -/
  | abandon (thread : Thread)
  deriving DecidableEq

/-- A thread that waits gets in, or a thread comes out. -/
def SectionLabel.Moves : SectionLabel Thread Semaphore → Prop
  | enter _ | leave _ | release .. => True
  | wait .. | interrupt _ | giveUp _ | die _ | abandon _ => False

/-- A thread that waits gets in or gives up, or a thread comes out. -/
def SectionLabel.Settles : SectionLabel Thread Semaphore → Prop
  | enter _ | giveUp _ | leave _ | release .. => True
  | wait .. | interrupt _ | die _ | abandon _ => False

theorem SectionLabel.Moves.settles {label : SectionLabel Thread Semaphore} (goes : label.Moves) :
    label.Settles := by
  cases label with
  | enter | leave | release => trivial
  | wait | interrupt | giveUp | die | abandon => exact goes.elim

theorem SectionLabel.Moves.ne_die {label : SectionLabel Thread Semaphore} (goes : label.Moves)
    (thread : Thread) : label ≠ .die thread := by
  rintro rfl
  exact goes

namespace Sections

/-- All semaphores are one, and nobody is in a section. -/
def start : Sections Thread Semaphore := ⟨fun _ => 1, [], [], [], []⟩

/-- The thread neither waits nor has died. -/
def Running [DecidableEq Thread] (s : Sections Thread Semaphore) (thread : Thread) : Prop :=
  s.waiting.lookup thread = none ∧ thread ∉ s.dead

section States

variable {s : Sections Thread Semaphore} {rank : Semaphore → ℕ}

/-- Nobody has died in a section. -/
def Alive (s : Sections Thread Semaphore) : Prop := ∀ guard ∈ s.guards, guard.1 ∉ s.dead

/-- The moves that are left, at most: to enter a section and to leave it again. -/
def moves (s : Sections Thread Semaphore) : ℕ := 2 * s.waiting.length + s.guards.length

/-- A guard of the highest rank. -/
theorem exists_highest (rank : Semaphore → ℕ) (some : s.guards ≠ []) :
    ∃ highest ∈ s.guards, ∀ guard ∈ s.guards, rank guard.2 ≤ rank highest.2 := by
  cases found : s.guards.argmax (rank ∘ Prod.snd) with
  | none => exact absurd (List.argmax_eq_none.mp found) some
  | some highest =>
    exact ⟨highest, List.argmax_mem found, fun guard member =>
      List.le_of_mem_argmax (f := rank ∘ Prod.snd) member found⟩

/-- A wait in a section is for a semaphore of a higher rank. -/
def Climbs (rank : Semaphore → ℕ) (s : Sections Thread Semaphore) :
    SectionLabel Thread Semaphore → Prop
  | .wait thread inner => ∀ outer, (thread, outer) ∈ s.guards → rank outer < rank inner
  | _ => True

theorem climbs_of_moves {label : SectionLabel Thread Semaphore} (goes : label.Moves) :
    s.Climbs rank label := by
  cases label with
  | wait => exact goes.elim
  | _ => trivial

variable [DecidableEq Semaphore]

/-- How often a semaphore has been entered and not left. -/
def inside (s : Sections Thread Semaphore) (semaphore : Semaphore) : ℕ :=
  s.guards.countP (·.2 = semaphore)

/-- No two are in sections of the same semaphore. -/
def Exclusive (s : Sections Thread Semaphore) : Prop := ∀ semaphore, s.inside semaphore ≤ 1

/-- A semaphore is free or has been entered, and was let through once more with each wait for it
that was interrupted. -/
def Counted (s : Sections Thread Semaphore) : Prop :=
  ∀ semaphore, s.value semaphore + s.inside semaphore = 1 + s.interrupted.count semaphore

theorem counted_start : (start : Sections Thread Semaphore).Counted := fun _ => rfl

theorem Counted.exclusive (counted : s.Counted) (completed : s.interrupted = []) :
    s.Exclusive := by
  intro semaphore
  have one := counted semaphore
  rw [completed, List.count_nil] at one
  omega

/-- What holds in every state, if threads wait in the order of the ranks. -/
structure Sound (rank : Semaphore → ℕ) (s : Sections Thread Semaphore) : Prop where
  counted : s.Counted
  ordered : ∀ thread inner outer, (thread, inner) ∈ s.waiting → (thread, outer) ∈ s.guards →
    rank outer < rank inner
  living : ∀ entry ∈ s.waiting, entry.1 ∉ s.dead

/-- Only the ranks of semaphores in use matter. -/
theorem Sound.congr {rank' : Semaphore → ℕ} (sound : s.Sound rank)
    (same : ∀ entry ∈ s.waiting ++ s.guards, rank' entry.2 = rank entry.2) : s.Sound rank' := by
  refine ⟨sound.counted, fun thread inner outer waits member => ?_, sound.living⟩
  rw [same _ (List.mem_append_left _ waits), same _ (List.mem_append_right _ member)]
  exact sound.ordered thread inner outer waits member

theorem sound_start : (start : Sections Thread Semaphore).Sound rank :=
  ⟨counted_start, nofun, nofun⟩

end States

section Entries

variable [DecidableEq Thread] {s : Sections Thread Semaphore} {thread : Thread}
  {semaphore : Semaphore}

/-- Who waits when a thread no longer does. -/
def others (s : Sections Thread Semaphore) (thread : Thread) : List (Thread × Semaphore) :=
  s.waiting.filter (·.1 ≠ thread)

theorem mem_others {entry : Thread × Semaphore} (member : entry ∈ s.others thread) :
    entry ∈ s.waiting ∧ entry.1 ≠ thread := by
  obtain ⟨waits, other⟩ := List.mem_filter.mp member
  exact ⟨waits, of_decide_eq_true other⟩

theorem length_others_lt (waits : (thread, semaphore) ∈ s.waiting) :
    (s.others thread).length < s.waiting.length :=
  List.length_filter_lt_length_iff_exists.mpr ⟨_, waits, by simp⟩

theorem mem_of_lookup {entries : List (Thread × Semaphore)}
    (found : entries.lookup thread = some semaphore) : (thread, semaphore) ∈ entries := by
  obtain ⟨front, back, rfl, -⟩ := List.lookup_eq_some_iff.mp found
  exact List.mem_append_right _ (List.mem_cons_self ..)

theorem exists_lookup {entries : List (Thread × Semaphore)}
    (member : (thread, semaphore) ∈ entries) : ∃ found, entries.lookup thread = some found := by
  refine Option.ne_none_iff_exists'.mp fun missing => ?_
  exact bne_iff_ne.mp (List.lookup_eq_none_iff.mp missing _ member) rfl

/-- What is found is what is erased. -/
theorem eraseP_of_lookup {entries : List (Thread × Semaphore)}
    (found : entries.lookup thread = some semaphore) :
    ∃ front back, entries = front ++ (thread, semaphore) :: back ∧
      entries.eraseP (·.1 = thread) = front ++ back := by
  obtain ⟨front, back, rfl, earlier⟩ := List.lookup_eq_some_iff.mp found
  refine ⟨front, back, rfl, ?_⟩
  have others : ∀ entry ∈ front, ¬ decide (entry.1 = thread) = true := fun entry member same =>
    bne_iff_ne.mp (earlier entry member) (of_decide_eq_true same).symm
  rw [List.eraseP_append_right _ others]
  simp

end Entries

variable [DecidableEq Thread] [DecidableEq Semaphore]

instance (s : Sections Thread Semaphore) : DecidablePred s.Running :=
  fun thread => inferInstanceAs (Decidable (s.waiting.lookup thread = none ∧ thread ∉ s.dead))

/-- One step, if the label is enabled. -/
def step (s : Sections Thread Semaphore) :
    SectionLabel Thread Semaphore → Option (Sections Thread Semaphore)
  | .wait thread semaphore =>
    if s.Running thread then some { s with waiting := (thread, semaphore) :: s.waiting } else none
  | .enter thread =>
    match s.waiting.lookup thread with
    | none => none
    | some semaphore =>
      if s.value semaphore = 0 then none
      else some { s with
        value := Function.update s.value semaphore (s.value semaphore - 1)
        guards := (thread, semaphore) :: s.guards, waiting := s.others thread }
  | .interrupt thread =>
    match s.waiting.lookup thread with
    | none => none
    | some semaphore => some { s with
        guards := (thread, semaphore) :: s.guards, waiting := s.others thread
        interrupted := semaphore :: s.interrupted }
  | .giveUp thread =>
    if s.waiting.lookup thread = none then none else some { s with waiting := s.others thread }
  | .leave thread =>
    match s.guards.lookup thread with
    | none => none
    | some semaphore =>
      if s.Running thread then some { s with
        value := Function.update s.value semaphore (s.value semaphore + 1)
        guards := s.guards.eraseP (·.1 = thread) }
      else none
  | .release thread semaphore =>
    if (thread, semaphore) ∈ s.guards ∧ s.Running thread then some { s with
      value := Function.update s.value semaphore (s.value semaphore + 1)
      guards := s.guards.erase (thread, semaphore) }
    else none
  | .die thread => some { s with waiting := s.others thread, dead := thread :: s.dead }
  | .abandon thread => some { s with
      value := fun semaphore => s.value semaphore + s.guards.count (thread, semaphore)
      guards := s.guards.filter (·.1 ≠ thread)
      waiting := s.others thread, dead := thread :: s.dead }

variable {s t : Sections Thread Semaphore} {label : SectionLabel Thread Semaphore}
  {thread : Thread} {semaphore : Semaphore}

/-- What a step does. -/
inductive Step (s : Sections Thread Semaphore) :
    SectionLabel Thread Semaphore → Sections Thread Semaphore → Prop
  | wait {thread : Thread} {semaphore : Semaphore} (running : s.Running thread) :
      Step s (.wait thread semaphore) { s with waiting := (thread, semaphore) :: s.waiting }
  | enter {thread : Thread} {semaphore : Semaphore} (waits : (thread, semaphore) ∈ s.waiting)
      (positive : 0 < s.value semaphore) :
      Step s (.enter thread) { s with
        value := Function.update s.value semaphore (s.value semaphore - 1)
        guards := (thread, semaphore) :: s.guards, waiting := s.others thread }
  | interrupt {thread : Thread} {semaphore : Semaphore}
      (waits : (thread, semaphore) ∈ s.waiting) :
      Step s (.interrupt thread) { s with
        guards := (thread, semaphore) :: s.guards, waiting := s.others thread
        interrupted := semaphore :: s.interrupted }
  | giveUp {thread : Thread} {semaphore : Semaphore} (waits : (thread, semaphore) ∈ s.waiting) :
      Step s (.giveUp thread) { s with waiting := s.others thread }
  | leave {thread : Thread} {semaphore : Semaphore} {front back : List (Thread × Semaphore)}
      (running : s.Running thread) (guards : s.guards = front ++ (thread, semaphore) :: back) :
      Step s (.leave thread) { s with
        value := Function.update s.value semaphore (s.value semaphore + 1)
        guards := front ++ back }
  | release {thread : Thread} {semaphore : Semaphore} {front back : List (Thread × Semaphore)}
      (running : s.Running thread) (guards : s.guards = front ++ (thread, semaphore) :: back) :
      Step s (.release thread semaphore) { s with
        value := Function.update s.value semaphore (s.value semaphore + 1)
        guards := front ++ back }
  | die {thread : Thread} :
      Step s (.die thread) { s with waiting := s.others thread, dead := thread :: s.dead }
  | abandon {thread : Thread} :
      Step s (.abandon thread) { s with
        value := fun semaphore => s.value semaphore + s.guards.count (thread, semaphore)
        guards := s.guards.filter (·.1 ≠ thread)
        waiting := s.others thread, dead := thread :: s.dead }

theorem step_cases (next : s.step label = some t) : Step s label t := by
  cases label with
  | wait thread semaphore =>
    simp only [step, Option.ite_none_right_eq_some] at next
    obtain ⟨running, made⟩ := next
    exact Option.some.inj made ▸ .wait running
  | enter thread =>
    simp only [step] at next
    split at next
    · cases next
    · rename_i semaphore found
      rw [Option.ite_none_left_eq_some] at next
      obtain ⟨positive, made⟩ := next
      exact Option.some.inj made ▸ .enter (mem_of_lookup found) (Nat.pos_of_ne_zero positive)
  | interrupt thread =>
    simp only [step] at next
    split at next
    · cases next
    · exact Option.some.inj next ▸ .interrupt (mem_of_lookup ‹_›)
  | giveUp thread =>
    simp only [step, Option.ite_none_left_eq_some] at next
    obtain ⟨waits, made⟩ := next
    obtain ⟨semaphore, found⟩ := Option.ne_none_iff_exists'.mp waits
    exact Option.some.inj made ▸ .giveUp (mem_of_lookup found)
  | leave thread =>
    simp only [step] at next
    split at next
    · cases next
    · rename_i semaphore found
      rw [Option.ite_none_right_eq_some] at next
      obtain ⟨running, made⟩ := next
      obtain ⟨front, back, guards, erased⟩ := eraseP_of_lookup found
      rw [erased] at made
      exact Option.some.inj made ▸ .leave running guards
  | release thread semaphore =>
    simp only [step, Option.ite_none_right_eq_some] at next
    obtain ⟨⟨member, running⟩, made⟩ := next
    obtain ⟨front, back, -, guards, erased⟩ := List.exists_erase_eq member
    rw [erased] at made
    exact Option.some.inj made ▸ .release running guards
  | die thread => exact Option.some.inj next ▸ .die
  | abandon thread => exact Option.some.inj next ▸ .abandon

section Exclusion

/-- The guards of a thread, and those of the others. -/
theorem count_add_countP_filter (guards : List (Thread × Semaphore)) (thread : Thread)
    (semaphore : Semaphore) : guards.count (thread, semaphore) +
      (guards.filter (·.1 ≠ thread)).countP (·.2 = semaphore) =
        guards.countP (·.2 = semaphore) := by
  induction guards with
  | nil => rfl
  | cons guard guards ih =>
    obtain ⟨thread', semaphore'⟩ := guard
    rw [List.count_cons, List.filter_cons, List.countP_cons, ← ih]
    by_cases own : thread' = thread
    · by_cases same : semaphore' = semaphore <;> simp [own, same]
      omega
    · by_cases same : semaphore' = semaphore <;> simp [own, same]
      omega

/-- What a step takes off a semaphore it puts on the count of those who have entered, and the other
way round, unless a wait is interrupted. -/
theorem Counted.step (counted : s.Counted) (next : Step s label t) : t.Counted := by
  intro semaphore
  have before := counted semaphore
  cases next with
  | wait | giveUp | die => exact before
  | abandon =>
    rw [inside] at before ⊢
    rw [Nat.add_assoc, count_add_countP_filter]
    exact before
  | @enter thread other waits positive =>
    by_cases same : semaphore = other
    · subst same
      simp only [inside, Function.update_self, List.countP_cons, decide_true, if_true] at before ⊢
      omega
    · simpa [inside, Function.update_of_ne same, Ne.symm same] using before
  | @interrupt thread other waits =>
    -- one more is in a section, and the semaphore stands where it stood
    by_cases same : semaphore = other
    · subst same
      simp only [inside, List.countP_cons, decide_true, if_true, List.count_cons_self] at before ⊢
      omega
    · simpa [inside, List.count_cons, Ne.symm same] using before
  | @leave thread other front back running guards
  | @release thread other front back running guards =>
    simp only [inside, guards, List.countP_append, List.countP_cons] at before ⊢
    by_cases same : semaphore = other
    · subst same
      simp only [Function.update_self, decide_true, if_true] at before ⊢
      omega
    · simpa [Function.update_of_ne same, Ne.symm same] using before

/-- Only an interrupted wait is recorded as one. -/
theorem interrupted_of_step (next : Step s label t)
    (completes : ∀ thread, label ≠ .interrupt thread) : t.interrupted = s.interrupted := by
  cases next with
  | interrupt => exact absurd rfl (completes _)
  | _ => rfl

end Exclusion

section Leaving

variable {rank : Semaphore → ℕ}

/-- Only a wait brings a semaphore into use. -/
theorem mem_of_step (next : Step s label t) {entry : Thread × Semaphore}
    (member : entry ∈ t.waiting ++ t.guards) :
    entry ∈ s.waiting ++ s.guards ∨ label = .wait entry.1 entry.2 := by
  rw [List.mem_append] at member ⊢
  cases next with
  | wait running =>
    rcases member with waits | guards
    · rcases List.mem_cons.mp waits with rfl | before
      · exact .inr rfl
      · exact .inl (.inl before)
    · exact .inl (.inr guards)
  | enter waits | interrupt waits =>
    rcases member with others | guards
    · exact .inl (.inl (mem_others others).1)
    · rcases List.mem_cons.mp guards with rfl | before
      · exact .inl (.inl waits)
      · exact .inl (.inr before)
  | leave running guards | release running guards =>
    refine .inl (member.imp_right fun left => ?_)
    rw [guards]
    exact List.mem_append.mpr ((List.mem_append.mp left).imp_right (List.mem_cons_of_mem _))
  | giveUp | die => exact .inl (member.imp_left fun others => (mem_others others).1)
  | abandon =>
    exact .inl (member.imp (fun others => (mem_others others).1) List.mem_of_mem_filter)

theorem Sound.step (sound : s.Sound rank) (climbs : s.Climbs rank label) (next : Step s label t) :
    t.Sound rank := by
  refine ⟨sound.counted.step next, ?ordered, ?living⟩
  case ordered =>
    intro one inner outer waits member
    cases next with
    | wait running =>
      rcases List.mem_cons.mp waits with now | before
      · obtain ⟨rfl, rfl⟩ := Prod.mk.inj now
        exact climbs outer member
      · exact sound.ordered one inner outer before member
    | enter | interrupt =>
      -- who has just entered does not wait
      obtain ⟨before, other⟩ := mem_others waits
      refine sound.ordered one inner outer before ((List.mem_cons.mp member).resolve_left ?_)
      exact fun now => other (Prod.mk.inj now).1
    | leave running guards | release running guards =>
      refine sound.ordered one inner outer waits ?_
      rw [guards]
      exact List.mem_append.mpr ((List.mem_append.mp member).imp_right (List.mem_cons_of_mem _))
    | giveUp | die => exact sound.ordered one inner outer (mem_others waits).1 member
    | abandon =>
      exact sound.ordered one inner outer (mem_others waits).1 (List.mem_of_mem_filter member)
  case living =>
    intro entry waits
    cases next with
    | wait running =>
      rcases List.mem_cons.mp waits with rfl | before
      · exact running.2
      · exact sound.living entry before
    | enter | interrupt | giveUp => exact sound.living entry (mem_others waits).1
    | leave | release => exact sound.living entry waits
    | die | abandon =>
      obtain ⟨before, other⟩ := mem_others waits
      exact fun dead => (List.mem_cons.mp dead).elim other (sound.living entry before)

/-- The guards of a thread that has died stay, unless it has died again. -/
theorem mem_guards_of_dead (next : Step s label t) (dies : ∀ thread, label ≠ .abandon thread)
    (dead : thread ∈ s.dead) (member : (thread, semaphore) ∈ s.guards) :
    thread ∈ t.dead ∧ (thread, semaphore) ∈ t.guards := by
  cases next with
  | wait | giveUp => exact ⟨dead, member⟩
  | enter | interrupt => exact ⟨dead, List.mem_cons_of_mem _ member⟩
  | @leave other semaphore' front back running guards
  | @release other semaphore' front back running guards =>
    refine ⟨dead, ?_⟩
    rw [guards] at member
    rcases List.mem_append.mp member with first | last
    · exact List.mem_append_left _ first
    · rcases List.mem_cons.mp last with same | later
      · -- a guard that goes out of scope is not that of a thread that has died
        obtain ⟨rfl, -⟩ := Prod.mk.inj same
        exact absurd dead running.2
      · exact List.mem_append_right _ later
  | die => exact ⟨List.mem_cons_of_mem _ dead, member⟩
  | abandon => exact absurd rfl (dies _)

theorem Alive.step (alive : s.Alive) (sound : s.Sound rank)
    (survives : ∀ thread, label ≠ .die thread) (next : Step s label t) : t.Alive := by
  intro guard member
  cases next with
  | wait | giveUp => exact alive guard member
  | enter waits | interrupt waits =>
    rcases List.mem_cons.mp member with rfl | before
    · exact sound.living _ waits
    · exact alive guard before
  | leave running guards | release running guards =>
    refine alive guard ?_
    rw [guards]
    exact List.mem_append.mpr ((List.mem_append.mp member).imp_right (List.mem_cons_of_mem _))
  | die => exact absurd rfl (survives _)
  | abandon =>
    obtain ⟨before, kept⟩ := List.mem_filter.mp member
    have other : guard.1 ≠ _ := of_decide_eq_true kept
    exact fun dead => (List.mem_cons.mp dead).elim other (alive guard before)

theorem moves_lt_of_step (next : Step s label t) (settles : label.Settles) :
    t.moves < s.moves := by
  cases next with
  | enter waits | giveUp waits =>
    have fewer := length_others_lt waits
    simp only [moves, List.length_cons]
    omega
  | leave running guards | release running guards =>
    simp only [moves, guards, List.length_append, List.length_cons]
    omega
  | wait | interrupt | die | abandon => exact settles.elim

/-- Unless somebody has died there, the thread with the highest guard gets on, or one that waits
if there are no guards. -/
theorem Sound.exists_move (sound : s.Sound rank) (alive : s.Alive)
    (some : s.guards ≠ [] ∨ s.waiting ≠ []) :
    ∃ thread, ∃ label, (label = .enter thread ∨ label = .leave thread) ∧
      ∃ t, s.step label = .some t := by
  have enters {thread : Thread} {inner : Semaphore}
      (waits : s.waiting.lookup thread = .some inner) (outside : s.inside inner = 0) :
      ∃ t, s.step (.enter thread) = .some t := by
    have free : s.value inner ≠ 0 := by
      have counted := sound.counted inner
      omega
    exact ⟨_, by simp only [Sections.step, waits, if_neg free]; rfl⟩
  by_cases none : s.guards = []
  · obtain ⟨⟨thread, semaphore⟩, member⟩ :=
      List.exists_mem_of_ne_nil _ (some.resolve_left (not_not_intro none))
    obtain ⟨inner, waits⟩ := exists_lookup member
    exact ⟨thread, _, .inl rfl, enters waits (by rw [inside, none]; rfl)⟩
  obtain ⟨⟨thread, semaphore⟩, member, highest⟩ := exists_highest rank none
  cases waits : s.waiting.lookup thread with
  | some inner =>
    have higher : rank semaphore < rank inner :=
      sound.ordered _ _ _ (mem_of_lookup waits) member
    -- nobody is in a section of that rank
    have outside : s.inside inner = 0 := by
      refine List.countP_eq_zero.mpr fun guard inside same => ?_
      have below : rank guard.2 ≤ rank semaphore := highest guard inside
      rw [of_decide_eq_true same] at below
      omega
    exact ⟨thread, _, .inl rfl, enters waits outside⟩
  | none =>
    obtain ⟨inner, found⟩ := exists_lookup member
    have running : s.Running thread := ⟨waits, alive _ member⟩
    exact ⟨thread, _, .inr rfl, _, by simp only [Sections.step, found, if_pos running]; rfl⟩

/-- Unless somebody has died there, all come out of their sections, and nobody has to go into
another for it. -/
theorem Sound.exists_outside (sound : s.Sound rank) (alive : s.Alive) :
    ∃ labels t, (∀ label ∈ labels, ∃ thread, label = .enter thread ∨ label = .leave thread) ∧
      exec Sections.step s labels = some t ∧ t.guards = [] := by
  -- by induction on the moves that are left, of which each takes one
  induction left : s.moves using Nat.strong_induction_on generalizing s with
  | h n ih =>
    subst left
    by_cases outside : s.guards = []
    · exact ⟨[], s, nofun, rfl, outside⟩
    · obtain ⟨thread, label, which, t, next⟩ := sound.exists_move alive (.inl outside)
      have goes : label.Moves := by rcases which with rfl | rfl <;> trivial
      have move := step_cases next
      obtain ⟨labels, u, others, executes, done⟩ := ih t.moves (moves_lt_of_step move goes.settles)
        (sound.step (climbs_of_moves goes) move)
        (alive.step sound goes.ne_die move) rfl
      refine ⟨label :: labels, u, List.forall_mem_cons.mpr ⟨⟨thread, which⟩, others⟩, ?_, done⟩
      rw [exec, next]
      exact executes

end Leaving

end Sections

end ExLibs.Math
