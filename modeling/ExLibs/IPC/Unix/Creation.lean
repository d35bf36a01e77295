/-
# What a failed `CreateIPC` leaves behind

`CreateIPC` acquires five things one after the other, and returns false as soon as one of them
fails. The wrappers close their descriptors, but remove no name, and nothing undoes the mapping.
So only a failure before the mapping can leave the system as it was, and then only if the call
has not created the segment of the server and left it there, or removed one that was there.
-/
import Mathlib.Logic.Function.Basic
import ExLibs.IPC.Unix.Descriptors

namespace ExLibs.IPC.Unix

/-- A segment of shared memory. -/
structure Segment where
  object : ℕ
  size : ℕ
  deriving DecidableEq

/-- The system as the process has it: the named objects, the mappings by the names of their
segments, the running servers and `mapIPC`. -/
structure System where
  shm : List Char → Option Segment
  sem : List Char → Option ℕ
  objects : ℕ
  mappings : List (List Char)
  servers : List StIPCShm
  mapIPC : List StIPCShm

namespace System

/-- What an event does to the system. The size is that of `stIPCData`. -/
def apply (size : ℕ) (s : System) : Event → System
  | .shmOpen _ sIPCName creates =>
    if creates && (s.shm sIPCName).isNone then
      { s with
        shm := Function.update s.shm sIPCName (some ⟨s.objects, 0⟩)
        objects := s.objects + 1 }
    else s
  | .ftruncate sIPCName =>
    let resized := (s.shm sIPCName).map fun segment => { segment with size }
    { s with shm := Function.update s.shm sIPCName resized }
  | .shmUnlink sIPCName => { s with shm := Function.update s.shm sIPCName none }
  | .semOpen _ sIPCName creates =>
    if creates && (s.sem sIPCName).isNone then
      { s with
        sem := Function.update s.sem sIPCName (some s.objects)
        objects := s.objects + 1 }
    else s
  | .semUnlink sIPCName => { s with sem := Function.update s.sem sIPCName none }
  | .mmap sIPCName => { s with mappings := s.mappings ++ [sIPCName] }
  | .insert shm =>
    { s with
      servers := s.servers ++ [shm]
      mapIPC := Process.register s.mapIPC (.insert shm) }
  | .remove sIPCName =>
    { s with
      servers := s.servers.filter fun shm => shm.sIPCName != sIPCName
      mapIPC := Process.register s.mapIPC (.remove sIPCName) }
  | .close _ | .semClose _ => s

/-- The system after a call. -/
def afterwards (size : ℕ) (s : System) (events : List Event) : System :=
  events.foldl (apply size) s

/-- Two systems are the same situation for `CreateIPC`: they have the same names bound to the
same objects, the same mappings, servers and registrations. -/
structure Same (s t : System) : Prop where
  shm : t.shm = s.shm
  sem : t.sem = s.sem
  mappings : t.mappings = s.mappings
  servers : t.servers = s.servers
  mapIPC : t.mapIPC = s.mapIPC

/-- A call of `CreateIPC` that returns false leaves the system as it was. -/
def AllOrNothing (size : ℕ) (s : System) (sIPCName : List Char) (os : CreateOutcomes) : Prop :=
  (createIPC s.mapIPC sIPCName os).2 = .returned false →
    s.Same (s.afterwards size (createIPC s.mapIPC sIPCName os).1)

end System

/-- `createShmIPC` returns a descriptor. -/
def ShmOutcomes.creates (mapIPC : List StIPCShm) (sIPCName : List Char) (os : ShmOutcomes) : Bool :=
  !isExistIPC mapIPC sIPCName && os.shmOpen && os.ftruncate != .failed

/-- All that `CreateIPC` acquires is acquired. -/
def CreateOutcomes.completes (mapIPC : List StIPCShm) (sIPCName : List Char)
    (os : CreateOutcomes) : Bool :=
  os.shm.creates mapIPC sIPCName && os.mmap &&
    os.dataShm.creates mapIPC (getDataIPCName sIPCName) && os.sem.semOpen && os.semData.semOpen

namespace System

/-- `CreateIPC` fails before it has done anything, or when it has left the segment of the server
as it was. -/
inductive FailsUndone (size : ℕ) (s : System) (sIPCName : List Char) (os : CreateOutcomes) : Prop
  | registered (exist : isExistIPC s.mapIPC sIPCName = true)
  | unopened (failed : os.shm.shmOpen = false)
  /-- The segment is removed exactly if it is new. -/
  | unsized (failed : os.shm.ftruncate = .failed)
    (removed : s.shm sIPCName = none ↔ sIPCName ≠ [] ∧ os.shm.shmUnlink = true)
  /-- The segment was there, of the size that it has now. -/
  | unmapped (failed : os.mmap = false) (sized : os.shm.ftruncate ≠ .failed)
    (existed : ∃ segment, s.shm sIPCName = some segment ∧
      (os.shm.ftruncate = .done → segment.size = size))

variable {size : ℕ} {s : System} {sIPCName : List Char} {os : CreateOutcomes}
  {mapIPC : List StIPCShm}

theorem Same.refl (s : System) : s.Same s := ⟨rfl, rfl, rfl, rfl, rfl⟩

theorem afterwards_append (front back : List Event) :
    s.afterwards size (front ++ back) = (s.afterwards size front).afterwards size back :=
  List.foldl_append

/-- The mappings that an event makes. -/
def mapped : Event → List (List Char)
  | .mmap sIPCName => [sIPCName]
  | _ => []

/-- No event undoes a mapping. -/
theorem mappings_afterwards (events : List Event) :
    (s.afterwards size events).mappings = s.mappings ++ events.flatMap mapped := by
  induction events generalizing s with
  | nil => exact (List.append_nil _).symm
  | cons event events ih =>
    have step : (s.apply size event).mappings = s.mappings ++ mapped event := by
      cases event with
      | mmap sIPCName => rfl
      | shmOpen | semOpen =>
        simp only [apply, mapped, List.append_nil]
        split <;> rfl
      | _ => exact (List.append_nil _).symm
    rw [afterwards, List.foldl_cons, ← afterwards, ih, step, List.flatMap_cons, List.append_assoc]

/-- A call that maps its segment never leaves the system as it was. -/
theorem not_same_of_mmap {events : List Event} (maps : .mmap sIPCName ∈ events) :
    ¬ s.Same (s.afterwards size events) := by
  intro same
  have kept := same.mappings
  rw [mappings_afterwards] at kept
  have nothing : events.flatMap mapped = [] :=
    List.append_cancel_left (kept.trans (List.append_nil _).symm)
  exact nomatch List.flatMap_eq_nil_iff.mp nothing _ maps

theorem createShm_snd {w : Wrapper} {shm : ShmOutcomes} :
    (createShm w mapIPC sIPCName shm).2 = shm.creates mapIPC sIPCName := by
  unfold createShm ShmOutcomes.creates
  split
  · simp [*]
  · split
    · cases shm.ftruncate <;> simp [*]
    · simp [*]

/-- A call that gets past its mapping returns false exactly if something else is not acquired,
and has mapped its segment. -/
theorem createIPC_of_mapped (created : os.shm.creates mapIPC sIPCName = true)
    (maps : os.mmap = true) :
    ((createIPC mapIPC sIPCName os).2 = .returned false ↔ os.completes mapIPC sIPCName = false) ∧
      .mmap sIPCName ∈ (createIPC mapIPC sIPCName os).1 := by
  simp only [createIPC, scope, after, createShm_snd, created, maps, CreateOutcomes.completes]
  constructor
  · cases dataShm : os.dataShm.creates mapIPC (getDataIPCName sIPCName) with
    | false => simp
    | true =>
      cases sem : os.sem.semOpen with
      | false => simp [createSem, sem]
      | true =>
        cases semData : os.semData.semOpen with
        | false => simp [createSem, sem, semData]
        | true => cases os.thread <;> simp [createSem, sem, semData]
  · simp

/-- The name of a segment is bound anew. -/
def rebind (s : System) (sIPCName : List Char) (segment : Option Segment) (objects : ℕ) : System :=
  { s with shm := Function.update s.shm sIPCName segment, objects }

theorem same_rebind_iff {segment : Option Segment} {objects : ℕ} :
    s.Same (s.rebind sIPCName segment objects) ↔ segment = s.shm sIPCName := by
  constructor
  · intro same
    simpa [rebind] using congrFun same.shm sIPCName
  · rintro rfl
    exact ⟨Function.update_eq_self .., rfl, rfl, rfl, rfl⟩

/-- A name that is not bound is bound to a new segment, which is empty. -/
theorem apply_shmOpen_of_none {w : Wrapper} (unbound : s.shm sIPCName = none) :
    s.apply size (.shmOpen w sIPCName true) =
      s.rebind sIPCName (some ⟨s.objects, 0⟩) (s.objects + 1) := by
  simp [apply, unbound, rebind]

theorem apply_shmOpen_of_some {w : Wrapper} {segment : Segment}
    (bound : s.shm sIPCName = some segment) : s.apply size (.shmOpen w sIPCName true) = s := by
  simp [apply, bound]

/-- A segment that cannot be given its size is unlinked again. -/
theorem same_of_unsized_iff {w : Wrapper} {shmUnlink : Bool} :
    s.Same (s.afterwards size
      ([.shmOpen w sIPCName true, .close w] ++ unlinkShm sIPCName shmUnlink)) ↔
        (s.shm sIPCName = none ↔ sIPCName ≠ [] ∧ shmUnlink = true) := by
  have unlinks : unlinkShm sIPCName shmUnlink =
      if sIPCName ≠ [] ∧ shmUnlink = true then [.shmUnlink sIPCName] else [] := by
    simp [unlinkShm]
  have opened : s.afterwards size [.shmOpen w sIPCName true, .close w] =
      s.apply size (.shmOpen w sIPCName true) := rfl
  rw [afterwards_append, opened, unlinks]
  cases bound : s.shm sIPCName with
  | none =>
    rw [apply_shmOpen_of_none bound]
    split
    · rename_i unlinked
      have gone : (s.rebind sIPCName (some ⟨s.objects, 0⟩) (s.objects + 1)).afterwards size
          [.shmUnlink sIPCName] = s.rebind sIPCName none (s.objects + 1) := by
        simp [afterwards, apply, rebind]
      rw [gone, same_rebind_iff]
      exact iff_of_true bound.symm (iff_of_true rfl unlinked)
    · rename_i kept
      refine same_rebind_iff.trans ?_
      rw [bound]
      exact iff_of_false nofun fun both => kept (both.mp rfl)
  | some segment =>
    rw [apply_shmOpen_of_some bound]
    split
    · rename_i unlinked
      have gone : s.afterwards size [.shmUnlink sIPCName] = s.rebind sIPCName none s.objects := rfl
      rw [gone, same_rebind_iff, bound]
      exact iff_of_false nofun fun both => nomatch both.mpr unlinked
    · rename_i kept
      exact iff_of_true (.refl s) (iff_of_false nofun kept)

/-- A segment that is not mapped stays, of the size that it has been given. -/
theorem same_of_unmapped_iff {w : Wrapper} {shm : ShmOutcomes}
    (created : shm.creates s.mapIPC sIPCName = true) :
    s.Same (s.afterwards size (createShm w s.mapIPC sIPCName shm).1) ↔
      ∃ segment, s.shm sIPCName = some segment ∧ (shm.ftruncate = .done → segment.size = size) := by
  obtain ⟨shmOpen, ftruncate, shmUnlink⟩ := shm
  simp only [ShmOutcomes.creates, Bool.and_eq_true, Bool.not_eq_true', bne_iff_ne] at created
  obtain ⟨⟨other, rfl⟩, sized⟩ := created
  simp only [createShm, other, Bool.false_eq_true, if_false, if_true]
  cases ftruncate with
  | done =>
    have resized : s.afterwards size [.shmOpen w sIPCName true, .ftruncate sIPCName] =
        (s.apply size (.shmOpen w sIPCName true)).apply size (.ftruncate sIPCName) := rfl
    rw [resized]
    cases bound : s.shm sIPCName with
    | none =>
      rw [apply_shmOpen_of_none bound]
      have new : (s.rebind sIPCName (some ⟨s.objects, 0⟩) (s.objects + 1)).apply size
          (.ftruncate sIPCName) = s.rebind sIPCName (some ⟨s.objects, size⟩) (s.objects + 1) := by
        simp [apply, rebind]
      rw [new, same_rebind_iff, bound]
      exact iff_of_false nofun nofun
    | some segment =>
      rw [apply_shmOpen_of_some bound]
      have old : s.apply size (.ftruncate sIPCName) =
          s.rebind sIPCName (some { segment with size }) s.objects := by
        simp [apply, rebind, bound]
      rw [old, same_rebind_iff, bound]
      constructor
      · intro same
        exact ⟨segment, rfl, fun _ => congrArg Segment.size (Option.some.inj same).symm⟩
      · rintro ⟨_, ⟨⟩, fits⟩
        rw [← fits rfl]
  | invalid =>
    have opened : s.afterwards size [.shmOpen w sIPCName true] =
        s.apply size (.shmOpen w sIPCName true) := rfl
    rw [opened]
    cases bound : s.shm sIPCName with
    | none =>
      rw [apply_shmOpen_of_none bound, same_rebind_iff, bound]
      exact iff_of_false nofun nofun
    | some segment =>
      rw [apply_shmOpen_of_some bound]
      exact iff_of_true (.refl s) ⟨segment, rfl, nofun⟩
  | failed => exact absurd rfl sized

theorem created_iff {shm : ShmOutcomes} : shm.creates mapIPC sIPCName = true ↔
    isExistIPC mapIPC sIPCName = false ∧ shm.shmOpen = true ∧ shm.ftruncate ≠ .failed := by
  simp [ShmOutcomes.creates, and_assoc]

/-- What the creation of the segment of the server has done when it fails. -/
theorem same_of_uncreated_iff {w : Wrapper} (failed : os.shm.creates s.mapIPC sIPCName = false) :
    s.Same (s.afterwards size (createShm w s.mapIPC sIPCName os.shm).1) ↔
      s.FailsUndone size sIPCName os := by
  cases exist : isExistIPC s.mapIPC sIPCName with
  | true =>
    rw [createShm, if_pos exist]
    exact iff_of_true (.refl s) (.registered exist)
  | false =>
    cases opened : os.shm.shmOpen with
    | false =>
      simp only [createShm, exist, opened, Bool.false_eq_true, if_false]
      exact iff_of_true (.refl s) (.unopened opened)
    | true =>
      have unsized : os.shm.ftruncate = .failed := by
        by_contra sized
        exact nomatch failed.symm.trans (created_iff.mpr ⟨exist, opened, sized⟩)
      simp only [createShm, exist, opened, unsized, Bool.false_eq_true, if_false, if_true]
      rw [same_of_unsized_iff]
      constructor
      · exact .unsized unsized
      · intro undone
        cases undone with
        | registered exist' => exact nomatch exist.symm.trans exist'
        | unopened unopened => exact nomatch opened.symm.trans unopened
        | unsized _ removed => exact removed
        | unmapped _ sized => exact absurd unsized sized

/-- A call that creates the segment of the server fails undone only if it does not map it. -/
theorem failsUndone_iff_of_created (created : os.shm.creates s.mapIPC sIPCName = true) :
    s.FailsUndone size sIPCName os ↔ os.mmap = false ∧ ∃ segment, s.shm sIPCName = some segment ∧
      (os.shm.ftruncate = .done → segment.size = size) := by
  obtain ⟨other, opened, sized⟩ := created_iff.mp created
  constructor
  · intro undone
    cases undone with
    | registered exist => exact nomatch other.symm.trans exist
    | unopened unopened => exact nomatch opened.symm.trans unopened
    | unsized unsized => exact absurd unsized sized
    | unmapped unmapped _ existed => exact ⟨unmapped, existed⟩
  · rintro ⟨unmapped, existed⟩
    exact .unmapped unmapped sized existed

/-- `CreateIPC` is all or nothing exactly if it acquires all that it is to, or fails before its
mapping without a change to the segment of the server. -/
theorem allOrNothing_iff_failsUndone (size : ℕ) (s : System) (sIPCName : List Char)
    (os : CreateOutcomes) : s.AllOrNothing size sIPCName os ↔
      os.completes s.mapIPC sIPCName = true ∨ s.FailsUndone size sIPCName os := by
  unfold AllOrNothing
  cases created : os.shm.creates s.mapIPC sIPCName with
  | false =>
    have ends : createIPC s.mapIPC sIPCName os =
        ((createShm .shmfd s.mapIPC sIPCName os.shm).1, .returned false) := by
      simp [createIPC, scope, createShm_snd, created, closeShm]
    rw [ends, forall_prop_of_true rfl, same_of_uncreated_iff created]
    simp [CreateOutcomes.completes, created]
  | true =>
    rw [failsUndone_iff_of_created created]
    cases maps : os.mmap with
    | false =>
      have ends : createIPC s.mapIPC sIPCName os =
          ((createShm .shmfd s.mapIPC sIPCName os.shm).1 ++ [.close .shmfd], .returned false) := by
        simp [createIPC, scope, createShm_snd, created, closeShm, maps]
      have closed : s.afterwards size ((createShm .shmfd s.mapIPC sIPCName os.shm).1 ++
          [.close .shmfd]) = s.afterwards size (createShm .shmfd s.mapIPC sIPCName os.shm).1 :=
        afterwards_append ..
      rw [ends, forall_prop_of_true rfl, closed, same_of_unmapped_iff created]
      simp [CreateOutcomes.completes, maps]
    | true =>
      -- the mapping stays, so that nothing may fail from here on
      obtain ⟨fails, mapping⟩ := createIPC_of_mapped created maps
      rw [fails]
      have stays : ¬ s.Same (s.afterwards size (createIPC s.mapIPC sIPCName os).1) :=
        not_same_of_mmap mapping
      simp [stays]

/-- Nothing is there yet. -/
def empty : System := ⟨fun _ => none, fun _ => none, 0, [], [], []⟩

/-- The data segment cannot be opened: the segment of the server and its mapping remain. -/
theorem not_allOrNothing_of_data :
    ¬ ∀ size s sIPCName os, AllOrNothing size s sIPCName os := by
  intro all
  let os : CreateOutcomes := { Process.succeeding with dataShm := ⟨false, .done, true⟩ }
  have mapped : os.shm.creates empty.mapIPC ['a'] = true := rfl
  exact not_same_of_mmap (createIPC_of_mapped mapped rfl).2 (all 1 empty ['a'] os rfl)

end System

end ExLibs.IPC.Unix
