/-
# The handles of databases

What a manager hands out over a run of `InitDB`, `GetDB` and `Close`. The entry of a database, its
object and the handle of the object are made together. `Close` closes the handle, and leaves the
object and the entry as they are, so that the database is there for any later call. An `InitDB`
that has prepared a statement does not come back, so that only the application's own statements
keep a handle from being closed.
-/
import ExLibs.Math.Record
import ExLibs.SQLite.Retries

namespace ExLibs.SQLite

open ExLibs.Math

namespace CSQLiteMgr

variable {answers : Answers} {dbInfo : DbInfo} {m : CSQLiteMgr}

/-- `InitDB` calls `sqlite3_open16`. -/
def callsOpen (dbInfo : DbInfo) (m : CSQLiteMgr) : Bool :=
  dbInfo.sFilePath != "" && dbInfo.sDBName != "" && !m.isExistDBInfo dbInfo.sDBName &&
    (m.files dbInfo.sFilePath).isExistFile.isSome

theorem opens_iff_callsOpen :
    m.Opens answers dbInfo ↔ m.callsOpen dbInfo = true ∧ answers.opens = true := by
  have accessible : (m.files dbInfo.sFilePath).isExistFile.isSome = true ↔
      m.files dbInfo.sFilePath ≠ .inaccessible := by
    cases m.files dbInfo.sFilePath <;> simp [FileStatus.isExistFile]
  simp only [callsOpen, Bool.and_eq_true, bne_iff_ne, Bool.not_eq_true', accessible]
  constructor
  · rintro ⟨named, isNew, accessible, opens⟩
    exact ⟨⟨⟨named, isNew⟩, accessible⟩, opens⟩
  · rintro ⟨⟨⟨named, isNew⟩, accessible⟩, opens⟩
    exact ⟨named, isNew, accessible, opens⟩

/-- A call that opens its database enters it in the map, whatever comes of it. -/
theorem mapNameToInfo_initDB (opens : m.Opens answers dbInfo) :
    (m.initDB answers dbInfo).2.mapNameToInfo = Function.update m.mapNameToInfo dbInfo.sDBName
      (some { dbInfo with spSQLite := some ⟨dbInfo.sFilePath⟩ }) := by
  obtain ⟨isExist, -, initDB_eq⟩ := initDB_of_opens opens
  rw [initDB_eq]
  by_cases journals : Journals answers dbInfo
  · obtain ⟨inEffect, aborts⟩ := @setJournal_of_journals _ _ (m.publish dbInfo) journals
    rw [aborts]
    exact mapNameToInfo_write
  · rw [setJournal_of_not_journals journals]
    -- it throws, has no JSON, trusts its file or creates the schema
    dsimp only
    split
    · rfl
    · split
      · rfl
      · split
        · rfl
        · unfold createSchema
          split
          · exact mapNameToInfo_write
          · exact mapNameToInfo_write

/-- A call for a database that is there returns `true`. -/
theorem initDB_of_isExistDBInfo (named : ¬ (dbInfo.sFilePath = "" ∨ dbInfo.sDBName = ""))
    (present : m.isExistDBInfo dbInfo.sDBName = true) :
    m.initDB answers dbInfo = (.ret true, m) := by
  rw [initDB, if_neg named, if_pos present]

end CSQLiteMgr

/-- What happens to the handles of databases. -/
inductive Handles.Event
  /-- `sqlite3_open16` opens a database. -/
  | opened (sDBName : String) (db : ℕ)
  /-- `sqlite3_open16` fails, but gives a handle. -/
  | unopened (db : ℕ)
  /-- `sqlite3_close` succeeds. -/
  | closed (db : ℕ)
  /-- `GetDB` returns an object that has the handle. -/
  | returned (db : ℕ)
  /-- `InitDB` returns `true`. -/
  | initialized (sDBName : String)
  /-- `Close` returns `true`. -/
  | released (sDBName : String)
  deriving DecidableEq

/-- The manager, with the handles that SQLite has given it. -/
structure Handles where
  mgr : CSQLiteMgr
  /-- What `Data` gives for the object of an entry. -/
  data : String → ℕ := fun _ => 0
  /-- How many handles there have been. -/
  opened : ℕ := 0
  log : List Handles.Event := []

namespace Handles

/-- A call. -/
inductive Label
  /-- The files are those that the call finds. -/
  | initDB (files : String → FileStatus) (answers : Answers) (dbInfo : DbInfo)
  | getDB (sDBName : String)
  /-- `sqlite3_close` succeeds, or does not. -/
  | close (sDBName : String) (closes : Bool)

/-- `InitDB`. -/
def initDB (s : Handles) (files : String → FileStatus) (answers : Answers) (dbInfo : DbInfo) :
    Handles :=
  let found := { s.mgr with files }
  let called := found.initDB answers dbInfo
  let mgr := called.2
  let returns := if called.1 = .ret true then [.initialized dbInfo.sDBName] else []
  if found.callsOpen dbInfo then
    if answers.opens then
      { mgr
        data := Function.update s.data dbInfo.sDBName s.opened
        opened := s.opened + 1
        log := s.log ++ (.opened dbInfo.sDBName s.opened :: returns) }
    -- the handle of a database that is not opened is closed at once
    else { s with
      mgr
      opened := s.opened + 1
      log := s.log ++ (.unopened s.opened :: .closed s.opened :: returns) }
  else { s with mgr, log := s.log ++ returns }

/-- `GetDB`. -/
def getDB (s : Handles) (sDBName : String) : Handles :=
  match s.mgr.getDB sDBName with
  | none => s
  | some _ => { s with log := s.log ++ [.returned (s.data sDBName)] }

/-- `Close`, which gets the object by `GetDB`. -/
def close (s : Handles) (sDBName : String) (closes : Bool) : Handles :=
  let s := s.getDB sDBName
  match s.mgr.getDB sDBName with
  | none => s
  | some _ =>
    if closes then { s with log := s.log ++ [.closed (s.data sDBName), .released sDBName] } else s

/-- A call, unless it ends the process. -/
def step (s : Handles) : Label → Option Handles
  | .initDB files answers dbInfo =>
    let found := { s.mgr with files }
    if (found.initDB answers dbInfo).1 = .aborts then none
    else some (s.initDB files answers dbInfo)
  | .getDB sDBName => some (s.getDB sDBName)
  | .close sDBName closes => some (s.close sDBName closes)

/-- What may happen, after what has happened. -/
def Permits (before : List Event) : Event → Prop
  -- no handle is closed twice
  | .closed db => .closed db ∉ before
  -- no handle is handed out that has been closed
  | .returned db => .closed db ∉ before
  -- since each `Close` of the database it has been opened, with a handle that is new
  | .initialized sDBName => ∀ front since, before = front ++ .released sDBName :: since →
      ∃ db, .opened sDBName db ∈ since ∧ ∀ other, .opened other db ∉ front
  | _ => True

/-- No closed handle has been handed out. -/
def Fresh (s : Handles) : Prop := Lawful Permits s.log

/-- A call is for a database that has not been closed, unless it comes to nothing. -/
def Spares (s : Handles) : Label → Prop
  | .initDB _ _ dbInfo => dbInfo.sFilePath = "" ∨ .released dbInfo.sDBName ∉ s.log
  | .getDB sDBName | .close sDBName _ => .released sDBName ∉ s.log

section Calls

variable {s t : Handles} {files : String → FileStatus} {answers : Answers} {dbInfo : DbInfo}
  {sDBName : String} {label : Label} {labels : List Label}

/-- What a call of `InitDB` does. -/
inductive Inits (s : Handles) (dbInfo : DbInfo) : Handles → Prop
  /-- It returns `false`, or throws. -/
  | fails (files : String → FileStatus)
      (unnamed : dbInfo.sFilePath = "" ∨ dbInfo.sDBName = "" ∨
        s.mgr.isExistDBInfo dbInfo.sDBName = false) :
      Inits s dbInfo { s with mgr := { s.mgr with files } }
  /-- The database is there. -/
  | present (files : String → FileStatus) (named : dbInfo.sFilePath ≠ "")
      (present : s.mgr.isExistDBInfo dbInfo.sDBName = true) :
      Inits s dbInfo { s with
        mgr := { s.mgr with files }
        log := s.log ++ [.initialized dbInfo.sDBName] }
  | unopened (files : String → FileStatus) (isNew : s.mgr.isExistDBInfo dbInfo.sDBName = false) :
      Inits s dbInfo { s with
        mgr := { s.mgr with files }
        opened := s.opened + 1
        log := s.log ++ [.unopened s.opened, .closed s.opened] }
  | opens (mgr : CSQLiteMgr) (returns : List Event) (named : dbInfo.sDBName ≠ "")
      (isNew : s.mgr.isExistDBInfo dbInfo.sDBName = false)
      (entered : mgr.mapNameToInfo = Function.update s.mgr.mapNameToInfo dbInfo.sDBName
        (some { dbInfo with spSQLite := some ⟨dbInfo.sFilePath⟩ }))
      (returned : returns = [] ∨ returns = [.initialized dbInfo.sDBName]) :
      Inits s dbInfo
        { mgr
          data := Function.update s.data dbInfo.sDBName s.opened
          opened := s.opened + 1
          log := s.log ++ (.opened dbInfo.sDBName s.opened :: returns) }

theorem inits_initDB : s.Inits dbInfo (s.initDB files answers dbInfo) := by
  let found := { s.mgr with files }
  unfold initDB
  by_cases calls : found.callsOpen dbInfo = true
  · have isNew : found.isExistDBInfo dbInfo.sDBName = false := by
      simp only [CSQLiteMgr.callsOpen, Bool.and_eq_true, Bool.not_eq_true'] at calls
      exact calls.1.2
    rw [if_pos calls]
    cases opens : answers.opens with
    | true =>
      have opening : found.Opens answers dbInfo :=
        CSQLiteMgr.opens_iff_callsOpen.mpr ⟨calls, opens⟩
      refine .opens _ _ opening.named.2 isNew (CSQLiteMgr.mapNameToInfo_initDB opening) ?_
      exact (ite_eq_or_eq ..).symm
    | false =>
      have closed : ¬ found.Opens answers dbInfo := fun opening =>
        nomatch opens.symm.trans opening.opens
      obtain ⟨same, -, present⟩ := CSQLiteMgr.initDB_of_not_opens closed
      have returns : (found.initDB answers dbInfo).1 ≠ .ret true := fun succeeds =>
        nomatch isNew.symm.trans (present succeeds)
      rw [if_neg Bool.false_ne_true, same, if_neg returns]
      exact .unopened files isNew
  · have closed : ¬ found.Opens answers dbInfo := fun opening =>
      calls (CSQLiteMgr.opens_iff_callsOpen.mp opening).1
    obtain ⟨same, -, isThere⟩ := CSQLiteMgr.initDB_of_not_opens closed
    rw [if_neg calls, same]
    by_cases succeeds : (found.initDB answers dbInfo).1 = .ret true
    · rw [if_pos succeeds]
      refine .present files (fun unnamed => ?_) (isThere succeeds)
      rw [CSQLiteMgr.initDB, if_pos (.inl unnamed)] at succeeds
      cases succeeds
    · rw [if_neg succeeds, List.append_nil]
      refine .fails files ?_
      by_contra named
      rw [← or_assoc, not_or, Bool.not_eq_false] at named
      have called : found.initDB answers dbInfo = (.ret true, found) :=
        CSQLiteMgr.initDB_of_isExistDBInfo named.1 named.2
      exact succeeds (congrArg Prod.fst called)

/-- What is kept of the databases over a run. -/
structure Sound (s : Handles) : Prop where
  unnamed : s.mgr.isExistDBInfo "" = false
  objects : ∀ sDBName, (s.mgr.getDB sDBName).isSome = s.mgr.isExistDBInfo sDBName
  issued : ∀ sDBName, s.mgr.isExistDBInfo sDBName = true → s.data sDBName < s.opened
  distinct : ∀ sDBName other, s.mgr.isExistDBInfo sDBName = true →
    s.mgr.isExistDBInfo other = true → s.data sDBName = s.data other → sDBName = other
  closed_lt : ∀ db, .closed db ∈ s.log → db < s.opened
  closed_iff : ∀ sDBName, s.mgr.isExistDBInfo sDBName = true →
    (.closed (s.data sDBName) ∈ s.log ↔ .released sDBName ∈ s.log)
  released : ∀ sDBName, .released sDBName ∈ s.log → s.mgr.isExistDBInfo sDBName = true
  /-- No database is opened again. -/
  last : Lawful (fun before event => ∀ sDBName db, event = .opened sDBName db →
    .released sDBName ∉ before) s.log

/-- The manager has been made. -/
def start (files : String → FileStatus) : Handles := { mgr := { files } }

theorem sound_start : (start files).Sound where
  unnamed := rfl
  objects _ := rfl
  issued _ := nofun
  distinct _ _ := nofun
  closed_lt _ := nofun
  closed_iff _ := nofun
  released _ := nofun
  last := .nil

/-- A step that opens no database leaves the entries as they are. -/
theorem Sound.append {mgr : CSQLiteMgr} {opened : ℕ} {events : List Event} (sound : s.Sound)
    (same : mgr.mapNameToInfo = s.mgr.mapNameToInfo) (le : s.opened ≤ opened)
    (closes : ∀ db, .closed db ∈ events → db < opened)
    (closes_iff : ∀ sDBName, s.mgr.isExistDBInfo sDBName = true →
      (.closed (s.data sDBName) ∈ events ↔ .released sDBName ∈ events))
    (releases : ∀ sDBName, .released sDBName ∈ events → s.mgr.isExistDBInfo sDBName = true)
    (opens : ∀ sDBName db, .opened sDBName db ∉ events) :
    Sound { s with mgr, opened, log := s.log ++ events } := by
  have exist : mgr.isExistDBInfo = s.mgr.isExistDBInfo := by
    funext sDBName
    rw [CSQLiteMgr.isExistDBInfo, same, CSQLiteMgr.isExistDBInfo]
  have get : mgr.getDB = s.mgr.getDB := by
    funext sDBName
    rw [CSQLiteMgr.getDB, same, CSQLiteMgr.getDB]
  constructor
  · exact exist ▸ sound.unnamed
  · exact get ▸ exist ▸ sound.objects
  · exact exist ▸ fun sDBName present => Nat.lt_of_lt_of_le (sound.issued sDBName present) le
  · exact exist ▸ sound.distinct
  · intro db member
    rcases List.mem_append.mp member with before | new
    · exact Nat.lt_of_lt_of_le (sound.closed_lt db before) le
    · exact closes db new
  · intro sDBName present
    rw [exist] at present
    simp only [List.mem_append, sound.closed_iff sDBName present, closes_iff sDBName present]
  · intro sDBName member
    rw [exist]
    exact (List.mem_append.mp member).elim (sound.released sDBName) (releases sDBName)
  · refine sound.last.append fun event member before sDBName db same => ?_
    exact absurd (same ▸ member) (opens sDBName db)

theorem Sound.getDB (sound : s.Sound) : (s.getDB sDBName).Sound := by
  unfold Handles.getDB
  split
  · exact sound
  · exact sound.append rfl (Nat.le_refl _) (by simp) (by simp) (by simp) (by simp)

/-- An object is there exactly if its entry is. -/
theorem Sound.getDB_eq_none_iff (sound : s.Sound) :
    s.mgr.getDB sDBName = none ↔ s.mgr.isExistDBInfo sDBName = false := by
  rw [← sound.objects sDBName, Option.isSome_eq_false_iff, Option.isNone_iff_eq_none]

theorem Sound.isExistDBInfo_of_getDB {db : CSQLiteDB} (sound : s.Sound)
    (found : s.mgr.getDB sDBName = some db) : s.mgr.isExistDBInfo sDBName = true := by
  rw [← sound.objects sDBName, found, Option.isSome_some]

/-- The next handle has not been closed yet. -/
theorem Sound.closed_opened_notMem (sound : s.Sound) : .closed s.opened ∉ s.log := fun member =>
  Nat.lt_irrefl _ (sound.closed_lt _ member)

theorem Sound.close {closes : Bool} (sound : s.Sound) : (s.close sDBName closes).Sound := by
  unfold Handles.close
  dsimp only
  cases found : (s.getDB sDBName).mgr.getDB sDBName with
  | none => exact sound.getDB
  | some db =>
    have present := sound.getDB.isExistDBInfo_of_getDB found
    cases closes with
    | false => exact sound.getDB
    | true =>
      refine sound.getDB.append rfl (Nat.le_refl _) ?_ ?_ ?_ (by simp)
      · simpa using sound.getDB.issued sDBName present
      · -- no other entry has this handle
        intro other isThere
        have same : (s.getDB sDBName).data other = (s.getDB sDBName).data sDBName ↔
            other = sDBName :=
          ⟨sound.getDB.distinct other sDBName isThere present, congrArg _⟩
        simpa using same
      · simpa using present

theorem Sound.not_released (sound : s.Sound) (isNew : s.mgr.isExistDBInfo sDBName = false) :
    .released sDBName ∉ s.log := fun member =>
  nomatch isNew.symm.trans (sound.released sDBName member)

/-- A database is entered with a handle of its own. -/
theorem Sound.enter {mgr : CSQLiteMgr} {info : DbInfo} {db : CSQLiteDB} (sound : s.Sound)
    (named : sDBName ≠ "") (isNew : s.mgr.isExistDBInfo sDBName = false)
    (has : info.spSQLite = some db)
    (entered : mgr.mapNameToInfo = Function.update s.mgr.mapNameToInfo sDBName (some info)) :
    Sound
      { mgr
        data := Function.update s.data sDBName s.opened
        opened := s.opened + 1
        log := s.log ++ [.opened sDBName s.opened] } := by
  have there : mgr.isExistDBInfo sDBName = true := by
    rw [CSQLiteMgr.isExistDBInfo, entered, Function.update_self, Option.isSome_some]
  let data := Function.update s.data sDBName s.opened
  have own : data sDBName = s.opened := Function.update_self ..
  have others {other : String} (differs : other ≠ sDBName) :
      mgr.isExistDBInfo other = s.mgr.isExistDBInfo other ∧ data other = s.data other := by
    rw [CSQLiteMgr.isExistDBInfo, entered, Function.update_of_ne differs]
    exact ⟨rfl, Function.update_of_ne differs ..⟩
  have issued {other : String} (differs : other ≠ sDBName)
      (present : mgr.isExistDBInfo other = true) : data other < s.opened := by
    rw [(others differs).2]
    exact sound.issued other ((others differs).1 ▸ present)
  have apart {other : String} (differs : other ≠ sDBName)
      (present : mgr.isExistDBInfo other = true) : data other ≠ data sDBName := by
    rw [own]
    exact Nat.ne_of_lt (issued differs present)
  constructor
  · exact (others named.symm).1.trans sound.unnamed
  · intro other
    by_cases same : other = sDBName
    · subst same
      rw [there, CSQLiteMgr.getDB, entered, Function.update_self, Option.bind_some, has,
        Option.isSome_some]
    · rw [(others same).1, ← sound.objects other, CSQLiteMgr.getDB, entered,
        Function.update_of_ne same, CSQLiteMgr.getDB]
  · intro other present
    by_cases same : other = sDBName
    · subst same
      exact Nat.lt_succ_of_le (Nat.le_of_eq own)
    · exact Nat.lt_succ_of_lt (issued same present)
  · intro first second isThere isHere shared
    change data first = data second at shared
    by_cases same : first = sDBName
    · by_contra differs
      exact apart (fun same' => differs (same.trans same'.symm)) isHere (same ▸ shared.symm)
    by_cases same' : second = sDBName
    · exact absurd (same' ▸ shared) (apart same isThere)
    -- neither of them is the new one
    rw [(others same).2, (others same').2] at shared
    exact sound.distinct first second ((others same).1 ▸ isThere) ((others same').1 ▸ isHere) shared
  · intro db member
    exact Nat.lt_succ_of_lt (sound.closed_lt db (by simpa using member))
  · intro other present
    change Event.closed (data other) ∈ _ ↔ _
    by_cases same : other = sDBName
    · subst same
      -- the handle is new, and so is the entry
      simpa [own] using iff_of_false sound.closed_opened_notMem (sound.not_released isNew)
    · simpa [(others same).2] using sound.closed_iff other ((others same).1 ▸ present)
  · intro other member
    by_cases same : other = sDBName
    · exact same ▸ there
    · exact (others same).1.trans (sound.released other (by simpa using member))
  · refine .snoc sound.last fun other db same => ?_
    obtain ⟨rfl, rfl⟩ := Event.opened.inj same
    exact sound.not_released isNew

theorem Inits.sound (inits : s.Inits dbInfo t) (sound : s.Sound) : t.Sound := by
  cases inits with
  | fails files unnamed =>
    have same : Sound { s with mgr := { s.mgr with files }, log := s.log ++ [] } :=
      sound.append rfl (Nat.le_refl _) (by simp) (by simp) (by simp) (by simp)
    rwa [List.append_nil] at same
  | present files named present =>
    exact sound.append rfl (Nat.le_refl _) (by simp) (by simp) (by simp) (by simp)
  | unopened files isNew =>
    refine sound.append rfl (Nat.le_succ _) (by simp) ?_ (by simp) (by simp)
    intro sDBName present
    simpa using Nat.ne_of_lt (sound.issued sDBName present)
  | opens mgr returns named isNew entered returned =>
    have whole : Sound
        { mgr
          data := Function.update s.data dbInfo.sDBName s.opened
          opened := s.opened + 1
          log := (s.log ++ [.opened dbInfo.sDBName s.opened]) ++ returns } := by
      have entered := sound.enter named isNew rfl entered
      rcases returned with rfl | rfl
      · exact entered.append rfl (Nat.le_refl _) (by simp) (by simp) (by simp) (by simp)
      · exact entered.append rfl (Nat.le_refl _) (by simp) (by simp) (by simp) (by simp)
    rwa [List.append_assoc] at whole

/-- A call of `InitDB` that does not end the process. -/
theorem initDB_of_step (next : s.step (.initDB files answers dbInfo) = some t) :
    s.initDB files answers dbInfo = t := by
  simp only [step] at next
  split_ifs at next
  exact Option.some.inj next

theorem sound_of_step (sound : s.Sound) (next : s.step label = some t) : t.Sound := by
  cases label with
  | initDB files answers dbInfo =>
    obtain rfl := initDB_of_step next
    exact inits_initDB.sound sound
  | getDB sDBName =>
    obtain rfl := Option.some.inj next
    exact sound.getDB
  | close sDBName closes =>
    obtain rfl := Option.some.inj next
    exact sound.close

/-- A database that has been closed is not opened again before `InitDB` returns. -/
theorem Sound.permits_initialized_iff (sound : s.Sound) :
    Permits s.log (.initialized sDBName) ↔ .released sDBName ∉ s.log := by
  constructor
  · intro permitted released
    obtain ⟨front, since, whole⟩ := List.append_of_mem released
    obtain ⟨db, opened, -⟩ := permitted front since whole
    obtain ⟨between, later, rfl⟩ := List.append_of_mem opened
    have last := sound.last
    rw [whole, ← List.cons_append, ← List.append_assoc] at last
    exact last.permitted sDBName db rfl (by simp)
  · intro kept front since whole
    exact absurd (whole ▸ List.mem_append_right _ List.mem_cons_self) kept

theorem Inits.fresh_iff (inits : s.Inits dbInfo t) (sound : s.Sound) :
    t.Fresh ↔ s.Fresh ∧ (dbInfo.sFilePath = "" ∨ .released dbInfo.sDBName ∉ s.log) := by
  cases inits with
  | fails files unnamed =>
    have spares : dbInfo.sFilePath = "" ∨ .released dbInfo.sDBName ∉ s.log := by
      rcases unnamed with empty | empty | isNew
      · exact .inl empty
      · exact .inr (sound.not_released (empty ▸ sound.unnamed))
      · exact .inr (sound.not_released isNew)
    exact (and_iff_left spares).symm
  | present files named present =>
    rw [Fresh, lawful_concat, sound.permits_initialized_iff]
    simp only [named, false_or, Fresh]
  | unopened files isNew =>
    rw [Fresh, lawful_concat_two]
    simp [Permits, Fresh, sound.closed_opened_notMem, sound.not_released isNew]
  | opens mgr returns named isNew entered returned =>
    have kept := sound.not_released isNew
    have opens : Lawful Permits (s.log ++ [.opened dbInfo.sDBName s.opened]) ↔ s.Fresh :=
      lawful_concat.trans (and_iff_left trivial)
    have whole : Lawful Permits (s.log ++ (.opened dbInfo.sDBName s.opened :: returns)) ↔
        s.Fresh := by
      rw [List.append_cons]
      rcases returned with rfl | rfl
      · rw [List.append_nil, opens]
      · rw [lawful_concat, opens, and_iff_left_iff_imp]
        intro _ front since same
        have member : .released dbInfo.sDBName ∈ s.log ++ [.opened dbInfo.sDBName s.opened] :=
          same ▸ List.mem_append_right _ List.mem_cons_self
        exact absurd (by simpa using member) kept
    rw [Fresh, whole, and_iff_left (.inr kept)]

/-- `GetDB` hands out a handle that is open exactly if its database has not been closed. -/
theorem Sound.fresh_getDB_iff (sound : s.Sound) :
    (s.getDB sDBName).Fresh ↔ s.Fresh ∧ .released sDBName ∉ s.log := by
  unfold Handles.getDB
  cases found : s.mgr.getDB sDBName with
  | none => exact (and_iff_left (sound.not_released (sound.getDB_eq_none_iff.mp found))).symm
  | some db =>
    have present := sound.isExistDBInfo_of_getDB found
    rw [Fresh, lawful_concat, ← sound.closed_iff sDBName present]
    rfl

theorem Sound.fresh_close_iff {closes : Bool} (sound : s.Sound) :
    (s.close sDBName closes).Fresh ↔ s.Fresh ∧ .released sDBName ∉ s.log := by
  rw [← sound.fresh_getDB_iff]
  unfold Handles.close
  dsimp only
  cases found : (s.getDB sDBName).mgr.getDB sDBName with
  | none => rfl
  | some db =>
    cases closes with
    | false => rfl
    | true =>
      have present := sound.getDB.isExistDBInfo_of_getDB found
      -- it is the handle that `GetDB` has just handed out
      have unclosed (fresh : (s.getDB sDBName).Fresh) :
          .closed ((s.getDB sDBName).data sDBName) ∉ (s.getDB sDBName).log := by
        rw [sound.getDB.closed_iff sDBName present]
        have kept := (sound.fresh_getDB_iff.mp fresh).2
        unfold Handles.getDB
        split
        · exact kept
        · simpa using kept
      rw [if_pos rfl, Fresh, lawful_concat_two]
      exact ⟨fun lawful => lawful.1, fun fresh => ⟨fresh, unclosed fresh, trivial⟩⟩

/-- No closed handle is handed out in a run exactly if no call is for a database that has been
closed, other than one that comes to nothing. -/
theorem fresh_iff_spares (run : Run step Free (start files) labels s) :
    s.Fresh ↔ Run step Spares (start files) labels s := by
  -- each call keeps the record fresh exactly if it spares the databases that have been closed
  refine run.good_iff .nil fun labels s label t earlier next => ?_
  have sound : s.Sound := earlier.invariant sound_start fun _ _ _ sound _ => sound_of_step sound
  cases label with
  | initDB files answers dbInfo =>
    obtain rfl := initDB_of_step next
    exact inits_initDB.fresh_iff sound
  | getDB sDBName =>
    obtain rfl := Option.some.inj next
    exact sound.fresh_getDB_iff
  | close sDBName closes =>
    obtain rfl := Option.some.inj next
    exact sound.fresh_close_iff

instance : Decidable (s.Spares label) := by
  cases label with
  | initDB => exact inferInstanceAs (Decidable (_ ∨ _))
  | getDB | close => exact inferInstanceAs (Decidable (_ ∉ _))

/-- A database is opened, got and closed. -/
theorem fresh_of_closed : ∃ s : Handles,
    s.log = [.opened "users" 0, .initialized "users", .returned 0, .returned 0, .closed 0,
      .released "users"] ∧ s.Fresh := by
  have calls : ∃ s, Run step Spares (start History.established)
      [.initDB History.established {} History.users, .getDB "users", .close "users" true] s ∧
      decide (s.log = [.opened "users" 0, .initialized "users", .returned 0, .returned 0,
        .closed 0, .released "users"]) = true :=
    exists_run_of_guarded (fun _ _ => of_decide_eq_true) (by decide)
  obtain ⟨s, run, logged⟩ := calls
  exact ⟨s, of_decide_eq_true logged, (fresh_iff_spares run.free).mpr run⟩

theorem not_fresh_of_log {front back : List Event} {event : Event}
    (logged : s.log = front ++ event :: back) (forbidden : ¬ Permits front event) : ¬ s.Fresh := by
  intro fresh
  rw [Fresh, logged] at fresh
  exact forbidden fresh.permitted

/-- After `Close`, the database that was closed is got, closed and initialized. -/
theorem not_fresh_of_closed :
    (∃ s : Handles, Run step Free (start History.established)
      [.initDB History.established {} History.users, .close "users" true, .getDB "users"] s ∧
      ¬ s.Fresh) ∧
    (∃ s : Handles, Run step Free (start History.established)
      [.initDB History.established {} History.users, .close "users" true, .close "users" true] s ∧
      ¬ s.Fresh) ∧
    ∃ s : Handles, Run step Free (start History.established)
      [.initDB History.established {} History.users, .close "users" true,
        .initDB History.established {} History.users] s ∧ ¬ s.Fresh := by
  let closed : List Event :=
    [.opened "users" 0, .initialized "users", .returned 0, .closed 0, .released "users"]
  have stale {labels : List Label} {event : Event} (back : List Event)
      (ends : (exec step (start History.established) labels).any
        (fun s => decide (s.log = closed ++ event :: back)) = true)
      (forbidden : ¬ Permits closed event) :
      ∃ s, Run step Free (start History.established) labels s ∧ ¬ s.Fresh := by
    obtain ⟨s, run, logged⟩ := exists_run_of_exec ends
    exact ⟨s, run, not_fresh_of_log (of_decide_eq_true logged) forbidden⟩
  have handed : ¬ Permits closed (.returned 0) := fun unclosed => unclosed (by decide)
  have initialized : ¬ Permits closed (.initialized "users") := by
    intro reopened
    obtain ⟨db, opened, -⟩ := reopened [.opened "users" 0, .initialized "users", .returned 0,
      .closed 0] [] rfl
    exact List.not_mem_nil opened
  refine ⟨stale [] (by decide) handed, ?_, stale [] (by decide) initialized⟩
  exact stale [.closed 0, .released "users"] (by decide) handed

end Calls

end Handles

end ExLibs.SQLite
