/-
# Databases over retries

Calls of `InitDB` over a run, in which the file system changes between the calls and the process
may restart. A call enters the database in the manager's map before the steps that may fail, and
the next call for it trusts the entry; after a restart a call trusts the file. A call that has
prepared a statement does not come back, so that only a schema that is there is ever vouched for.
-/
import ExLibs.Math.Transition
import ExLibs.SQLite.Mgr

namespace ExLibs.SQLite

open ExLibs.Math

section Schema

/-- The `Create` statements of a number of revisions from the one given on. -/
def revs (JsonCreate : Json) : ℕ → ℕ → Option (List String)
  | 0, _ => some []
  | left + 1, idx =>
    ((JsonCreate.subscript (toString idx)).bind Json.getString).bind fun query =>
      (revs JsonCreate left (idx + 1)).map fun queries => query :: queries

/-- The schema that its JSON gives a database, if it gives one: `TBL_DEFAULT` and the `Create`
statements of the revisions. -/
def schema (JsonDB : Json) : Option (List String) :=
  (JsonDB.subscript "Create").bind fun JsonCreate =>
    ((JsonCreate.subscript "Rev").bind Json.getInt).bind fun nRev =>
      (revs JsonCreate nRev.toNat 1).map fun queries => createDefault :: queries

end Schema

namespace Connection

variable {answers : Answers} {answer : Answer} {c : Connection} {sQuery statement : String}

theorem release_of_none (empty : c.stmt = none) : c.release = .ok c := by
  rw [release, empty]

theorem release_of_some (held : c.stmt = some statement) : c.release = .error c.inEffect := by
  rw [release, held]

/-- A step leaves the statement in the `cStmt`, and is no query. -/
theorem step_stmt_made :
    (c.step answer statement).stmt = c.stmt ∧ (c.step answer statement).made = c.made := by
  have changed : (c.change statement).stmt = c.stmt ∧ (c.change statement).made = c.made := by
    unfold change
    split <;> exact ⟨rfl, rfl⟩
  have finished (c : Connection) (isCommitted : Bool) :
      (c.finish isCommitted).stmt = c.stmt ∧ (c.finish isCommitted).made = c.made := by
    unfold finish
    split <;> exact ⟨rfl, rfl⟩
  unfold step
  cases answer.ends with
  | none =>
    dsimp only [Option.elim_none]
    split
    · exact changed
    · exact ⟨rfl, rfl⟩
  | some isCommitted =>
    dsimp only [Option.elim_some]
    rw [(finished _ isCommitted).1, (finished _ isCommitted).2]
    split
    · exact changed
    · exact ⟨rfl, rfl⟩

/-- A text of which nothing is prepared is passed over. -/
theorem perform_of_unprepared (empty : c.stmt = none)
    (unprepared : answer.prepares = true → answers.first sQuery = none) :
    c.perform answers answer sQuery = .ok { c with made := c.made + 1 } := by
  rcases c with ⟨inEffect, transaction, stmt, made⟩
  obtain rfl : stmt = none := empty
  unfold perform prepare
  split
  · rename_i prepares
    rw [unprepared prepares]
    rfl
  · rfl

/-- The first statement that is prepared is executed. -/
theorem perform_of_prepared (empty : c.stmt = none) (prepares : answer.prepares = true)
    (compiled : answers.first sQuery = some statement) :
    c.perform answers answer sQuery =
      .ok (({ c with stmt := some statement, made := c.made + 1 } : Connection).step answer
        statement) := by
  rcases c with ⟨inEffect, transaction, stmt, made⟩
  obtain rfl : stmt = none := empty
  unfold perform prepare
  rw [if_pos prepares, compiled]
  rfl

end Connection

namespace CSQLiteMgr

variable {answers : Answers} {dbInfo : DbInfo} {m : CSQLiteMgr} {sFilePath : String}
  {inEffect queries : List String} {f : File}

section Files

theorem mapNameToInfo_write : (m.write sFilePath inEffect).mapNameToInfo = m.mapNameToInfo := by
  unfold write
  split
  · rfl
  · rfl

/-- Nothing changes where nothing takes effect. -/
theorem write_inEffect : m.write sFilePath (m.files sFilePath).inEffect = m := by
  unfold write
  cases found : m.files sFilePath with
  | file f =>
    have same : FileStatus.file { f with inEffect := (FileStatus.file f).inEffect } =
      m.files sFilePath := found.symm
    dsimp only
    rw [same, Function.update_eq_self]
  | _ => rfl

theorem files_write (found : m.files sFilePath = .file f) :
    (m.write sFilePath inEffect).files sFilePath = .file { f with inEffect } := by
  unfold write
  rw [found]
  exact Function.update_self ..

/-- The schema that JSON gives a database. -/
def describes (m : CSQLiteMgr) (dbInfo : DbInfo) : Option (List String) :=
  (m.loadJson dbInfo).bind schema

/-- No file but one that was missing is changed. -/
theorem files_publish_of_present (present : m.files sFilePath ≠ .missing) :
    (m.publish dbInfo).files sFilePath = m.files sFilePath := by
  unfold publish
  cases status : m.files dbInfo.sFilePath with
  | missing =>
    have other : sFilePath ≠ dbInfo.sFilePath := fun same => present (same ▸ status)
    exact Function.update_of_ne other ..
  | inaccessible => rfl
  | file f => rfl

/-- The file that is created is not the one that describes the database. -/
theorem loadJson_publish (described : m.describes dbInfo = some queries) :
    (m.publish dbInfo).loadJson dbInfo = m.loadJson dbInfo := by
  have present : m.files dbInfo.sJsonPath ≠ .missing := by
    intro missing
    rw [describes, loadJson, missing] at described
    cases described
  unfold loadJson
  rw [files_publish_of_present present]

end Files

section InitDB

/-- A statement is prepared for the journal mode. -/
def Journals (answers : Answers) (dbInfo : DbInfo) : Prop :=
  dbInfo.isUseWALMode = true ∧ answers.journal.prepares = true ∧
    (answers.first walMode).isSome = true

theorem setJournal_of_not_journals (spared : ¬ Journals answers dbInfo) :
    m.setJournal answers dbInfo = .ok m := by
  unfold setJournal
  split
  · rename_i asked
    have unprepared (prepares : answers.journal.prepares = true) :
        answers.first walMode = none := by
      by_contra compiled
      exact spared ⟨asked, prepares, Option.isSome_iff_ne_none.mpr compiled⟩
    rw [Connection.perform_of_unprepared rfl unprepared]
    exact congrArg _ write_inEffect
  · rfl

theorem setJournal_of_journals (journals : Journals answers dbInfo) :
    ∃ inEffect, m.setJournal answers dbInfo = .error (m.write dbInfo.sFilePath inEffect) := by
  obtain ⟨asked, prepares, compiled⟩ := journals
  obtain ⟨statement, compiled⟩ := Option.isSome_iff_exists.mp compiled
  unfold setJournal
  rw [if_pos asked, Connection.perform_of_prepared rfl prepares compiled]
  dsimp only [bind, Except.bind]
  rw [Connection.release_of_some Connection.step_stmt_made.1]
  exact ⟨_, rfl⟩

/-- A call gets as far as to open its database. -/
structure Opens (answers : Answers) (dbInfo : DbInfo) (m : CSQLiteMgr) : Prop where
  named : dbInfo.sFilePath ≠ "" ∧ dbInfo.sDBName ≠ ""
  isNew : m.isExistDBInfo dbInfo.sDBName = false
  accessible : m.files dbInfo.sFilePath ≠ .inaccessible
  opens : answers.opens = true

/-- The JSON of a database gives it a schema, its file has that already, and no statement is
prepared. -/
def Initializes (answers : Answers) (dbInfo : DbInfo) (m : CSQLiteMgr) : Prop :=
  ¬ Journals answers dbInfo ∧
    ∃ (queries : List String) (f : File), m.describes dbInfo = some queries ∧
      m.files dbInfo.sFilePath = .file f ∧ ∀ query ∈ queries, query ∈ f.inEffect

/-- A call that does not open its database changes nothing, and returns `true` only for one that
is open. -/
theorem initDB_of_not_opens (closed : ¬ m.Opens answers dbInfo) :
    (m.initDB answers dbInfo).2 = m ∧ (m.initDB answers dbInfo).1 ≠ .aborts ∧
      ((m.initDB answers dbInfo).1 = .ret true → m.isExistDBInfo dbInfo.sDBName = true) := by
  unfold initDB
  by_cases unnamed : dbInfo.sFilePath = "" ∨ dbInfo.sDBName = ""
  · rw [if_pos unnamed]
    exact ⟨rfl, nofun, nofun⟩
  rw [if_neg unnamed]
  by_cases present : m.isExistDBInfo dbInfo.sDBName = true
  · rw [if_pos present]
    exact ⟨rfl, nofun, fun _ => present⟩
  rw [if_neg present]
  cases status : (m.files dbInfo.sFilePath).isExistFile with
  | none => exact ⟨rfl, nofun, nofun⟩
  | some isExist =>
    dsimp only
    by_cases fails : answers.opens = false
    · rw [if_pos fails]
      exact ⟨rfl, nofun, nofun⟩
    · refine absurd ⟨not_or.mp unnamed, Bool.eq_false_iff.mpr present, ?_, ?_⟩ closed
      · intro inaccessible
        rw [inaccessible] at status
        cases status
      · exact eq_true_of_ne_false fails

/-- What a call does once its database is open. -/
theorem initDB_of_opens (opens : m.Opens answers dbInfo) :
    ∃ isExist : Bool, (m.files dbInfo.sFilePath).isExistFile = some isExist ∧
      m.initDB answers dbInfo =
        match (m.publish dbInfo).setJournal answers dbInfo with
        | .error m => (.aborts, m)
        | .ok m =>
          match m.loadJson dbInfo with
          | none => (.throws, m)
          | some JsonDB =>
            if JsonDB.isNull then (.ret false, m)
            else if isExist then (.ret true, m)
            else m.createSchema answers dbInfo JsonDB := by
  obtain ⟨named, isNew, accessible, opened⟩ := opens
  cases status : (m.files dbInfo.sFilePath).isExistFile with
  | none =>
    cases found : m.files dbInfo.sFilePath with
    | inaccessible => exact absurd found accessible
    | missing => rw [found] at status; cases status
    | file f => rw [found] at status; cases status
  | some isExist =>
    have proceeds : ¬ answers.opens = false := by
      rw [opened]
      decide
    refine ⟨isExist, rfl, ?_⟩
    unfold initDB
    rw [if_neg (not_or.mpr named), if_neg (Bool.eq_false_iff.mp isNew), status]
    dsimp only
    exact if_neg proceeds

theorem isNull_of_schema {JsonDB : Json} (given : schema JsonDB = some queries) :
    JsonDB.isNull = false := by
  cases JsonDB with
  | null => cases given
  | _ => rfl

/-- A call that initializes its database returns `true`, and leaves it in the map with its schema
in effect. -/
theorem initDB_of_initializes (opens : m.Opens answers dbInfo)
    (initializes : m.Initializes answers dbInfo) :
    ∃ (m' : CSQLiteMgr) (queries : List String), m.initDB answers dbInfo = (.ret true, m') ∧
      m'.mapNameToInfo = Function.update m.mapNameToInfo dbInfo.sDBName
        (some { dbInfo with spSQLite := some ⟨dbInfo.sFilePath⟩ }) ∧
      m.describes dbInfo = some queries ∧
      ∀ query ∈ queries, query ∈ (m'.files dbInfo.sFilePath).inEffect := by
  obtain ⟨spared, queries, f, described, found, inEffect⟩ := initializes
  obtain ⟨isExist, exists_eq, initDB_eq⟩ := initDB_of_opens opens
  obtain ⟨JsonDB, loaded, given⟩ := Option.bind_eq_some_iff.mp described
  rw [found] at exists_eq
  obtain rfl := Option.some.inj exists_eq
  rw [setJournal_of_not_journals spared] at initDB_eq
  dsimp only at initDB_eq
  rw [loadJson_publish described, loaded] at initDB_eq
  dsimp only at initDB_eq
  rw [if_neg (Bool.eq_false_iff.mp (isNull_of_schema given))] at initDB_eq
  refine ⟨m.publish dbInfo, queries, initDB_eq, rfl, described, ?_⟩
  rw [files_publish_of_present (by rw [found]; nofun), found]
  exact inEffect

/-- A call that initializes its database if it opens it leaves the manager as it was, or enters
the database with its schema. -/
theorem initDB_cases (sound : m.Opens answers dbInfo → m.Initializes answers dbInfo) :
    (∃ outcome : Outcome, m.initDB answers dbInfo = (outcome, m) ∧ outcome ≠ .aborts ∧
      (outcome = .ret true → m.isExistDBInfo dbInfo.sDBName = true)) ∨
    ∃ (m' : CSQLiteMgr) (queries : List String), m.initDB answers dbInfo = (.ret true, m') ∧
      m.isExistDBInfo dbInfo.sDBName = false ∧
      m'.mapNameToInfo = Function.update m.mapNameToInfo dbInfo.sDBName
        (some { dbInfo with spSQLite := some ⟨dbInfo.sFilePath⟩ }) ∧
      m.describes dbInfo = some queries ∧
      ∀ query ∈ queries, query ∈ (m'.files dbInfo.sFilePath).inEffect := by
  by_cases opens : m.Opens answers dbInfo
  · obtain ⟨m', queries, called⟩ := initDB_of_initializes opens (sound opens)
    exact .inr ⟨m', queries, called.1, opens.isNew, called.2⟩
  · obtain ⟨same, goes, present⟩ := initDB_of_not_opens opens
    exact .inl ⟨_, Prod.ext rfl same, goes, present⟩

end InitDB

end CSQLiteMgr

/-- A database, as it is when the call that has opened it comes to its end. -/
structure Opened where
  db : CSQLiteDB
  /-- The schema that its JSON gave it. -/
  schema : Option (List String)
  /-- What is in effect in its file. -/
  inEffect : List String

/-- The schema has been created in the file. -/
def Opened.Created (o : Opened) : Prop :=
  ∃ queries, o.schema = some queries ∧ ∀ query ∈ queries, query ∈ o.inEffect

/-- A call of `InitDB` that has come to its end. -/
structure Returned where
  sDBName : String
  outcome : Outcome
  before : CSQLiteMgr
  after : CSQLiteMgr
  /-- How the database was opened, by this call or by an earlier one. -/
  opened : Option Opened

/-- A call that returns `true` has its database open, and its schema has been created. Any other
leaves the map as it was. -/
def Returned.Truthful (r : Returned) : Prop :=
  (r.outcome = .ret true → ∃ o : Opened, r.opened = some o ∧ o.Created ∧
    r.after.getDB r.sDBName = some o.db) ∧
  (r.outcome ≠ .ret true → r.after.mapNameToInfo = r.before.mapNameToInfo)

/-- The manager over a run, and what there is to tell of its calls. -/
structure History where
  mgr : CSQLiteMgr
  opened : String → Option Opened := fun _ => none
  returned : List Returned := []

inductive Label
  /-- A call, which returns, throws or ends the process. -/
  | initDB (answers : Answers) (dbInfo : DbInfo)
  /-- Anything happens to the file system. -/
  | outside (files : String → FileStatus)
  /-- The process restarts. -/
  | restart

namespace History

variable {s t : History} {files : String → FileStatus} {labels : List Label} {label : Label}

/-- A new process finds the files. -/
def restart (s : History) (files : String → FileStatus) : History :=
  { s with mgr := { files }, opened := fun _ => none }

/-- A call that enters its database in the map opens it. -/
def step (s : History) : Label → Option History
  | .initDB answers dbInfo =>
    let (outcome, mgr) := s.mgr.initDB answers dbInfo
    if outcome = .aborts then some (s.restart mgr.files)
    else
      let opened :=
        if s.mgr.isExistDBInfo dbInfo.sDBName = mgr.isExistDBInfo dbInfo.sDBName then s.opened
        else Function.update s.opened dbInfo.sDBName (some
          { db := ⟨dbInfo.sFilePath⟩
            schema := s.mgr.describes dbInfo
            inEffect := (mgr.files dbInfo.sFilePath).inEffect })
      some
        { mgr
          opened
          returned := s.returned ++ [{
            sDBName := dbInfo.sDBName
            outcome
            before := s.mgr
            after := mgr
            opened := opened dbInfo.sDBName }] }
  | .outside files => some { s with mgr := { s.mgr with files } }
  | .restart => some (s.restart s.mgr.files)

/-- A process begins. -/
def start (files : String → FileStatus) : History := { mgr := { files } }

/-- Every call has told the truth. -/
def Honest (s : History) : Prop := ∀ r ∈ s.returned, r.Truthful

/-- A call that opens its database initializes it. -/
def Sound (s : History) : Label → Prop
  | .initDB answers dbInfo =>
    s.mgr.Opens answers dbInfo → s.mgr.Initializes answers dbInfo
  | _ => True

/-- Every database in the map has been opened, with its schema. -/
def Established (s : History) : Prop :=
  ∀ (sDBName : String) (dbInfo : DbInfo), s.mgr.mapNameToInfo sDBName = some dbInfo →
    ∃ o : Opened, s.opened sDBName = some o ∧ o.Created ∧ dbInfo.spSQLite = some o.db

theorem step_of_same {answers : Answers} {dbInfo : DbInfo} {outcome : Outcome}
    (called : s.mgr.initDB answers dbInfo = (outcome, s.mgr)) (goes : outcome ≠ .aborts) :
    s.step (.initDB answers dbInfo) = some
      { s with returned := s.returned ++
        [⟨dbInfo.sDBName, outcome, s.mgr, s.mgr, s.opened dbInfo.sDBName⟩] } := by
  unfold step
  dsimp only
  rw [called]
  dsimp only
  rw [if_neg goes, if_pos rfl]

theorem step_of_opened {answers : Answers} {dbInfo : DbInfo} {m : CSQLiteMgr}
    (called : s.mgr.initDB answers dbInfo = (.ret true, m))
    (isNew : s.mgr.isExistDBInfo dbInfo.sDBName = false)
    (entered : m.mapNameToInfo = Function.update s.mgr.mapNameToInfo dbInfo.sDBName
      (some { dbInfo with spSQLite := some ⟨dbInfo.sFilePath⟩ })) :
    ∃ o : Opened, o = ⟨⟨dbInfo.sFilePath⟩, s.mgr.describes dbInfo,
        (m.files dbInfo.sFilePath).inEffect⟩ ∧
      s.step (.initDB answers dbInfo) = some
        { mgr := m
          opened := Function.update s.opened dbInfo.sDBName (some o)
          returned := s.returned ++ [⟨dbInfo.sDBName, .ret true, s.mgr, m, some o⟩] } := by
  have present : m.isExistDBInfo dbInfo.sDBName = true := by
    rw [CSQLiteMgr.isExistDBInfo, entered, Function.update_self]
    rfl
  refine ⟨_, rfl, ?_⟩
  unfold step
  dsimp only
  rw [called]
  dsimp only
  rw [if_neg nofun, isNew, present, if_neg Bool.false_ne_true, Function.update_self]

/-- The invariant of a run: the databases in the map are established, and no call has lied. -/
def Truthful (s : History) : Prop := s.Established ∧ s.Honest

theorem Honest.snoc {r : Returned} (honest : s.Honest) (truthful : r.Truthful)
    (returned : t.returned = s.returned ++ [r]) : t.Honest := by
  intro r' member
  rw [returned] at member
  rcases List.mem_append.mp member with earlier | last
  · exact honest r' earlier
  · rw [List.mem_singleton.mp last]
    exact truthful

theorem truthful_of_same {answers : Answers} {dbInfo : DbInfo} {outcome : Outcome}
    (called : s.mgr.initDB answers dbInfo = (outcome, s.mgr)) (goes : outcome ≠ .aborts)
    (present : outcome = .ret true → s.mgr.isExistDBInfo dbInfo.sDBName = true)
    (truthful : s.Truthful) (next : s.step (.initDB answers dbInfo) = some t) : t.Truthful := by
  obtain ⟨established, honest⟩ := truthful
  rw [step_of_same called goes] at next
  obtain rfl := Option.some.inj next
  refine ⟨established, honest.snoc ⟨fun succeeds => ?_, fun _ => rfl⟩ rfl⟩
  -- the database was opened by an earlier call
  obtain ⟨entry, found⟩ := Option.isSome_iff_exists.mp (present succeeds)
  obtain ⟨o, opened, created, db⟩ := established dbInfo.sDBName entry found
  refine ⟨o, opened, created, ?_⟩
  rw [CSQLiteMgr.getDB, found]
  exact db

theorem truthful_of_opened {answers : Answers} {dbInfo : DbInfo} {m : CSQLiteMgr}
    {queries : List String} (called : s.mgr.initDB answers dbInfo = (.ret true, m))
    (isNew : s.mgr.isExistDBInfo dbInfo.sDBName = false)
    (entered : m.mapNameToInfo = Function.update s.mgr.mapNameToInfo dbInfo.sDBName
      (some { dbInfo with spSQLite := some ⟨dbInfo.sFilePath⟩ }))
    (described : s.mgr.describes dbInfo = some queries)
    (inEffect : ∀ query ∈ queries, query ∈ (m.files dbInfo.sFilePath).inEffect)
    (truthful : s.Truthful) (next : s.step (.initDB answers dbInfo) = some t) : t.Truthful := by
  obtain ⟨established, honest⟩ := truthful
  obtain ⟨o, opened, stepped⟩ := step_of_opened called isNew entered
  rw [stepped] at next
  obtain rfl := Option.some.inj next
  have created : o.Created := by
    rw [opened]
    exact ⟨queries, described, inEffect⟩
  refine ⟨fun sDBName entry found => ?_,
    honest.snoc ⟨fun _ => ?_, fun fails => absurd rfl fails⟩ rfl⟩
  · rw [entered] at found
    by_cases same : sDBName = dbInfo.sDBName
    · subst same
      rw [Function.update_self] at found
      obtain rfl := Option.some.inj found
      exact ⟨o, Function.update_self .., created, by rw [opened]⟩
    · rw [Function.update_of_ne same] at found
      obtain ⟨o', opened', kept⟩ := established sDBName entry found
      exact ⟨o', (Function.update_of_ne same ..).trans opened', kept⟩
  · refine ⟨o, rfl, created, ?_⟩
    rw [CSQLiteMgr.getDB, entered, Function.update_self, opened]
    rfl

theorem truthful_of_step (truthful : s.Truthful) (sound : s.Sound label)
    (next : s.step label = some t) : t.Truthful := by
  cases label with
  | initDB answers dbInfo =>
    rcases CSQLiteMgr.initDB_cases sound with
      ⟨outcome, called, goes, present⟩ | ⟨m, queries, called, isNew, entered, described, inEffect⟩
    · exact truthful_of_same called goes present truthful next
    · exact truthful_of_opened called isNew entered described inEffect truthful next
  | outside files =>
    obtain rfl := Option.some.inj next
    exact truthful
  | restart =>
    obtain rfl := Option.some.inj next
    exact ⟨fun _ _ => nofun, truthful.2⟩

/-- In a run in which every call that opens its database initializes it, every call tells the
truth, and one that does not succeed leaves the map as it was. -/
theorem honest_of_sound (run : Run step Sound (start files) labels s) : s.Honest := by
  have initial : (start files).Truthful := ⟨fun _ _ => nofun, fun _ => nofun⟩
  exact (run.invariant initial fun _ _ _ => truthful_of_step).2

/-- A database of one table. -/
def users : DbInfo := { sDBName := "users", sFilePath := "users.db", sJsonPath := "db.json" }

/-- The file that describes it. -/
def describing : File where
  json := some <| .object [("users", .object [("Create", .object
    [("Rev", .number 1), ("1", .string "CREATE TABLE TBL_USER( id TEXT NOT NULL );")])])]

/-- The database is described and does not exist. -/
def described (path : String) : FileStatus :=
  if path = "db.json" then .file describing else .missing

/-- The database is described and exists. -/
def established : String → FileStatus :=
  Function.update described "users.db"
    (.file { inEffect := [createDefault, "CREATE TABLE TBL_USER( id TEXT NOT NULL );"] })

/-- A database is initialized, and once more. -/
theorem honest_of_two : ∃ s : History, s.returned.map Returned.outcome = [.ret true, .ret true] ∧
    s.Honest := by
  have opening : Sound (start established) (.initDB {} users) := fun _ =>
    ⟨fun journals => Bool.false_ne_true journals.1,
      [createDefault, "CREATE TABLE TBL_USER( id TEXT NOT NULL );"], _, by decide, rfl,
      fun _ member => member⟩
  have first : Run step Sound (start established) [.initDB {} users] _ := .snoc .nil opening rfl
  have again : Run step Sound (start established) [.initDB {} users, .initDB {} users] _ :=
    .snoc first (fun opens => absurd opens.isNew (by decide)) rfl
  exact ⟨_, by decide, honest_of_sound again⟩

instance (o : Opened) : Decidable o.Created :=
  decidable_of_iff
    (o.schema.any (fun queries => decide (∀ query ∈ queries, query ∈ o.inEffect)) = true)
    (by simp [Opened.Created, Option.any_eq_true])

/-- A call that returns `true` for a database without its schema. -/
def Lies (r : Returned) : Bool :=
  r.outcome = .ret true && r.opened.all fun o => !decide o.Created

theorem not_honest_of_lies (lies : s.returned.any Lies = true) : ¬ s.Honest := by
  intro honest
  obtain ⟨r, member, lie⟩ := List.any_eq_true.mp lies
  obtain ⟨succeeds, uncreated⟩ := Bool.and_eq_true_iff.mp lie
  obtain ⟨o, opened, created, -⟩ := (honest r member).1 (of_decide_eq_true succeeds)
  rw [opened, Option.all_some, decide_eq_true created] at uncreated
  cases uncreated

/-- A call without a description fails, and leaves an entry that the next one trusts. After a
restart a call trusts the file that was left. And no call minds that its queries are not
prepared. -/
theorem not_honest_of_retry :
    (∃ s : History, Run step Free (start fun _ => .missing)
      [.initDB {} users, .initDB {} users] s ∧ ¬ s.Honest) ∧
    (∃ s : History, Run step Free (start fun _ => .missing)
      [.initDB {} users, .restart,
        .outside (Function.update described "users.db" (.file {})), .initDB {} users] s ∧
      ¬ s.Honest) ∧
    ∃ s : History, Run step Free (start described)
      [.initDB { queries := fun _ => { prepares := false } } users] s ∧ ¬ s.Honest := by
  have lies {files : String → FileStatus} (labels : List Label)
      (ends : (exec step (start files) labels).any (fun s => s.returned.any Lies) = true) :
      ∃ s, Run step Free (start files) labels s ∧ ¬ s.Honest := by
    obtain ⟨s, run, lie⟩ := exists_run_of_exec ends
    exact ⟨s, run, not_honest_of_lies lie⟩
  exact ⟨lies _ (by decide), lies _ (by decide), lies _ (by decide)⟩

end History

end ExLibs.SQLite
