/-
# The SQLite manager

`cSQLiteMgr::InitDB` over a file system, with what SQLite answers in the course of a call.

The code reads only whether a database opens. What its queries come to shows in the file: a
query takes effect when it is executed, unless a transaction is going on, and the queries of a
transaction take effect when it is committed. A query is what SQLite compiles of a text, its
first statement.

A `cStmt` holds its statement by a `shared_ptr` without a deleter, so that the last of the
pointers to it hands memory of SQLite to `delete`. That is the end of the process: a transaction
that is going on is lost, and what is in effect in the file stays.
-/
import Mathlib.Data.Int.Notation
import Mathlib.Data.Nat.Notation
import Mathlib.Logic.Function.Basic
import ExLibs.String.Placeholders

namespace ExLibs.SQLite

open ExLibs.Format

/-- JSON values. A number or a truth value stands for the `int` that it converts to. -/
inductive Json
  | null
  | number (value : ℤ)
  | string (value : String)
  | array (elements : List Json)
  | object (members : List (String × Json))

namespace Json

/-- `json.is_null()`. -/
def isNull : Json → Bool
  | .null => true
  | _ => false

/-- `json[ key ]`, which throws unless the value is an object or null. -/
def subscript (json : Json) (key : String) : Option Json :=
  match json with
  | .null => some .null
  | .object members => some ((members.lookup key).getD .null)
  | _ => none

/-- `json.get< int >()`. -/
def getInt : Json → Option ℤ
  | .number value => some value
  | _ => none

/-- `json.get< std::string >()`. -/
def getString : Json → Option String
  | .string value => some value
  | _ => none

end Json

/-- A file. -/
structure File where
  /-- What reading it as JSON gives, if it does not throw. -/
  json : Option Json := none
  /-- The queries that have taken effect in it as a database. -/
  inEffect : List String := []

/-- What is found under a path. -/
inductive FileStatus
  | missing
  /-- `std::filesystem::exists` throws. -/
  | inaccessible
  | file (f : File)

namespace FileStatus

/-- `File::IsExistFile`. -/
def isExistFile : FileStatus → Option Bool
  | .missing => some false
  | .inaccessible => none
  | .file _ => some true

def inEffect : FileStatus → List String
  | .file f => f.inEffect
  | _ => []

end FileStatus

/-- `cSQLiteDB`: the file that it is open on. -/
structure CSQLiteDB where
  db : String
  deriving DecidableEq

/-- `DB_INFO`. -/
structure DbInfo where
  sDBName : String
  sFilePath : String
  sJsonPath : String := ""
  spSQLite : Option CSQLiteDB := none
  isUseWALMode : Bool := false
  deriving DecidableEq

/-- `cSQLiteMgr`, with the file system. -/
structure CSQLiteMgr where
  files : String → FileStatus
  mapNameToInfo : String → Option DbInfo := fun _ => none

/-- What SQLite answers to a query. -/
structure Answer where
  /-- `sqlite3_prepare16_v2` succeeds. -/
  prepares : Bool := true
  /-- `sqlite3_step` changes the database, and SQLite does not undo it on its own. -/
  takesEffect : Bool := true
  /-- The transaction ends with the step, and whether it is committed. -/
  ends : Option Bool := none
  deriving DecidableEq

/-- What SQLite answers in the course of a call. -/
structure Answers where
  opens : Bool := true
  journal : Answer := {}
  begins : Bool := true
  /-- The answers to the queries of the transaction. -/
  queries : ℕ → Answer := fun _ => {}
  commits : Bool := true
  /-- The statement that is compiled of a text. -/
  first : String → Option String := some

/-- A connection while it executes queries. -/
structure Connection where
  inEffect : List String
  transaction : Option (List String) := none
  /-- The statement in the `cStmt`. -/
  stmt : Option String := none
  /-- How many queries have been made. -/
  made : ℕ := 0

namespace Connection

variable (answers : Answers)

/-- A statement changes the database. -/
def change (c : Connection) (statement : String) : Connection :=
  match c.transaction with
  | some statements => { c with transaction := some (statements ++ [statement]) }
  | none => { c with inEffect := c.inEffect ++ [statement] }

/-- The transaction ends, if one is going on. -/
def finish (c : Connection) (isCommitted : Bool) : Connection :=
  match c.transaction with
  | some statements => { c with
      inEffect := c.inEffect ++ if isCommitted then statements else []
      transaction := none }
  | none => c

/-- `sqlite3_step`. -/
def step (c : Connection) (answer : Answer) (statement : String) : Connection :=
  let c := if answer.takesEffect then c.change statement else c
  answer.ends.elim c c.finish

/-- The `cStmt` gives its statement up: the process goes on if there was none, and otherwise
leaves what is in effect. -/
def release (c : Connection) : Except (List String) Connection :=
  match c.stmt with
  | none => .ok c
  | some _ => .error c.inEffect

/-- `PrepareSQL`, which leaves the statement as it was when it fails. -/
def prepare (answer : Answer) (c : Connection) (sQuery : String) :
    Except (List String) Connection :=
  let c := { c with made := c.made + 1 }
  if answer.prepares then
    c.release.map fun c => { c with stmt := answers.first sQuery }
  else .ok c

/-- `ExecuteSQL`. -/
def execute (answer : Answer) (c : Connection) : Connection :=
  match c.stmt with
  -- after a failure this is the statement that was prepared last
  | some statement => c.step answer statement
  | none => c

/-- A text is prepared and executed. -/
def perform (answer : Answer) (c : Connection) (sQuery : String) :
    Except (List String) Connection :=
  (c.prepare answers answer sQuery).map (execute answer)

/-- A query of the transaction. -/
def query (c : Connection) (sQuery : String) : Except (List String) Connection :=
  c.perform answers (answers.queries c.made) sQuery

/-- `cDBTransaction::Begin`. -/
def begin (c : Connection) : Connection :=
  if answers.begins then { c with transaction := some [] } else c

/-- `cDBTransaction::Commit`. -/
def commit (c : Connection) : Connection := if answers.commits then c.finish true else c

end Connection

/-- The query that sets the journal mode. -/
def walMode : String := "PRAGMA journal_mode=WAL;"

/-- The query that creates `TBL_DEFAULT`. -/
def createDefault : String := "CREATE TABLE TBL_DEFAULT( id TEXT NOT NULL, rev TEXT NOT NULL );"

/-- The query that notes the revision. A name is of a type that is unknown to `format_as`. -/
def insertRev (nRev : ℤ) : String :=
  "INSERT OR REPLACE INTO TBL_DEFAULT(id, rev) VALUES( \"" ++ ("unknown type" ++ ("\", \"" ++
    (toString nRev ++ "\" ) ")))

/-- `Format` makes this query of its format string. -/
theorem formats_insertRev (nRev : ℤ) : ({} : CFormat).Formats
    (wide
      "INSERT OR REPLACE INTO TBL_DEFAULT(id, rev) VALUES( \"\x7b\x7d\", \"\x7b\x7d\" ) ".toList)
    [wide "unknown type".toList, wide (toString nRev).toList]
    (.ret (wide (insertRev nRev).toList)) := by
  have written : wide
      "INSERT OR REPLACE INTO TBL_DEFAULT(id, rev) VALUES( \"\x7b\x7d\", \"\x7b\x7d\" ) ".toList =
        wide "INSERT OR REPLACE INTO TBL_DEFAULT(id, rev) VALUES( \"".toList ++ wide ['{', '}'] ++
          wide "\", \"".toList ++ wide ['{', '}'] ++ wide "\" ) ".toList := by
    decide
  rw [written]
  exact formats_two (by decide) (by decide) (by decide) "unknown type" (toString nRev)

/-- The loop over the revisions: how many are left, and which one is next. Whether it throws is
told beside the connection. -/
def createRevs (answers : Answers) (JsonCreate : Json) :
    ℕ → ℕ → Connection → Except (List String) (Bool × Connection)
  | 0, _, c => .ok (true, c)
  | left + 1, idx, c =>
    match (JsonCreate.subscript (toString idx)).bind Json.getString with
    | none => .ok (false, c)
    | some sQueryTmp => do
      let c ← c.query answers sQueryTmp
      createRevs answers JsonCreate left (idx + 1) c

/-- The queries of the block in which `InitDB` creates the schema of a new file. -/
def makeQueries (answers : Answers) (JsonDB : Json) (c : Connection) :
    Except (List String) (Bool × Connection) := do
  -- nothing is made of what the queries come to
  let c ← c.query answers "PRAGMA encoding = \"UTF-16le\";"
  let c ← c.query answers createDefault
  match JsonDB.subscript "Create" with
  | none => .ok (false, c)
  | some JsonCreate =>
    match (JsonCreate.subscript "Rev").bind Json.getInt with
    | none => .ok (false, c)
    | some nRev =>
      let (through, c) ← createRevs answers JsonCreate nRev.toNat 1 c
      if through then
        let c ← c.query answers (insertRev nRev)
        .ok (true, c)
      else .ok (false, c)

/-- The block, up to the end of its `cStmt`. -/
def create (answers : Answers) (JsonDB : Json) (c : Connection) :
    Except (List String) (Bool × Connection) := do
  let (through, c) ← makeQueries answers JsonDB c
  let c ← c.release
  .ok (through, c)

/-- What a call comes to. -/
inductive Outcome
  | ret (isSuccess : Bool)
  | throws
  /-- The process ends. -/
  | aborts
  deriving DecidableEq

namespace CSQLiteMgr

variable (answers : Answers) (dbInfo : DbInfo) (m : CSQLiteMgr)

/-- `IsExistDBInfo`. -/
def isExistDBInfo (sDBName : String) : Bool := (m.mapNameToInfo sDBName).isSome

/-- `GetDB`. -/
def getDB (sDBName : String) : Option CSQLiteDB := (m.mapNameToInfo sDBName).bind DbInfo.spSQLite

/-- What is in effect in a database is replaced. -/
def write (sFilePath : String) (inEffect : List String) : CSQLiteMgr :=
  match m.files sFilePath with
  | .file f => { m with files := Function.update m.files sFilePath (.file { f with inEffect }) }
  | _ => m

/-- `sqlite3_open16` has created the file where there was none, and the entry is made. -/
def publish : CSQLiteMgr where
  files :=
    match m.files dbInfo.sFilePath with
    | .missing => Function.update m.files dbInfo.sFilePath (.file {})
    | _ => m.files
  mapNameToInfo := Function.update m.mapNameToInfo dbInfo.sDBName
    (some { dbInfo with spSQLite := some ⟨dbInfo.sFilePath⟩ })

/-- A connection to a database. -/
def connect (sFilePath : String) : Connection := { inEffect := (m.files sFilePath).inEffect }

/-- The journal mode is set, if it is asked for. -/
def setJournal : Except CSQLiteMgr CSQLiteMgr :=
  if dbInfo.isUseWALMode then
    let journaled := do
      let c ← (m.connect dbInfo.sFilePath).perform answers answers.journal walMode
      c.release
    match journaled with
    | .error inEffect => .error (m.write dbInfo.sFilePath inEffect)
    | .ok c => .ok (m.write dbInfo.sFilePath c.inEffect)
  else .ok m

/-- `JsonDB`, unless it throws. -/
def loadJson : Option Json :=
  match m.files dbInfo.sJsonPath with
  | .missing => some .null
  | .inaccessible => none
  | .file f => f.json.bind fun json => json.subscript dbInfo.sDBName

/-- The schema is created. The transaction is committed also when this throws. -/
def createSchema (JsonDB : Json) : Outcome × CSQLiteMgr :=
  match create answers JsonDB ((m.connect dbInfo.sFilePath).begin answers) with
  | .error inEffect => (.aborts, m.write dbInfo.sFilePath inEffect)
  | .ok (through, c) =>
    (if through then .ret true else .throws,
      m.write dbInfo.sFilePath (c.commit answers).inEffect)

/-- `InitDB`. -/
def initDB : Outcome × CSQLiteMgr :=
  if dbInfo.sFilePath = "" ∨ dbInfo.sDBName = "" then (.ret false, m)
  else if m.isExistDBInfo dbInfo.sDBName then (.ret true, m)
  else
    match (m.files dbInfo.sFilePath).isExistFile with
    | none => (.throws, m)
    | some isExist =>
      if answers.opens = false then (.ret false, m)
      else
        -- the entry is made before the steps that may fail, and none of them takes it back
        match (m.publish dbInfo).setJournal answers dbInfo with
        | .error m => (.aborts, m)
        | .ok m =>
          match m.loadJson dbInfo with
          | none => (.throws, m)
          | some JsonDB =>
            if JsonDB.isNull then (.ret false, m)
            -- a file that is there is taken to have its schema
            else if isExist then (.ret true, m)
            else m.createSchema answers dbInfo JsonDB

end CSQLiteMgr

end ExLibs.SQLite
