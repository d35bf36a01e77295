/-
# Creating a schema

`InitDB` creates the schema of a new file in a transaction. It does not look at what its
statements come to, and the transaction is committed wherever its block is left. After a
statement that cannot be prepared, the one that was prepared last is executed once more.

The second statement that is prepared ends the process, and so does the end of the block behind
the first. So only one statement is ever executed, the first that SQLite compiles; what it does
lasts where no transaction is going on, or where it commits that itself. And where nothing is
compiled, nothing is missed.
-/
import ExLibs.SQLite.Retries

namespace ExLibs.SQLite

/-- The `Create` statements that the loop over the revisions comes to, and whether it ends. -/
def revStatements (JsonCreate : Json) : ℕ → ℕ → Bool × List String
  | 0, _ => (true, [])
  | left + 1, idx =>
    match (JsonCreate.subscript (toString idx)).bind Json.getString with
    | none => (false, [])
    | some sQueryTmp =>
      ((revStatements JsonCreate left (idx + 1)).1,
        sQueryTmp :: (revStatements JsonCreate left (idx + 1)).2)

/-- The statements of the schema that the block comes to, those of `TBL_DEFAULT` and the `Create`
statements, and whether it ends. Otherwise it throws behind the last of them. -/
def statements (JsonDB : Json) : Bool × List String :=
  match JsonDB.subscript "Create" with
  | none => (false, [createDefault])
  | some JsonCreate =>
    match (JsonCreate.subscript "Rev").bind Json.getInt with
    | none => (false, [createDefault])
    | some nRev =>
      match revStatements JsonCreate nRev.toNat 1 with
      | (true, queries) => (true, createDefault :: queries ++ [insertRev nRev])
      | (false, queries) => (false, createDefault :: queries)

/-- The query that the block makes before them. -/
def encoding : String := "PRAGMA encoding = \"UTF-16le\";"

section Executions

variable (answers : Answers)

/-- The answers to the executions of a statement in the course of queries, up to the next that is
prepared. `made` queries have been made before. -/
def executions : ℕ → List String → List Answer
  | _, [] => []
  | made, _ :: rest =>
    if (answers.queries made).prepares then []
    else answers.queries made :: executions (made + 1) rest

/-- The statement of a query, if it is prepared and there is one. -/
def compile (made : ℕ) (sQuery : String) : Option String :=
  if (answers.queries made).prepares then answers.first sQuery else none

/-- The first statement that is compiled in the course of queries, with the answers to its
executions. -/
def compiled : ℕ → List String → Option (String × List Answer)
  | _, [] => none
  | made, sQuery :: rest =>
    match compile answers made sQuery with
    | some statement =>
      some (statement, answers.queries made :: executions answers (made + 1) rest)
    | none => compiled (made + 1) rest

end Executions

section Lasting

/-- The executions that wait in the transaction, if it goes on behind another one. -/
def waiting : Option (List Answer) → Answer → Option (List Answer)
  | none, _ => none
  | some pending, answer => if answer.ends = none then some (pending ++ [answer]) else none

/-- The executions that are in effect behind another one. -/
def settled : Option (List Answer) → Answer → List Answer
  | none, answer => [answer]
  | some pending, answer => if answer.ends = some true then pending ++ [answer] else []

/-- Of the executions of a statement, those that last when the process ends: all of them where no
transaction is going on, and otherwise those that it commits itself. -/
def lasting : Option (List Answer) → List Answer → List Answer
  | _, [] => []
  | pending, answer :: rest => settled pending answer ++ lasting (waiting pending answer) rest

end Lasting

namespace Connection

variable {answers : Answers} {answer : Answer} {c : Connection} {queries : List String}
  {statement sQuery : String} {during : List Answer} {pending : Option (List Answer)}

/-- What executions of a statement do to the database. -/
def effects (statement : String) (during : List Answer) : List String :=
  (during.filter Answer.takesEffect).map fun _ => statement

theorem effects_append {rest : List Answer} : effects statement (during ++ rest) =
    effects statement during ++ effects statement rest := by
  rw [effects, List.filter_append, List.map_append]
  rfl

/-- One more execution of the statement in the `cStmt`. -/
theorem step_eq (transaction : c.transaction = pending.map (effects statement)) :
    c.step answer statement = { c with
      inEffect := c.inEffect ++ effects statement (settled pending answer)
      transaction := (waiting pending answer).map (effects statement) } := by
  rcases c with ⟨inEffect, _, stmt, made⟩
  obtain rfl := transaction
  rcases answer with ⟨prepares, takesEffect, ends⟩
  cases pending with
  | none =>
    cases takesEffect <;> cases ends <;>
      simp [step, change, finish, settled, waiting, effects]
  | some pending =>
    cases takesEffect <;> rcases ends with _ | _ | _ <;>
      simp [step, change, finish, settled, waiting, effects]

/-- Another statement that is prepared ends the process. -/
theorem query_of_prepared (held : c.stmt = some statement)
    (prepares : (answers.queries c.made).prepares = true) :
    c.query answers sQuery = .error c.inEffect := by
  rcases c with ⟨inEffect, transaction, stmt, made⟩
  obtain rfl : stmt = some statement := held
  unfold query perform prepare
  rw [if_pos prepares]
  rfl

/-- A query that is not prepared executes the statement that is there. -/
theorem query_of_unprepared (held : c.stmt = some statement)
    (fails : (answers.queries c.made).prepares = false) :
    c.query answers sQuery = .ok (({ c with made := c.made + 1 } : Connection).step
      (answers.queries c.made) statement) := by
  rcases c with ⟨inEffect, transaction, stmt, made⟩
  obtain rfl : stmt = some statement := held
  unfold query perform prepare
  rw [if_neg (Bool.eq_false_iff.mp fails)]
  rfl

/-- Behind the first statement, queries execute it until another one is prepared or the block
ends, and the process ends. -/
theorem foldlM_query_of_held (held : c.stmt = some statement)
    (transaction : c.transaction = pending.map (effects statement)) :
    queries.foldlM (query answers) c >>= release = .error (c.inEffect ++
      effects statement (lasting pending (executions answers c.made queries))) := by
  induction queries generalizing c pending with
  | nil => exact (release_of_some held).trans (congrArg _ (List.append_nil _).symm)
  | cons sQuery queries ih =>
    rw [List.foldlM_cons, executions]
    cases prepares : (answers.queries c.made).prepares with
    | true =>
      rw [query_of_prepared held prepares, if_pos rfl]
      exact congrArg _ (List.append_nil _).symm
    | false =>
      rw [query_of_unprepared held prepares, step_eq (c := { c with made := c.made + 1 })
        transaction, if_neg Bool.false_ne_true, lasting, effects_append, ← List.append_assoc]
      exact ih (c := { c with
        inEffect := c.inEffect ++ effects statement (settled pending (answers.queries c.made))
        transaction := (waiting pending (answers.queries c.made)).map (effects statement)
        made := c.made + 1 }) held rfl

/-- A block of queries passes all of them over, or ends the process with what lasts of the first
statement that is compiled. -/
theorem foldlM_query (empty : c.stmt = none)
    (opened : ∀ statement, c.transaction = pending.map (effects statement)) :
    queries.foldlM (query answers) c >>= release =
      match compiled answers c.made queries with
      | none => .ok { c with made := c.made + queries.length }
      | some (statement, during) =>
        .error (c.inEffect ++ effects statement (lasting pending during)) := by
  induction queries generalizing c with
  | nil => exact release_of_none empty
  | cons sQuery queries ih =>
    rw [List.foldlM_cons, compiled]
    cases found : compile answers c.made sQuery with
    | none =>
      have passes : c.query answers sQuery = .ok { c with made := c.made + 1 } := by
        refine perform_of_unprepared empty fun prepares => ?_
        rw [compile, if_pos prepares] at found
        exact found
      rw [passes]
      refine (ih (c := { c with made := c.made + 1 }) empty opened).trans ?_
      rw [List.length_cons, Nat.add_comm queries.length, ← Nat.add_assoc]
    | some statement =>
      obtain ⟨prepares, compiles⟩ := Option.ite_none_right_eq_some.mp found
      rw [query, perform_of_prepared empty prepares compiles,
        step_eq (c := { c with stmt := some statement, made := c.made + 1 }) (opened statement)]
      dsimp only
      rw [lasting, effects_append, ← List.append_assoc]
      exact foldlM_query_of_held (c := { c with
        inEffect := c.inEffect ++ effects statement (settled pending (answers.queries c.made))
        transaction := (waiting pending (answers.queries c.made)).map (effects statement)
        stmt := some statement
        made := c.made + 1 }) rfl rfl

end Connection

section Create

variable {answers : Answers} {JsonDB JsonCreate : Json} {c : Connection} {left idx : ℕ}

theorem createRevs_eq : createRevs answers JsonCreate left idx c =
    ((revStatements JsonCreate left idx).2.foldlM (Connection.query answers) c).map
      ((revStatements JsonCreate left idx).1, ·) := by
  induction left generalizing idx c with
  | zero => rfl
  | succ left ih =>
    rw [createRevs, revStatements]
    cases (JsonCreate.subscript (toString idx)).bind Json.getString with
    | none => rfl
    | some sQueryTmp =>
      dsimp only
      rw [List.foldlM_cons]
      cases c.query answers sQueryTmp with
      | error inEffect => rfl
      | ok c => exact ih

/-- The block makes the queries of the schema, until it ends or throws. -/
theorem makeQueries_eq : makeQueries answers JsonDB c =
    ((encoding :: (statements JsonDB).2).foldlM (Connection.query answers) c).map
      ((statements JsonDB).1, ·) := by
  rw [List.foldlM_cons]
  unfold makeQueries statements
  change (c.query answers encoding >>= _) = _
  cases c.query answers encoding with
  | error inEffect => rfl
  | ok c =>
    dsimp only [bind, Except.bind]
    cases JsonDB.subscript "Create" with
    | none =>
      dsimp only
      rw [List.foldlM_cons]
      cases c.query answers createDefault <;> rfl
    | some JsonCreate =>
      dsimp only
      cases (JsonCreate.subscript "Rev").bind Json.getInt with
      | none =>
        dsimp only
        rw [List.foldlM_cons]
        cases c.query answers createDefault <;> rfl
      | some nRev =>
        dsimp only
        have loop (c : Connection) := @createRevs_eq answers JsonCreate c nRev.toNat 1
        generalize revStatements JsonCreate nRev.toNat 1 = found at loop ⊢
        rcases found with ⟨through, queries⟩
        cases through with
        | false =>
          dsimp only
          rw [List.foldlM_cons]
          cases c.query answers createDefault with
          | error inEffect => rfl
          | ok c =>
            dsimp only [bind, Except.bind]
            rw [loop]
            cases queries.foldlM (Connection.query answers) c <;> rfl
        | true =>
          dsimp only
          rw [List.cons_append, List.foldlM_cons]
          cases c.query answers createDefault with
          | error inEffect => rfl
          | ok c =>
            dsimp only [bind, Except.bind]
            rw [loop, List.foldlM_append]
            cases queries.foldlM (Connection.query answers) c with
            | error inEffect => rfl
            | ok c =>
              dsimp only [bind, Except.bind, Except.map]
              rw [List.foldlM_cons]
              cases c.query answers (insertRev nRev) <;> rfl

theorem create_eq : create answers JsonDB c =
    ((encoding :: (statements JsonDB).2).foldlM (Connection.query answers) c >>=
      Connection.release).map ((statements JsonDB).1, ·) := by
  rw [create, makeQueries_eq]
  cases (encoding :: (statements JsonDB).2).foldlM (Connection.query answers) c with
  | error inEffect => rfl
  | ok c =>
    change ((c.release >>= fun c => _ : Except _ _) = (c.release : Except _ _).map _)
    cases c.release <;> rfl

end Create

namespace CSQLiteMgr

variable {answers : Answers} {dbInfo : DbInfo} {m : CSQLiteMgr} {JsonDB : Json} {f : File}

/-- A call comes to the block that creates the schema. -/
structure Enters (answers : Answers) (dbInfo : DbInfo) (m : CSQLiteMgr) (JsonDB : Json) : Prop
    extends Opens answers dbInfo m where
  goes : ¬ Journals answers dbInfo
  isMissing : m.files dbInfo.sFilePath = .missing
  loads : (m.publish dbInfo).loadJson dbInfo = some JsonDB
  isGiven : JsonDB.isNull = false

/-- SQLite takes the queries of the transaction from one number up to another. -/
def Takes (answers : Answers) (first past : ℕ) : Prop :=
  ∀ k, first ≤ k → k < past →
    (answers.queries k).prepares = true ∧ (answers.queries k).takesEffect = true

/-- All statements of the schema succeed, and no exception leaves the block. -/
def Completes (answers : Answers) (JsonDB : Json) : Prop :=
  (statements JsonDB).1 = true ∧ Takes answers 1 (1 + (statements JsonDB).2.length)

/-- What is in effect in the database, which was empty when the block was entered. -/
def inEffect (answers : Answers) (dbInfo : DbInfo) (m : CSQLiteMgr) : List String :=
  ((m.initDB answers dbInfo).2.files dbInfo.sFilePath).inEffect

/-- If a statement of the schema fails, or an exception leaves the block, the call does not
return `true`, and nothing of the schema lasts. -/
def AllOrNothing (answers : Answers) (dbInfo : DbInfo) (m : CSQLiteMgr) (JsonDB : Json) : Prop :=
  ¬ Completes answers JsonDB → (m.initDB answers dbInfo).1 ≠ .ret true ∧
    ∀ sQuery ∈ (statements JsonDB).2, ∀ statement ∈ answers.first sQuery,
      statement ∉ m.inEffect answers dbInfo

/-- The statement that is compiled first is none of the schema, or takes no effect, or only in a
transaction that it does not commit itself. -/
def Empties (answers : Answers) (JsonDB : Json) : Prop :=
  ∀ statement during, compiled answers 0 (encoding :: (statements JsonDB).2) =
      some (statement, during) →
    (∃ sQuery ∈ (statements JsonDB).2, answers.first sQuery = some statement) →
    ∀ answer ∈ lasting (if answers.begins then some [] else none) during,
      answer.takesEffect = false

/-- The outcome of a call that comes to the block, and what lasts of the block. -/
theorem initDB_of_enters (enters : m.Enters answers dbInfo JsonDB) :
    match compiled answers 0 (encoding :: (statements JsonDB).2) with
    | none => (m.initDB answers dbInfo).1 = (if (statements JsonDB).1 then .ret true else .throws) ∧
        m.inEffect answers dbInfo = []
    | some (statement, during) => (m.initDB answers dbInfo).1 = .aborts ∧
        m.inEffect answers dbInfo = Connection.effects statement
          (lasting (if answers.begins then some [] else none) during) := by
  obtain ⟨isExist, exists_eq, initDB_eq⟩ := initDB_of_opens enters.toOpens
  rw [enters.isMissing] at exists_eq
  obtain rfl := Option.some.inj exists_eq
  rw [setJournal_of_not_journals enters.goes] at initDB_eq
  dsimp only at initDB_eq
  rw [enters.loads] at initDB_eq
  dsimp only at initDB_eq
  rw [if_neg (Bool.eq_false_iff.mp enters.isGiven), if_neg Bool.false_ne_true] at initDB_eq
  have created : (m.publish dbInfo).files dbInfo.sFilePath = .file {} := by
    simp only [publish, enters.isMissing, Function.update_self]
  -- the connection with which the block begins
  have began : ((m.publish dbInfo).connect dbInfo.sFilePath).begin answers =
      { inEffect := [], transaction := if answers.begins then some [] else none } := by
    rw [connect, created, Connection.begin]
    cases answers.begins <;> rfl
  have block := @Connection.foldlM_query answers _
    (encoding :: (statements JsonDB).2) (if answers.begins then some [] else none)
    (congrArg Connection.stmt began) (fun statement => by rw [began]; cases answers.begins <;> rfl)
  rw [began] at block
  rw [inEffect, initDB_eq, createSchema, create_eq, began]
  dsimp only at block ⊢
  rw [block]
  cases compiled answers 0 (encoding :: (statements JsonDB).2) with
  | none =>
    refine ⟨rfl, ?_⟩
    dsimp only [Except.map]
    rw [files_write created]
    -- there is nothing to commit
    unfold Connection.commit Connection.finish
    cases answers.begins <;> cases answers.commits <;> rfl
  | some found =>
    refine ⟨rfl, ?_⟩
    dsimp only [Except.map]
    rw [files_write created, List.nil_append]
    rfl

/-- Creating a schema is all or nothing exactly where all of its statements succeed and no
exception leaves the block, or where a statement is compiled or an exception does leave the block,
and nothing of the schema lasts. -/
theorem allOrNothing_iff (enters : m.Enters answers dbInfo JsonDB) :
    m.AllOrNothing answers dbInfo JsonDB ↔
      Completes answers JsonDB ∨
        ((compiled answers 0 (encoding :: (statements JsonDB).2)).isSome = true ∨
          (statements JsonDB).1 = false) ∧ Empties answers JsonDB := by
  rw [AllOrNothing, Classical.or_iff_not_imp_left]
  refine imp_congr_right fun _ => ?_
  have ends := initDB_of_enters enters
  cases found : compiled answers 0 (encoding :: (statements JsonDB).2) with
  | none =>
    rw [found] at ends
    have empties : Empties answers JsonDB := by
      intro statement during again
      cases found.symm.trans again
    rw [ends.1, ends.2]
    cases (statements JsonDB).1 with
    | true => simp
    | false => simp [empties]
  | some first =>
    obtain ⟨statement, during⟩ := first
    rw [found] at ends
    have aborts : (m.initDB answers dbInfo).1 ≠ .ret true := by
      rw [ends.1]
      nofun
    rw [and_iff_right aborts, and_iff_right (.inl rfl), ends.2, Empties]
    constructor
    · intro spared statement' during' again
      cases found.symm.trans again
      rintro ⟨sQuery, member, compiles⟩ answer lasts
      by_contra takes
      refine spared sQuery member statement compiles (List.mem_map.mpr ⟨answer, ?_, rfl⟩)
      exact List.mem_filter.mpr ⟨lasts, eq_true_of_ne_false takes⟩
    · intro empties sQuery member statement' compiles lasts
      obtain ⟨answer, executed, rfl⟩ := List.mem_map.mp lasts
      obtain ⟨lasts, takes⟩ := List.mem_filter.mp executed
      rw [empties statement during found ⟨sQuery, member, compiles⟩ answer lasts] at takes
      cases takes

/-- What its file says of the database of one table. -/
def usersJson : Json :=
  .object [("Create", .object
    [("Rev", .number 1), ("1", .string "CREATE TABLE TBL_USER( id TEXT NOT NULL );")])]

open History in
/-- That database is new. -/
theorem enters_users (opens : answers.opens = true) :
    (start described).mgr.Enters answers users usersJson where
  named := by decide
  isNew := rfl
  accessible := nofun
  opens := opens
  goes journals := Bool.false_ne_true journals.1
  isMissing := rfl
  loads := rfl
  isGiven := rfl

open History in
/-- Its table is not prepared. But `TBL_DEFAULT` is, and that ends the process. -/
theorem allOrNothing_users : (start described).mgr.AllOrNothing
    { queries := fun k => if k = 2 then { prepares := false } else {} } users usersJson := by
  refine (allOrNothing_iff (enters_users rfl)).mpr (.inr ⟨.inl (by decide), ?_⟩)
  intro statement during found ⟨sQuery, member, compiles⟩
  -- what is executed is the query of the encoding
  have only : some (encoding, [({} : Answer)]) = some (statement, during) := found
  obtain ⟨rfl, -⟩ := Prod.mk.inj (Option.some.inj only)
  obtain rfl := Option.some.inj compiles
  exact absurd member (by decide)

/-- Where nothing is prepared, nothing is missed. -/
theorem not_allOrNothing_of_table :
    ¬ ∀ (answers : Answers) (dbInfo : DbInfo) (m : CSQLiteMgr) (JsonDB : Json),
      m.Enters answers dbInfo JsonDB → m.AllOrNothing answers dbInfo JsonDB := by
  intro all
  let answers : Answers := { queries := fun _ => { prepares := false } }
  have whole := all answers _ _ _ (enters_users rfl)
  have incomplete : ¬ Completes answers usersJson := fun completes =>
    absurd (completes.2 1 (by decide) (by decide)).1 (by decide)
  exact absurd (by decide) (whole incomplete).1

end CSQLiteMgr

end ExLibs.SQLite
