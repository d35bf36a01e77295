/-
# Statements

A statement is a cursor over the rows of its query, and the `cStmt` objects that refer to it
share it. The destructor of each of them takes it back to before the first row, and an assignment
passes on the statement without what else an object has to know of it. So the objects are one
cursor as long as none of them is destroyed on a row, and those that are used have come about by
execution and copying. What becomes of a statement to which no object refers is left aside here.
-/
import ExLibs.Math.Cursor
import ExLibs.Math.Record
import ExLibs.Math.Transition

namespace ExLibs.SQLite

open ExLibs.Math

/-- A query, with what SQLite finds when it executes it. -/
structure Query where
  columns : List String
  /-- The texts in the columns. `NULL` has none. -/
  rows : List (List (Option String))
  wide : ∀ row ∈ rows, row.length = columns.length

namespace Query

/-- `sqlite3_column_name`. It is `NULL` where there is no column, and an `XString` made of that is
empty. -/
def columnName (q : Query) (nIdx : ℕ) : String := (q.columns[nIdx]?).getD ""

/-- `sqlite3_column_text`, on a row or on none. -/
def columnText (q : Query) (row : Option ℕ) (nIdx : ℕ) : Option String :=
  ((row.bind fun k => q.rows[k]?).bind fun texts => texts[nIdx]?).join

/-- `_wcsicmp` finds no difference. -/
def sameName (sColumnName s : String) : Bool :=
  s.toList.map Char.toLower == sColumnName.toList.map Char.toLower

/-- What a row has in a column, which goes by the first one of its name. -/
def read (q : Query) (row : Option ℕ) (sColumnName : String) : String :=
  match q.columns.findIdx? (sameName sColumnName) with
  | some nIdx => (q.columnText row nIdx).getD ""
  | none => ""

/-- The column of a name is one of the first, if there is one. -/
def Counts (q : Query) (nColumnCnt : ℕ) (sColumnName : String) : Prop :=
  ∀ nIdx ∈ q.columns.findIdx? (sameName sColumnName), nIdx < nColumnCnt

instance (q : Query) (nColumnCnt : ℕ) (sColumnName : String) :
    Decidable (q.Counts nColumnCnt sColumnName) :=
  inferInstanceAs
    (Decidable (∀ nIdx ∈ q.columns.findIdx? (sameName sColumnName), nIdx < nColumnCnt))

end Query

/-- `cStmt`. -/
structure CStmt where
  /-- `_stmt` is the statement. -/
  stmt : Bool := false
  nColumnCnt : ℕ := 0
  /-- `_db` is not `NULL`. The constructors leave it as it is. -/
  db : Bool

/-- `operator=`. -/
def CStmt.assign (c rhs : CStmt) : CStmt := { c with stmt := rhs.stmt }

/-- What `Next` and `Value` have returned. -/
inductive Statement.Event
  /-- `Next` returns whether the statement is on a row. -/
  | next (row : Option ℕ)
  | value (sColumnName sRet : String)
  deriving DecidableEq

/-- A statement, with the objects there are. -/
structure Statement where
  query : Query
  /-- The row that it is on. -/
  row : Option ℕ := none
  stmts : ℕ → Option CStmt
  /-- How many objects there have been. -/
  made : ℕ
  /-- It has been reset on a row since the last `Next`. -/
  rewound : Bool := false
  log : List Statement.Event := []

namespace Statement

/-- A step of a program. -/
inductive Label
  /-- An object that does not refer to the statement: a new one, or one of another query. -/
  | construct (nColumnCnt : ℕ) (db : Bool)
  | copy (i : ℕ)
  /-- A copy is passed to a function, and destroyed when that returns. -/
  | pass (i : ℕ)
  | assign (i rhs : ℕ)
  | destroy (i : ℕ)
  | next (i : ℕ)
  | value (i : ℕ) (sColumnName : String)

/-- `sqlite3_step`. -/
def sqlite3Step (s : Statement) : Statement :=
  { s with row := advance s.query.rows.length s.row }

/-- `sqlite3_reset`. -/
def sqlite3Reset (s : Statement) : Statement := { s with row := none }

/-- An object comes up. -/
def add (c : CStmt) (s : Statement) : Statement :=
  { s with stmts := Function.update s.stmts s.made (some c), made := s.made + 1 }

/-- `~cStmt`. -/
def drop (c : CStmt) (s : Statement) : Statement :=
  if c.stmt then { s.sqlite3Reset with rewound := s.rewound || s.row.isSome } else s

/-- `Next`. -/
def next (c : CStmt) (s : Statement) : Statement :=
  if c.db then
    let s := s.sqlite3Step
    { s with rewound := false, log := s.log ++ [.next s.row] }
  else { s with log := s.log ++ [.next none] }

/-- What `Value` returns. -/
def value (c : CStmt) (sColumnName : String) (s : Statement) : String :=
  if c.db then
    match (List.range c.nColumnCnt).find? fun nIdx =>
      Query.sameName sColumnName (s.query.columnName nIdx) with
    | some nIdx => (s.query.columnText s.row nIdx).getD ""
    | none => ""
  else ""

/-- The object that `Next` or `Value` is called on, which refers to the statement. -/
def callee (s : Statement) (i : ℕ) : Option CStmt := (s.stmts i).filter CStmt.stmt

def step (s : Statement) : Label → Option Statement
  | .construct nColumnCnt db => some (s.add { nColumnCnt, db })
  | .copy i => (s.stmts i).map fun c => s.add c
  | .pass i => (s.stmts i).map fun c => s.drop c
  | .assign i rhs =>
    (s.stmts i).bind fun c => (s.stmts rhs).map fun rhs =>
      { s with stmts := Function.update s.stmts i (some (c.assign rhs)) }
  | .destroy i =>
    (s.stmts i).map fun c => { s.drop c with stmts := Function.update s.stmts i none }
  | .next i => (s.callee i).map fun c => s.next c
  | .value i sColumnName => (s.callee i).map fun c =>
      { s with log := s.log ++ [.value sColumnName (s.value c sColumnName)] }

/-- `PrepareSQL` on a new object, which it assigns the object that it makes of the statement. -/
def prepareSQL (query : Query) (c made : CStmt) : Statement :=
  let made := { made with stmt := true }
  let s := { query, stmts := fun _ => none, made := 0 : Statement }.add (c.assign made)
  s.drop made

/-- `ExecuteSQL`. -/
def executeSQL (i : ℕ) (s : Statement) : Statement :=
  let s := s.sqlite3Step.sqlite3Reset
  let c := (s.stmts i).map fun c => { c with nColumnCnt := s.query.columns.length, db := true }
  { s with stmts := Function.update s.stmts i c }

/-- A query has been executed. -/
def executed (query : Query) (c made : CStmt) : Statement :=
  (prepareSQL query c made).executeSQL 0

/-- What the calls of `Next` have told. -/
def told (log : List Event) : List (Option ℕ) :=
  log.filterMap fun
    | .next row => some row
    | .value .. => none

/-- The row that the last call of `Next` has come to. -/
def current (log : List Event) : Option ℕ := (told log).getLast?.join

/-- `Value` returns what the current row has. -/
def Reads (query : Query) (before : List Event) : Event → Prop
  | .value sColumnName sRet => sRet = query.read (current before) sColumnName
  | .next _ => True

/-- The objects behave like one cursor. -/
structure OneCursor (s : Statement) : Prop where
  visits : InOrder s.query.rows.length (told s.log)
  reads : Lawful (Reads s.query) s.log

/-- `Next` and `Value` are called on objects that know their statement, and not after the statement
has been reset on a row; but once the rows are over, `Next` may be. -/
def Careful (s : Statement) : Label → Prop
  | .next i => ∀ c ∈ s.stmts i, c.db = true ∧ (s.rewound = true → none ∈ told s.log)
  | .value i sColumnName => ∀ c ∈ s.stmts i, c.db = true ∧
      s.query.Counts c.nColumnCnt sColumnName ∧ s.rewound = false
  | _ => True

section Calls

variable {query : Query} {s t : Statement} {c made : CStmt} {sColumnName : String} {label : Label}
  {labels : List Label} {log : List Event} {row : Option ℕ}

theorem told_next : told (log ++ [.next row]) = told log ++ [row] := List.filterMap_append

theorem current_next : current (log ++ [.next row]) = row := by
  rw [current, told_next, List.getLast?_append, List.getLast?_singleton]
  rfl

theorem told_value {sRet : String} : told (log ++ [.value sColumnName sRet]) = told log :=
  List.filterMap_append.trans (List.append_nil _)

/-- No row has more texts than there are columns. -/
theorem columnText_of_le {nIdx : ℕ} (outside : query.columns.length ≤ nIdx) :
    query.columnText row nIdx = none := by
  unfold Query.columnText
  cases found : row.bind fun k => query.rows[k]? with
  | none => rfl
  | some texts =>
    obtain ⟨k, -, present⟩ := Option.bind_eq_some_iff.mp found
    have wide := query.wide texts (List.mem_of_getElem? present)
    rw [Option.bind_some, List.getElem?_eq_none (wide ▸ outside)]
    rfl

/-- `Value` on an object that knows the column reads the row that the statement is on. -/
theorem value_eq_read (db : c.db = true) (counts : s.query.Counts c.nColumnCnt sColumnName) :
    s.value c sColumnName = s.query.read s.row sColumnName := by
  rw [value, if_pos db, Query.read]
  cases found : s.query.columns.findIdx? (Query.sameName sColumnName) with
  | some nIdx =>
    obtain ⟨inside, matches_, first⟩ := List.findIdx?_eq_some_iff_getElem.mp found
    have same : (List.range c.nColumnCnt).find? (fun nIdx =>
        Query.sameName sColumnName (s.query.columnName nIdx)) = some nIdx := by
      refine List.find?_range_eq_some.mpr ⟨?_, List.mem_range.mpr (counts nIdx found), ?_⟩
      · simpa [Query.columnName, inside] using matches_
      · intro before less
        have inside := less.trans inside
        simpa [Query.columnName, inside] using first before less
    rw [same]
  | none =>
    split
    · rename_i nIdx other
      -- beyond the columns the names are empty, and there are no texts
      have outside : s.query.columns.length ≤ nIdx := by
        by_contra inside
        rw [not_le] at inside
        have differs := List.findIdx?_eq_none_iff.mp found _ (List.getElem_mem inside)
        have matches_ := (List.find?_range_eq_some.mp other).1
        simp [Query.columnName, inside, differs] at matches_
      rw [columnText_of_le outside]
      rfl
    · rfl

/-- The objects are one cursor, and the statement is on its row unless it has been reset. -/
structure Sound (s : Statement) : Prop where
  oneCursor : s.OneCursor
  row_eq : s.row = if s.rewound then none else current s.log

theorem sound_executed : (executed query c made).Sound :=
  ⟨⟨inOrder_nil _, .nil⟩, rfl⟩

/-- It does not matter which objects there are. -/
theorem Sound.of_stmts {stmts : ℕ → Option CStmt} {made : ℕ} (sound : s.Sound) :
    Sound { s with stmts, made } :=
  ⟨⟨sound.oneCursor.visits, sound.oneCursor.reads⟩, sound.row_eq⟩

/-- `Next` advances the statement. -/
theorem Sound.next (sound : s.Sound) (db : c.db = true)
    (isOver : s.rewound = true → none ∈ told s.log) : (s.next c).Sound := by
  obtain ⟨⟨visits, reads⟩, row_eq⟩ := sound
  rw [Statement.next, if_pos db]
  refine ⟨⟨?_, .snoc reads trivial⟩, current_next.symm⟩
  change InOrder _ (told (s.log ++ [.next (advance _ s.row)]))
  rw [told_next, row_eq]
  -- the row is that of the last call, or else the rows are over anyway
  split
  · rename_i rewound
    exact visits.concat_of_mem (isOver rewound)
  · exact visits.concat_advance

/-- The destructor of an object takes the statement off its row. -/
theorem Sound.drop (sound : s.Sound) : (s.drop c).Sound := by
  unfold Statement.drop
  split
  · refine ⟨⟨sound.oneCursor.visits, sound.oneCursor.reads⟩, ?_⟩
    change none = if s.rewound || s.row.isSome then none else current s.log
    split
    · rfl
    · rename_i kept
      rw [Bool.or_eq_true, not_or, Bool.not_eq_true, Bool.not_eq_true] at kept
      have same := sound.row_eq
      rw [kept.1, if_neg Bool.false_ne_true] at same
      rw [← same]
      exact (Option.isSome_eq_false_iff.mp kept.2 |> Option.isNone_iff_eq_none.mp).symm
  · exact sound

theorem Sound.value (sound : s.Sound) (db : c.db = true)
    (counts : s.query.Counts c.nColumnCnt sColumnName) (kept : s.rewound = false) :
    Sound { s with log := s.log ++ [.value sColumnName (s.value c sColumnName)] } := by
  obtain ⟨⟨visits, reads⟩, row_eq⟩ := sound
  rw [kept, if_neg Bool.false_ne_true] at row_eq
  refine ⟨⟨?_, .snoc reads ?_⟩, ?_⟩
  · change InOrder _ (told (s.log ++ [_]))
    rwa [told_value]
  · exact (value_eq_read db counts).trans (row_eq ▸ rfl)
  · dsimp only
    rw [kept, if_neg Bool.false_ne_true, current, told_value]
    exact row_eq

theorem sound_of_step (sound : s.Sound) (careful : s.Careful label)
    (next : s.step label = some t) : t.Sound := by
  cases label with
  | construct nColumnCnt db =>
    obtain rfl := Option.some.inj next
    exact sound.of_stmts
  | copy i =>
    obtain ⟨c, -, rfl⟩ := Option.map_eq_some_iff.mp next
    exact sound.of_stmts
  | pass i =>
    obtain ⟨c, -, rfl⟩ := Option.map_eq_some_iff.mp next
    exact sound.drop
  | assign i rhs =>
    obtain ⟨c, -, next⟩ := Option.bind_eq_some_iff.mp next
    obtain ⟨c', -, rfl⟩ := Option.map_eq_some_iff.mp next
    exact sound.of_stmts
  | destroy i =>
    obtain ⟨c, -, rfl⟩ := Option.map_eq_some_iff.mp next
    have dropped : (s.drop c).Sound := sound.drop
    exact dropped.of_stmts
  | next i =>
    obtain ⟨c, found, rfl⟩ := Option.map_eq_some_iff.mp next
    obtain ⟨db, isOver⟩ := careful c (Option.filter_eq_some_iff.mp found).1
    exact sound.next db isOver
  | value i sColumnName =>
    obtain ⟨c, found, rfl⟩ := Option.map_eq_some_iff.mp next
    obtain ⟨db, counts, kept⟩ := careful c (Option.filter_eq_some_iff.mp found).1
    exact sound.value db counts kept

/-- In a run of careful steps the objects behave like one cursor. -/
theorem oneCursor_of_careful (run : Run step Careful (executed query c made) labels s) :
    s.OneCursor :=
  (run.invariant sound_executed fun _ _ _ => sound_of_step).oneCursor

/-- Two rows. -/
def two : Query where
  columns := ["id"]
  rows := [[some "a"], [some "b"]]
  wide := by decide

instance : Decidable (s.Careful label) := by
  cases label with
  | next => exact inferInstanceAs (Decidable (∀ c ∈ _, _ ∧ _))
  | value => exact inferInstanceAs (Decidable (∀ c ∈ _, _ ∧ _ ∧ _))
  | _ => exact .isTrue trivial

/-- The objects of a query that has been executed. -/
def begun : Statement := executed two { db := false } { db := false }

/-- A copy goes on with the rows of its original, which reads them and sees their end. -/
theorem oneCursor_of_copy : ∃ s : Statement, s.log =
    [.next (some 0), .next (some 1), .value "ID" "b", .next none] ∧ s.OneCursor := by
  have calls : ∃ s, Run step Careful begun
      [.pass 0, .next 0, .copy 0, .next 1, .value 0 "ID", .next 0, .destroy 1] s ∧
      decide (s.log = [.next (some 0), .next (some 1), .value "ID" "b", .next none]) = true :=
    exists_run_of_guarded (fun _ _ => of_decide_eq_true) (by decide)
  obtain ⟨s, run, logged⟩ := calls
  exact ⟨s, of_decide_eq_true logged, oneCursor_of_careful run⟩

/-- Rows that are told again, or not at all, are not in order. -/
theorem not_inOrder : ¬ InOrder 2 [some 0, some 0] ∧ ¬ InOrder 2 [none] := by
  constructor
  · rintro ⟨k, -, visits, -⟩
    obtain rfl : k = 2 := by simpa using (congrArg List.length visits).symm
    exact absurd visits (by decide)
  · rintro ⟨k, -, visits, all⟩
    obtain rfl := all List.mem_cons_self
    exact absurd visits (by decide)

/-- A copy that is destroyed takes the statement back to its start, so that a row comes again, or
none is there to read. And an object that is assigned the statement need not know that it has a
database. -/
theorem not_oneCursor_of_pass :
    (∃ s : Statement, Run step Free begun [.next 0, .pass 0, .next 0] s ∧ ¬ s.OneCursor) ∧
    (∃ s : Statement, Run step Free begun [.next 0, .pass 0, .value 0 "id"] s ∧ ¬ s.OneCursor) ∧
    ∃ s : Statement, Run step Free begun [.construct 0 false, .assign 1 0, .next 1] s ∧
      ¬ s.OneCursor := by
  have disordered {labels : List Label} (log : List Event)
      (ends : (exec step begun labels).any
        (fun s => s.query.rows.length = 2 ∧ s.log = log) = true)
      (disorder : ¬ InOrder 2 (told log)) : ∃ s, Run step Free begun labels s ∧ ¬ s.OneCursor := by
    obtain ⟨s, run, logged⟩ := exists_run_of_exec ends
    obtain ⟨length, same⟩ := of_decide_eq_true logged
    refine ⟨s, run, fun oneCursor => disorder ?_⟩
    have visits := oneCursor.visits
    rwa [length, same] at visits
  refine ⟨disordered [.next (some 0), .next (some 0)] (by decide) not_inOrder.1, ?_,
    disordered [.next none] (by decide) not_inOrder.2⟩
  have blank : (exec step begun [.next 0, .pass 0, .value 0 "id"]).any (fun s =>
      s.query.read (some 0) "id" = "a" ∧ s.log = [.next (some 0), .value "id" ""]) = true := by
    decide
  obtain ⟨s, run, logged⟩ := exists_run_of_exec blank
  obtain ⟨expected, same⟩ := of_decide_eq_true logged
  refine ⟨s, run, fun oneCursor => ?_⟩
  have reads := oneCursor.reads
  rw [same] at reads
  have read : Reads s.query [.next (some 0)] (.value "id" "") := reads.permitted
  change "" = s.query.read (some 0) "id" at read
  rw [expected] at read
  exact absurd read (by decide)

end Calls

end Statement

end ExLibs.SQLite
