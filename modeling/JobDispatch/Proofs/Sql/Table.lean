import JobDispatch.Proofs.Sql.Statement
import JobDispatch.Sql.Row
import Mathlib.Data.List.Forall2

/-!
# What a statement gives

A table has rows, in no order, and a row has values under the names of its columns.  What a statement gives
for the tables of a database is a relation: the rows may come in any order that the statement allows.

## Main definitions

* `SqlCell`, `SqlRow` — a value, and a row.
* `SqlStatement.Gives` — **what a statement gives.**
* `SqlQuery.Gives` — what a query gives, by its text and its values.
* `JobRow.cells`, `JobRow.read?` — a row of the table of jobs, column by column.

## Main results

* `JobRow.read?_cells` — a row is read as it is.
-/

namespace JobDispatch

/-- A value in a row. -/
inductive SqlCell
  | null
  | id (id : JobId)
  | text (s : String)
  | status (status : JobStatus)
  | integer (n : Int32)
  | real (x : Double)
  | json (v : Json)
  | time (t : Timestamp)

/-- A row: values under the names of their columns. -/
abbrev SqlRow := List (String × SqlCell)

/-- What a statement gives: rows, or their number. -/
inductive SqlAnswer
  | rows (rows : List SqlRow)
  | number (n : Nat)

/-! ### The meaning of a statement -/

namespace SqlCell

/-- Whether a value equals a bound one of its kind.  What is not there equals nothing. -/
def equals? : SqlCell → SqlValue → Option Bool
  | .null, _ => some false
  | .text s, .text t => some (s == t)
  | .status s, .status t => some (s == t)
  | .integer m, .number n => some (m.toInt == n)
  | _, _ => none

/-- A value does not come after another of its kind. -/
def NotAfter : SqlCell → SqlCell → Prop
  | .integer m, .integer n => m ≤ n
  | .time t, .time u => t ≤ u
  | _, _ => False

end SqlCell

/-- The value with a number. -/
def SqlValue.numbered? (values : List SqlValue) : Nat → Option SqlValue
  | 0 => none
  | n + 1 => values[n]?

/-- The value with a number, if it can count rows. -/
def SqlValue.count? (values : List SqlValue) (n : Nat) : Option Nat :=
  match numbered? values n with
  | some (.number (.ofNat k)) => some k
  | _ => none

/-- Whether a condition holds of a row: the column and the value must be there, and of one kind. -/
def SqlEquality.holds? (e : SqlEquality) (values : List SqlValue) (row : SqlRow) : Option Bool := do
  let cell ← row.lookup e.column
  let value ← SqlValue.numbered? values e.value
  cell.equals? value

namespace SqlStatement

variable (q : SqlStatement) (values : List SqlValue)

/-- **The rows of a table of which all conditions hold.** -/
structure Chooses (table chosen : List SqlRow) : Prop where
  holds : ∀ row ∈ table, ∀ e ∈ q.equalities, (e.holds? values row).isSome
  eq_filter : chosen = table.filter fun row => q.equalities.all fun e => e.holds? values row == some true

/-- **Rows in an order that is allowed.** -/
structure Orders (chosen listed : List SqlRow) : Prop where
  perm : listed.Perm chosen
  descending : ∀ column ∈ q.descending, ∃ keys,
    List.Forall₂ (fun row key => row.lookup column = some key) listed keys ∧
      keys.Pairwise fun key key' => key'.NotAfter key

/-- **The part of the rows that is wanted.** -/
def part? (listed : List SqlRow) : Option (List SqlRow) := do
  let skipped ← match q.offset with
    | none => some 0
    | some n => SqlValue.count? values n
  match q.limit with
  | none => some (listed.drop skipped)
  | some n => (SqlValue.count? values n).map fun most => (listed.drop skipped).take most

/-- Some columns of a row. -/
def columns? (names : List String) (row : SqlRow) : Option SqlRow :=
  names.mapM fun name => (row.lookup name).map fun cell => (name, cell)

/-- **What a statement gives**, for the values that are bound to it and the tables that there are. -/
inductive Gives (tables : String → Option (List SqlRow)) : SqlAnswer → Prop
  | rows {names : List String} {table chosen listed part rows : List SqlRow}
    (hselection : q.selection = .columns names) (htable : tables q.table = some table)
    (hchosen : q.Chooses values table chosen) (hlisted : q.Orders chosen listed)
    (hpart : q.part? values listed = some part)
    (hrows : List.Forall₂ (fun row row' => columns? names row = some row') part rows) :
    Gives tables (.rows rows)
  | number {table chosen : List SqlRow} (hselection : q.selection = .count)
    (hwhole : q.descending = none ∧ q.limit = none ∧ q.offset = none)
    (htable : tables q.table = some table) (hchosen : q.Chooses values table chosen) :
    Gives tables (.number chosen.length)

end SqlStatement

/-- **What a query gives**: what its text says, for its values. -/
def SqlQuery.Gives (q : SqlQuery) (tables : String → Option (List SqlRow)) (answer : SqlAnswer) : Prop :=
  ∃ statement, SqlStatement.parse? q.text = some statement ∧ statement.Gives q.values tables answer

/-! ### The table of jobs -/

namespace SqlCell

/-- A value that may not be there. -/
def ofOption {α : Type} (f : α → SqlCell) : Option α → SqlCell
  | none => .null
  | some a => f a

def id? : SqlCell → Option JobId
  | .id i => some i
  | _ => none

def text? : SqlCell → Option String
  | .text s => some s
  | _ => none

def status? : SqlCell → Option JobStatus
  | .status st => some st
  | _ => none

def integer? : SqlCell → Option Int32
  | .integer n => some n
  | _ => none

def real? : SqlCell → Option Double
  | .real x => some x
  | _ => none

def json? : SqlCell → Option Json
  | .json v => some v
  | _ => none

def time? : SqlCell → Option Timestamp
  | .time t => some t
  | _ => none

/-- Reads a value that may not be there. -/
def nullable {α : Type} (f? : SqlCell → Option α) : SqlCell → Option (Option α)
  | .null => some none
  | cell => (f? cell).map some

end SqlCell

namespace JobRow

open SqlCell

/-- A row of the table of jobs, column by column. -/
def cells (r : JobRow) : SqlRow :=
  [("id", .id r.id), ("name", .text r.name), ("job_type", .text r.jobType), ("status", .status r.status),
   ("priority", .integer r.priority), ("estimated_duration", .real r.estimatedDuration),
   ("payload", .json r.payload), ("result", ofOption .json r.result),
   ("error_message", ofOption .text r.errorMessage), ("retry_count", .integer r.retryCount),
   ("max_retries", .integer r.maxRetries), ("created_at", .time r.createdAt),
   ("scheduled_at", ofOption .time r.scheduledAt), ("started_at", ofOption .time r.startedAt),
   ("completed_at", ofOption .time r.completedAt)]

/-- Reads a row, each column by its name. -/
def read? (row : SqlRow) : Option JobRow := do
  return {
    id := ← (← row.lookup "id").id?
    name := ← (← row.lookup "name").text?
    jobType := ← (← row.lookup "job_type").text?
    status := ← (← row.lookup "status").status?
    priority := ← (← row.lookup "priority").integer?
    estimatedDuration := ← (← row.lookup "estimated_duration").real?
    payload := ← (← row.lookup "payload").json?
    result := ← (← row.lookup "result").nullable json?
    errorMessage := ← (← row.lookup "error_message").nullable text?
    retryCount := ← (← row.lookup "retry_count").integer?
    maxRetries := ← (← row.lookup "max_retries").integer?
    createdAt := ← (← row.lookup "created_at").time?
    scheduledAt := ← (← row.lookup "scheduled_at").nullable time?
    startedAt := ← (← row.lookup "started_at").nullable time?
    completedAt := ← (← row.lookup "completed_at").nullable time? }

theorem nullable_ofOption {α : Type} {f : α → SqlCell} {f? : SqlCell → Option α}
    (h : ∀ a, f? (f a) = some a) (hnull : ∀ a, f a ≠ .null) (o : Option α) :
    nullable f? (ofOption f o) = some o := by
  cases o with
  | none => rfl
  | some a =>
    simp only [ofOption, nullable]
    split
    · exact absurd ‹_› (hnull a)
    · rw [h, Option.map_some]

/-- **A row is read as it is.** -/
theorem read?_cells (r : JobRow) : read? r.cells = some r := by
  have htext : ∀ o, nullable text? (ofOption text o) = some o := nullable_ofOption (fun _ => rfl) nofun
  have hjson : ∀ o, nullable json? (ofOption json o) = some o := nullable_ofOption (fun _ => rfl) nofun
  have htime : ∀ o, nullable time? (ofOption time o) = some o := nullable_ofOption (fun _ => rfl) nofun
  simp [read?, cells, List.lookup_cons, id?, text?, status?, integer?, real?, json?, time?, htext, hjson, htime]

/-- A row has all columns of a job, in their order. -/
theorem columns?_cells (r : JobRow) : SqlStatement.columns? jobColumnNames r.cells = some r.cells := by
  simp [SqlStatement.columns?, jobColumnNames, cells, List.lookup_cons]

end JobRow

end JobDispatch
