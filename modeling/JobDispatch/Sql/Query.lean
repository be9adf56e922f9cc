import JobDispatch.Job.Filter

/-!
# Listing jobs in a database

A filter becomes a query: fragments of text and values that are bound to it.  The n-th value stands in
the text as a dollar sign and the number n.

## Main definitions

* `SqlQuery` — fragments and values.
* `SqlQuery.text` — the text, with the values numbered from one.
* `JobFilter.query`, `JobFilter.countQuery` — the queries for a page of jobs and for their number.
-/

namespace JobDispatch

/-- A value that is bound to a query. -/
inductive SqlValue
  | status (status : JobStatus)
  | text (s : String)
  | number (n : Int)
  deriving DecidableEq

/-- A part of a query. -/
inductive SqlPart
  | fragment (s : String)
  | bound (value : SqlValue)
  deriving DecidableEq

/-- A query, part by part. -/
abbrev SqlQuery := List SqlPart

namespace SqlQuery

/-- The text of a query whose values are numbered from `n`. -/
def textFrom : Nat → SqlQuery → String
  | _, [] => ""
  | n, .fragment s :: rest => s ++ textFrom n rest
  | n, .bound _ :: rest => "$" ++ toString n ++ textFrom (n + 1) rest

/-- The text of a query. -/
def text (q : SqlQuery) : String := textFrom 1 q

/-- The values of a query, in the order of their numbers. -/
def values (q : SqlQuery) : List SqlValue :=
  q.filterMap fun
    | .bound value => some value
    | .fragment _ => none

end SqlQuery

/-- The columns of a job. -/
def jobColumns : String :=
  "id, name, job_type, status, priority, estimated_duration, payload, result, error_message, " ++
    "retry_count, max_retries, created_at, scheduled_at, started_at, completed_at"

namespace JobFilter

/-- The condition on the state. -/
def statusCondition (f : JobFilter) : Option SqlQuery :=
  f.status.map fun status => [.fragment " status = ", .bound (.status status)]

/-- The condition on the job type. -/
def jobTypeCondition (f : JobFilter) : Option SqlQuery :=
  f.jobType.map fun jobType => [.fragment " job_type = ", .bound (.text jobType)]

/-- All conditions, the first after WHERE and the second after AND. -/
def conditions (f : JobFilter) : SqlQuery :=
  match f.statusCondition, f.jobTypeCondition with
  | none, none => []
  | some c, none => .fragment " WHERE" :: c
  | none, some c => .fragment " WHERE" :: c
  | some c, some d => .fragment " WHERE" :: c ++ .fragment " AND" :: d

/-- The largest number that can be bound. -/
def maxSqlNumber : Nat := Nat.pow 2 63 - 1

/-- **The query for a page of jobs**, newest first. -/
def query (f : JobFilter) : SqlQuery :=
  .fragment ("SELECT " ++ jobColumns ++ " FROM jobs") :: f.conditions ++
    [.fragment " ORDER BY created_at DESC LIMIT ", .bound (.number f.pageSize.toNat),
     .fragment " OFFSET ", .bound (.number (min f.offset.toNat maxSqlNumber))]

/-- The query for the number of matching jobs. -/
def countQuery (f : JobFilter) : SqlQuery := .fragment "SELECT COUNT(*) FROM jobs" :: f.conditions

end JobFilter

end JobDispatch
