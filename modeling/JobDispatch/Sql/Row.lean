import JobDispatch.Job.Filter
import JobDispatch.Store.Basic

/-!
# Rows of a database

A database keeps small numbers as signed ones of 32 bits and counts as signed ones of 64 bits.

## Main definitions

* `JobRow` — a row of the table of jobs, and `JobRow.job`, the job that it holds.
* `StatsRow` — a row of counts, and `StatsRow.stats`, the counts.
-/

namespace JobDispatch

/-- A row of the table of jobs. -/
structure JobRow where
  id : JobId
  name : String
  jobType : String
  status : JobStatus
  priority : Int32
  estimatedDuration : Double
  payload : Json
  result : Option Json
  errorMessage : Option String
  retryCount : Int32
  maxRetries : Int32
  createdAt : Timestamp
  scheduledAt : Option Timestamp
  startedAt : Option Timestamp
  completedAt : Option Timestamp

namespace JobRow

/-- A number that must lie between zero and `limit`. -/
def within (limit : Nat) (n : Int32) : Except StoreError Nat :=
  if 0 ≤ n.toInt ∧ n.toInt ≤ limit then .ok n.toInt.toNat else .error .badState

/-- **The job that a row holds**, if its numbers are in their ranges. -/
def job (r : JobRow) : Except StoreError Job := do
  let priority ← within 255 r.priority
  let retryCount ← within 65535 r.retryCount
  let maxRetries ← within 65535 r.maxRetries
  return {
    id := r.id
    name := r.name
    jobType := r.jobType
    status := r.status
    priority := UInt8.ofNat priority
    estimatedDuration := r.estimatedDuration
    payload := r.payload
    result := r.result
    errorMessage := r.errorMessage
    retryCount := UInt16.ofNat retryCount
    maxRetries := UInt16.ofNat maxRetries
    createdAt := r.createdAt
    scheduledAt := r.scheduledAt
    startedAt := r.startedAt
    completedAt := r.completedAt }

end JobRow

/-- A row of counts. -/
structure StatsRow where
  total : Int64 := 0
  pending : Int64 := 0
  scheduled : Int64 := 0
  running : Int64 := 0
  completed : Int64 := 0
  failed : Int64 := 0
  avgExecutionTimeMs : Option Double := none

/-- The counts of a row; a negative one counts nothing. -/
def StatsRow.stats (r : StatsRow) : JobStats where
  total := r.total.toInt.toNat
  pending := r.pending.toInt.toNat
  scheduled := r.scheduled.toInt.toNat
  running := r.running.toInt.toNat
  completed := r.completed.toInt.toNat
  failed := r.failed.toInt.toNat
  avgExecutionTimeMs := r.avgExecutionTimeMs

end JobDispatch
