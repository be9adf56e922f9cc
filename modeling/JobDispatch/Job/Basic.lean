import JobDispatch.Job.Id
import JobDispatch.Job.Status
import JobDispatch.Json.Value
import JobDispatch.Time.Timestamp

/-!
# Jobs

A job is the durable record of one unit of work.  Inside the scheduler it travels as a *ticket*, the
part of it that policies order and that ready messages carry.  A job that has used up its retries
leaves a *dead letter*.

## Main definitions

* `NewJob` — what a job is made from.
* `Job` — the record.
* `Ticket` — the part of a job that is queued and dispatched.
* `DeadLetter` — what is kept of a job that has used up its retries.
-/

namespace JobDispatch

/-- What a job is made from; what is not given has a default. -/
structure NewJob where
  name : String
  jobType : String
  /-- 1 is the most urgent, 10 the least. -/
  priority : UInt8 := 5
  /-- The estimated run time in seconds. -/
  estimatedDuration : Double := Double.one
  maxRetries : UInt16 := 3
  payload : Json := .object []

/-- The durable record of a job. -/
structure Job where
  id : JobId
  name : String
  jobType : String
  status : JobStatus
  priority : UInt8
  estimatedDuration : Double
  payload : Json
  result : Option Json
  errorMessage : Option String
  /-- How many attempts have failed. -/
  retryCount : UInt16
  maxRetries : UInt16
  createdAt : Timestamp
  scheduledAt : Option Timestamp
  startedAt : Option Timestamp
  completedAt : Option Timestamp

/-- The part of a job that is queued and dispatched. -/
structure Ticket where
  jobId : JobId
  jobType : String
  priority : UInt8
  estimatedDuration : Double
  payload : Json

/-- What is kept of a job that has used up its retries. -/
structure DeadLetter where
  jobId : JobId
  jobType : String
  name : String
  error : String
  retryCount : UInt16
  failedAt : Timestamp

namespace NewJob

/-- The record of a job that is stored for the first time. -/
def record (j : NewJob) (id : JobId) (now : Timestamp) : Job where
  id := id
  name := j.name
  jobType := j.jobType
  status := .pending
  priority := j.priority
  estimatedDuration := j.estimatedDuration
  payload := j.payload
  result := none
  errorMessage := none
  retryCount := 0
  maxRetries := j.maxRetries
  createdAt := now
  scheduledAt := none
  startedAt := none
  completedAt := none

end NewJob

namespace Job

/-- The part of a job that is queued and dispatched. -/
def ticket (j : Job) : Ticket := ⟨j.id, j.jobType, j.priority, j.estimatedDuration, j.payload⟩

/-- The dead letter of a job, with the error that used up its retries. -/
def deadLetter (j : Job) (error : String) (retryCount : UInt16) (now : Timestamp) : DeadLetter :=
  ⟨j.id, j.jobType, j.name, error, retryCount, now⟩

/-- The error recorded on a job that is cancelled. -/
def cancelledByUser : String := "Cancelled by user"

/-! ### Transitions

A timestamp that is set already is never set again. -/

/-- The job is claimed. -/
def claimed (now : Timestamp) (j : Job) : Job :=
  { j with status := .scheduled, scheduledAt := some (j.scheduledAt.getD now) }

/-- The job goes back to those that wait to be claimed. -/
def unclaimed (j : Job) : Job := { j with status := .pending }

/-- The job starts to run. -/
def started (now : Timestamp) (j : Job) : Job :=
  { j with status := .running, startedAt := some (j.startedAt.getD now) }

/-- The job has finished with a result. -/
def completed (result : Json) (now : Timestamp) (j : Job) : Job :=
  { j with status := .completed, result := some result, completedAt := some (j.completedAt.getD now) }

/-- An attempt has failed and another will follow. -/
def returned (retryCount : UInt16) (error : String) (j : Job) : Job :=
  { j with status := .pending, retryCount := retryCount, errorMessage := some error }

/-- The last attempt has failed. -/
def exhausted (retryCount : UInt16) (error : String) (now : Timestamp) (j : Job) : Job :=
  { j with status := .failed, retryCount := retryCount, errorMessage := some error,
           completedAt := some (j.completedAt.getD now) }

/-- The job is cancelled. -/
def cancelled (now : Timestamp) (j : Job) : Job :=
  { j with status := .failed, errorMessage := some cancelledByUser,
           completedAt := some (j.completedAt.getD now) }

@[simp] theorem claimed_id (now : Timestamp) (j : Job) : (j.claimed now).id = j.id := rfl

@[simp] theorem claimed_status (now : Timestamp) (j : Job) : (j.claimed now).status = .scheduled :=
  rfl

@[simp] theorem claimed_ticket (now : Timestamp) (j : Job) : (j.claimed now).ticket = j.ticket := rfl

@[simp] theorem unclaimed_id (j : Job) : j.unclaimed.id = j.id := rfl

@[simp] theorem started_id (now : Timestamp) (j : Job) : (j.started now).id = j.id := rfl

@[simp] theorem completed_id (r : Json) (now : Timestamp) (j : Job) :
    (j.completed r now).id = j.id := rfl

@[simp] theorem returned_id (n : UInt16) (e : String) (j : Job) : (j.returned n e).id = j.id := rfl

@[simp] theorem exhausted_id (n : UInt16) (e : String) (now : Timestamp) (j : Job) :
    (j.exhausted n e now).id = j.id := rfl

@[simp] theorem cancelled_id (now : Timestamp) (j : Job) : (j.cancelled now).id = j.id := rfl

end Job

end JobDispatch
