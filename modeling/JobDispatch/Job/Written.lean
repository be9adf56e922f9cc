import JobDispatch.Job.Filter
import JobDispatch.Json.Printer
import JobDispatch.Json.Record
import JobDispatch.Time.Reader

/-!
# The written forms of jobs

Jobs, tickets, dead letters, pages and counts are written as JSON objects with their fields in a
fixed order, and read back from any JSON text that has these fields.

## Main definitions

* `Ticket.chars`, `Ticket.read?` — a ticket, as the ready queue carries it.
* `DeadLetter.chars`, `DeadLetter.read?` — a dead letter, as the dead-letter list keeps it.
* `Job.chars`, `Job.read?`, `JobPage.chars`, `JobStats.chars`, and their readers.
-/

namespace JobDispatch

open Json (recordChars stringChars doubleChars arrayChars)
open Json.Document (record? required? optional? text? nat? double? list? value?)

/-- The written form of a natural number. -/
def natChars (n : Nat) : List Char := Nat.toDigits 10 n

/-- The written form of what may be missing. -/
def optionChars {α : Type} (write : α → List Char) : Option α → List Char
  | none => ['n', 'u', 'l', 'l']
  | some a => write a

/-- A priority. -/
def priority? (d : Json.Document) : Option UInt8 := (nat? 255 d).map UInt8.ofNat

/-- A number of retries. -/
def retries? (d : Json.Document) : Option UInt16 := (nat? 65535 d).map UInt16.ofNat

/-- A page number or size. -/
def pageNumber? (d : Json.Document) : Option UInt32 := (nat? (Nat.pow 2 32 - 1) d).map UInt32.ofNat

/-- A count. -/
def count? (d : Json.Document) : Option Nat := nat? (Nat.pow 2 64 - 1) d

namespace JobId

/-- The written form of an id. -/
def written (id : JobId) : List Char := stringChars id.text

/-- The id that a document writes. -/
def read? (d : Json.Document) : Option JobId := (text? d).bind ofText?

end JobId

namespace Timestamp

/-- The written form of a point in time. -/
def written (t : Timestamp) : List Char := stringChars t.text

/-- The point in time that a document writes. -/
def read? (d : Json.Document) : Option Timestamp := (text? d).bind ofText?

end Timestamp

namespace JobStatus

/-- The written form of a state. -/
def written (st : JobStatus) : List Char := stringChars st.text

/-- The state that a document writes: its name, or an object whose only field has that name and is
null. -/
def read? (room : Nat) : Json.Document → Option JobStatus
  | .string s => (Json.decodePieces? s).bind fun cs => named? (String.ofList cs)
  | .object [(name, .null)] =>
    if room = 0 then none
    else (Json.decodePieces? name).bind fun cs => named? (String.ofList cs)
  | _ => none

end JobStatus

namespace Ticket

/-- The fields of a ticket. -/
def fieldNames : List String := ["job_id", "job_type", "priority", "estimated_duration", "payload"]

/-- **The message that carries a ticket.** -/
def chars (t : Ticket) : List Char :=
  recordChars
    [("job_id", t.jobId.written),
     ("job_type", stringChars t.jobType),
     ("priority", natChars t.priority.toNat),
     ("estimated_duration", doubleChars t.estimatedDuration),
     ("payload", t.payload.chars)]

/-- The message that carries a ticket. -/
def text (t : Ticket) : String := String.ofList t.chars

/-- The ticket that a document writes. -/
def read? [Json.Dialect] (room : Nat) (d : Json.Document) : Option Ticket := do
  let (room, fs) ← record? fieldNames room d
  return {
    jobId := ← required? JobId.read? "job_id" fs
    jobType := ← required? text? "job_type" fs
    priority := ← required? priority? "priority" fs
    estimatedDuration := ← required? double? "estimated_duration" fs
    payload := ← required? (value? room) "payload" fs }

end Ticket

namespace DeadLetter

/-- The fields of a dead letter. -/
def fieldNames : List String := ["job_id", "job_type", "name", "error", "retry_count", "failed_at"]

/-- The written form of a dead letter. -/
def chars (e : DeadLetter) : List Char :=
  recordChars
    [("job_id", e.jobId.written),
     ("job_type", stringChars e.jobType),
     ("name", stringChars e.name),
     ("error", stringChars e.error),
     ("retry_count", natChars e.retryCount.toNat),
     ("failed_at", e.failedAt.written)]

/-- The written form of a dead letter. -/
def text (e : DeadLetter) : String := String.ofList e.chars

/-- The dead letter that a document writes. -/
def read? (room : Nat) (d : Json.Document) : Option DeadLetter := do
  let (_, fs) ← record? fieldNames room d
  return {
    jobId := ← required? JobId.read? "job_id" fs
    jobType := ← required? text? "job_type" fs
    name := ← required? text? "name" fs
    error := ← required? text? "error" fs
    retryCount := ← required? retries? "retry_count" fs
    failedAt := ← required? Timestamp.read? "failed_at" fs }

end DeadLetter

namespace Job

/-- The fields of a job. -/
def fieldNames : List String :=
  ["id", "name", "job_type", "status", "priority", "estimated_duration", "payload", "result",
   "error_message", "retry_count", "max_retries", "created_at", "scheduled_at", "started_at",
   "completed_at"]

/-- The written form of a job. -/
def chars (j : Job) : List Char :=
  recordChars
    [("id", j.id.written),
     ("name", stringChars j.name),
     ("job_type", stringChars j.jobType),
     ("status", j.status.written),
     ("priority", natChars j.priority.toNat),
     ("estimated_duration", doubleChars j.estimatedDuration),
     ("payload", j.payload.chars),
     ("result", optionChars Json.chars j.result),
     ("error_message", optionChars stringChars j.errorMessage),
     ("retry_count", natChars j.retryCount.toNat),
     ("max_retries", natChars j.maxRetries.toNat),
     ("created_at", j.createdAt.written),
     ("scheduled_at", optionChars Timestamp.written j.scheduledAt),
     ("started_at", optionChars Timestamp.written j.startedAt),
     ("completed_at", optionChars Timestamp.written j.completedAt)]

/-- The written form of a job. -/
def text (j : Job) : String := String.ofList j.chars

/-- The job that a document writes. -/
def read? [Json.Dialect] (room : Nat) (d : Json.Document) : Option Job := do
  let (room, fs) ← record? fieldNames room d
  return {
    id := ← required? JobId.read? "id" fs
    name := ← required? text? "name" fs
    jobType := ← required? text? "job_type" fs
    status := ← required? (JobStatus.read? room) "status" fs
    priority := ← required? priority? "priority" fs
    estimatedDuration := ← required? double? "estimated_duration" fs
    payload := ← required? (value? room) "payload" fs
    result := ← optional? (value? room) "result" fs
    errorMessage := ← optional? text? "error_message" fs
    retryCount := ← required? retries? "retry_count" fs
    maxRetries := ← required? retries? "max_retries" fs
    createdAt := ← required? Timestamp.read? "created_at" fs
    scheduledAt := ← optional? Timestamp.read? "scheduled_at" fs
    startedAt := ← optional? Timestamp.read? "started_at" fs
    completedAt := ← optional? Timestamp.read? "completed_at" fs }

end Job

namespace JobPage

/-- The fields of a page. -/
def fieldNames : List String := ["jobs", "total", "page", "page_size"]

/-- The written form of a page. -/
def chars (p : JobPage) : List Char :=
  recordChars
    [("jobs", arrayChars (p.jobs.map Job.chars)),
     ("total", natChars p.total),
     ("page", natChars p.page.toNat),
     ("page_size", natChars p.pageSize.toNat)]

/-- The written form of a page. -/
def text (p : JobPage) : String := String.ofList p.chars

/-- The page that a document writes. -/
def read? [Json.Dialect] (room : Nat) (d : Json.Document) : Option JobPage := do
  let (room, fs) ← record? fieldNames room d
  return {
    jobs := ← required? (list? Job.read? room) "jobs" fs
    total := ← required? count? "total" fs
    page := ← required? pageNumber? "page" fs
    pageSize := ← required? pageNumber? "page_size" fs }

end JobPage

namespace JobStats

/-- The fields of the counts. -/
def fieldNames : List String :=
  ["total", "pending", "scheduled", "running", "completed", "failed", "avg_execution_time_ms"]

/-- The written form of the counts. -/
def chars (s : JobStats) : List Char :=
  recordChars
    [("total", natChars s.total),
     ("pending", natChars s.pending),
     ("scheduled", natChars s.scheduled),
     ("running", natChars s.running),
     ("completed", natChars s.completed),
     ("failed", natChars s.failed),
     ("avg_execution_time_ms", optionChars doubleChars s.avgExecutionTimeMs)]

/-- The written form of the counts. -/
def text (s : JobStats) : String := String.ofList s.chars

/-- The counts that a document writes. -/
def read? (room : Nat) (d : Json.Document) : Option JobStats := do
  let (_, fs) ← record? fieldNames room d
  return {
    total := ← required? count? "total" fs
    pending := ← required? count? "pending" fs
    scheduled := ← required? count? "scheduled" fs
    running := ← required? count? "running" fs
    completed := ← required? count? "completed" fs
    failed := ← required? count? "failed" fs
    avgExecutionTimeMs := ← optional? double? "avg_execution_time_ms" fs }

end JobStats

end JobDispatch
