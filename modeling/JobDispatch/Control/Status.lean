import JobDispatch.Job.Written

/-!
# The status of the scheduler

## Main definitions

* `SchedulerStatus` — the wanted policy and the lengths of the ready queue and of the dead-letter
  list.
* `SchedulerStatus.chars`, `SchedulerStatus.read?` — its written form.
-/

namespace JobDispatch

/-- The state of a scheduler at a moment. -/
structure SchedulerStatus where
  /-- The name of the policy that the engine has been asked to run. -/
  currentPolicy : String
  /-- How many messages are on the ready queue. -/
  queueDepth : Nat
  deadLetterCount : Nat
  deriving DecidableEq

namespace SchedulerStatus

open Json (recordChars stringChars)
open Json.Document (record? required? text?)

/-- The fields of a status. -/
def fieldNames : List String := ["current_policy", "queue_depth", "dead_letter_count"]

/-- The written form of a status. -/
def chars (s : SchedulerStatus) : List Char :=
  recordChars
    [("current_policy", stringChars s.currentPolicy),
     ("queue_depth", natChars s.queueDepth),
     ("dead_letter_count", natChars s.deadLetterCount)]

/-- The written form of a status. -/
def text (s : SchedulerStatus) : String := String.ofList s.chars

/-- The status that a document writes. -/
def read? (room : Nat) (d : Json.Document) : Option SchedulerStatus := do
  let (_, fs) ← record? fieldNames room d
  return {
    currentPolicy := ← required? text? "current_policy" fs
    queueDepth := ← required? count? "queue_depth" fs
    deadLetterCount := ← required? count? "dead_letter_count" fs }

end SchedulerStatus

end JobDispatch
