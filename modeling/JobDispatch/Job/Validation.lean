import JobDispatch.Job.Basic
import JobDispatch.Number.Layout
import JobDispatch.Text.Blank

/-!
# Validating a submission

## Main definitions

* `InvalidJob` — the ways in which a submission can exceed its limits, and what is said about each.
* `NewJob.problem?` — the first limit that a submission exceeds.
-/

namespace JobDispatch

/-- A limit that a submission exceeds. -/
inductive InvalidJob
  /-- The name is empty or has more than 255 characters. -/
  | name
  /-- The job type is blank or has more than 50 characters. -/
  | jobType
  /-- The priority is not between 1 and 10. -/
  | priority (given : UInt8)
  /-- The estimated duration is not a positive number. -/
  | estimatedDuration (given : Double)
  /-- There are more than 10 retries. -/
  | maxRetries (given : UInt16)
  /-- The payload is not an object. -/
  | payload
  deriving DecidableEq

namespace InvalidJob

/-- What is said about a limit that is exceeded. -/
def message : InvalidJob → String
  | name => "Job name must be between 1 and 255 characters"
  | jobType => "Job type must be between 1 and 50 characters"
  | priority p => "Priority must be between 1 and 10, got " ++ toString p.toNat
  | estimatedDuration d =>
    "Estimated duration must be a positive number of seconds, got " ++ d.messageText
  | maxRetries n => "Max retries must be at most 10, got " ++ toString n.toNat
  | payload => "Payload must be a JSON object"

end InvalidJob

namespace NewJob

/-- The most characters of a name. -/
def maxNameLength : Nat := 255

/-- The most characters of a job type. -/
def maxJobTypeLength : Nat := 50

/-- The largest number of the least urgent priority. -/
def maxPriority : UInt8 := 10

/-- The most retries that can be asked for. -/
def maxRetriesLimit : UInt16 := 10

/-- **The first limit that a submission exceeds**, in the order name, job type, priority, estimated
duration, retries, payload. -/
def problem? (j : NewJob) : Option InvalidJob :=
  if j.name.length = 0 ∨ maxNameLength < j.name.length then some .name
  else if j.jobType.toList.all Text.isBlank ∨ maxJobTypeLength < j.jobType.length then some .jobType
  else if j.priority = 0 ∨ maxPriority < j.priority then some (.priority j.priority)
  else if !(j.estimatedDuration.isFinite && j.estimatedDuration.isPositive) then
    some (.estimatedDuration j.estimatedDuration)
  else if maxRetriesLimit < j.maxRetries then some (.maxRetries j.maxRetries)
  else if !j.payload.isObject then some .payload
  else none

/-- Whether a submission keeps all limits. -/
def isValid (j : NewJob) : Bool := j.problem?.isNone

/-- What the limits say, all at once. -/
theorem problem?_eq_none_iff (j : NewJob) :
    j.problem? = none ↔
      (0 < j.name.length ∧ j.name.length ≤ maxNameLength) ∧
      (j.jobType.toList.all Text.isBlank = false ∧ j.jobType.length ≤ maxJobTypeLength) ∧
      (j.priority ≠ 0 ∧ j.priority ≤ maxPriority) ∧
      (j.estimatedDuration.isFinite = true ∧ j.estimatedDuration.isPositive = true) ∧
      j.maxRetries ≤ maxRetriesLimit ∧ j.payload.isObject = true := by
  unfold problem?
  split
  · next h => simp; omega
  split
  · next h =>
    simp only [reduceCtorEq, false_iff, not_and]
    intro _ h'
    rcases h with h | h
    · simp [h'.1] at h
    · omega
  split
  · next h =>
    simp only [reduceCtorEq, false_iff, not_and]
    intro _ _ h'
    rcases h with h | h
    · exact absurd h h'.1
    · exact absurd h'.2 (UInt8.not_le.mpr h)
  split
  · next h =>
    simp only [reduceCtorEq, false_iff, not_and]
    intro _ _ _ h'
    simp [h'.1, h'.2] at h
  split
  · next h =>
    simp only [reduceCtorEq, false_iff, not_and]
    intro _ _ _ _ h'
    exact absurd h' (UInt16.not_le.mpr h)
  split
  · next h => simp_all
  · next h1 h2 h3 h4 h5 h6 =>
    simp only [not_or, UInt8.not_lt, UInt16.not_lt, Bool.not_eq_true', Bool.not_eq_false,
      Bool.and_eq_true, Bool.not_eq_true] at h1 h2 h3 h4 h5 h6
    exact ⟨fun _ => ⟨⟨by omega, by omega⟩, ⟨h2.1, by omega⟩, h3, h4, h5, h6⟩, fun _ => rfl⟩

end NewJob

end JobDispatch
