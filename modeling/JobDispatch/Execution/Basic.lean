import JobDispatch.Execution.Failure
import JobDispatch.Handler.Basic

/-!
# Executing a job

An execution is what becomes of one ready message.  It loads the job and starts it, which only one of
several executions of the job can do; then the job's handler works; then the result is stored.  Any
failure on the way is recorded as a failed attempt.  Each step uses the shared services at most once.

## Main definitions

* `ExecutionError` — the ways in which an attempt can fail, and what is said about each.
* `ExecutionOutcome` — what can become of a ready message.
* `Execution` — how far an execution has come.
* `Execution.step` — its next step; it rests while the handler works.
* `Execution.resume` — the handler has ended.
-/

namespace JobDispatch

/-- The ways in which an attempt can fail. -/
inductive ExecutionError
  /-- No handler works on jobs of this type. -/
  | unknownJobType (jobType : String) (available : List String)
  /-- The handler failed. -/
  | handler (error : HandlerError)
  /-- The handler panicked. -/
  | panicked (message : String)
  /-- The handler was stopped from outside. -/
  | cancelled
  /-- The store failed. -/
  | store (error : StoreError)
  deriving DecidableEq

/-- What is said about a failed attempt. -/
def ExecutionError.message : ExecutionError → String
  | unknownJobType jobType available =>
    "Unknown job type: '" ++ jobType ++ "'. Available: " ++ Text.quoteList available
  | handler error => error.message
  | panicked message => "Handler panicked: " ++ message
  | cancelled => "Handler task was cancelled"
  | store error => error.message

/-- What can become of a ready message. -/
inductive ExecutionOutcome
  /-- The job has a result; how long its handler took. -/
  | completed (elapsed : Span)
  /-- The attempt failed; what was decided, if that could be recorded. -/
  | failed (error : String) (decision : Option RetryDecision)
  /-- The job is not there or not scheduled. -/
  | skipped
  deriving DecidableEq

/-- How far an execution has come. -/
inductive Execution
  /-- The record is loaded next. -/
  | loading (id : JobId)
  /-- The job is started next. -/
  | starting (job : Job)
  /-- The handler works. -/
  | working (job : Job)
  /-- The result is stored next. -/
  | completing (id : JobId) (result : Json) (elapsed : Span)
  /-- The failed attempt is being recorded. -/
  | recovering (error : String) (recording : FailureRecording)
  /-- Nothing is left to do. -/
  | finished (outcome : ExecutionOutcome)

namespace Execution

variable {σ : Type}

/-- The field of a result that holds how long the handler took. -/
def elapsedKey : String := "execution_time_sec"

/-- How long a handler took, in seconds rounded to milliseconds. -/
def elapsedSeconds (elapsed : Span) : Double :=
  let millis := (elapsed.toSeconds.mul (Double.ofNat 1000)).units
  (Double.ofNat ((2 * millis + Double.unitsPerOne) / (2 * Double.unitsPerOne))).div
    (Double.ofNat 1000)

/-- A result with the time that its handler took.  A result that is no object becomes the field
`output` of one. -/
def withElapsed (result : Json) (elapsed : Span) : Json :=
  let fields := match result with
    | .object fields => fields
    | v => [("output", v)]
  .object (Dictionary.insert elapsedKey (Json.ofDouble (elapsedSeconds elapsed)) fields)

/-- An attempt of a job has failed. -/
def failing (id : JobId) (e : ExecutionError) : Execution :=
  recovering e.message (.loading id e.message)

/-- What follows once the record has been loaded, and what to give notice of. -/
def judged (id : JobId) : Option Job → Execution × Option Notice
  | none => (finished .skipped, some (.jobMissing id))
  | some job => (if job.status = .scheduled then starting job else finished .skipped, none)

/-- The handler of a started job works, if one is available. -/
def engaged (available : List String) (job : Job) : Execution :=
  if available.contains job.jobType then working job
  else failing job.id (.unknownJobType job.jobType available)

/-- What follows from a failure to start a job: somebody else may have taken it. -/
def notStarted (id : JobId) : StoreError → Execution
  | .notScheduled _ => finished .skipped
  | .jobNotFound _ => finished .skipped
  | e => failing id (.store e)

/-- What follows once a failed attempt has been recorded; a recording that failed leaves no
decision. -/
def recovered (error : String) : FailureRecording → Execution
  | .finished (.ok decision) => finished (.failed error decision)
  | .finished (.error _) => finished (.failed error none)
  | recording => recovering error recording

/-- **The next step**, with handlers available for some job types. -/
def step (v : Services σ) (available : List String) (x : Execution) (s : σ) : Execution × σ :=
  match x with
  | loading id =>
    match v.store (.load id) s with
    | (.error e, s) => (failing id (.store e), s)
    | (.ok found, s) =>
      match judged id found with
      | (x, some notice) => (x, v.note notice s)
      | (x, none) => (x, s)
  | starting job =>
    match v.store (.start job.id) s with
    | (.error e, s) => (notStarted job.id e, s)
    | (.ok _, s) => (engaged available job, s)
  | working job => (working job, s)
  | completing id result elapsed =>
    match v.store (.complete id (withElapsed result elapsed)) s with
    | (.error e, s) => (failing id (.store e), s)
    | (.ok _, s) => (finished (.completed elapsed), s)
  | recovering error recording =>
    let (recording, s) := recording.step v s
    (recovered error recording, s)
  | finished outcome => (finished outcome, s)

/-- What follows from the end of a handler. -/
def ended (job : Job) (elapsed : Span) : HandlerOutcome → Execution
  | .returned result => completing job.id result elapsed
  | .failed e => failing job.id (.handler e)
  | .panicked message => failing job.id (.panicked message)
  | .cancelled => failing job.id .cancelled

/-- **The handler has ended**; an execution whose handler does not work stays as it is. -/
def resume (outcome : HandlerOutcome) (elapsed : Span) : Execution → Execution
  | working job => ended job elapsed outcome
  | x => x

/-! ### Running without interruption -/

/-- How many steps an execution can take at most before it ends or its handler works. -/
def remaining : Execution → Nat
  | loading _ => 6
  | starting _ => 5
  | working _ => 0
  | completing .. => 5
  | recovering _ recording => recording.remaining + 1
  | finished _ => 0

/-- Whether an execution rests: it has ended or its handler works. -/
def isResting : Execution → Bool
  | working _ => true
  | finished _ => true
  | _ => false

theorem remaining_judged_le (id : JobId) (found : Option Job) :
    (judged id found).1.remaining ≤ 5 := by
  unfold judged
  repeat' split
  all_goals simp [remaining]

theorem remaining_notStarted_le (id : JobId) (e : StoreError) :
    (notStarted id e).remaining ≤ 4 := by
  cases e <;> simp [notStarted, remaining, failing, FailureRecording.remaining]

theorem remaining_engaged_le (available : List String) (job : Job) :
    (engaged available job).remaining ≤ 4 := by
  unfold engaged
  split <;> simp [remaining, failing, FailureRecording.remaining]

theorem remaining_recovered_le (error : String) (r : FailureRecording) :
    (recovered error r).remaining ≤ r.remaining + 1 := by
  unfold recovered
  split <;> simp [remaining]

/-- A step that does not rest brings the execution closer to its end. -/
theorem remaining_step_lt (v : Services σ) (available : List String) {x : Execution}
    (h : x.isResting = false) (s : σ) : (x.step v available s).1.remaining < x.remaining := by
  cases x with
  | loading id =>
    simp only [step]
    split
    · simp [remaining, failing, FailureRecording.remaining]
    · next found _ _ =>
      have key := remaining_judged_le id found
      split <;> next hj => rw [hj] at key; simp only [remaining] at *; omega
  | starting job =>
    simp only [step]
    split
    · exact Nat.lt_of_le_of_lt (remaining_notStarted_le ..) (by simp [remaining])
    · exact Nat.lt_of_le_of_lt (remaining_engaged_le ..) (by simp [remaining])
  | working job => simp [isResting] at h
  | completing id result elapsed =>
    simp only [step]
    split <;> simp [remaining, failing, FailureRecording.remaining]
  | recovering error r =>
    simp only [step]
    cases hr : r.result? with
    | none =>
      have less := FailureRecording.remaining_step_lt v r s
        (FailureRecording.remaining_pos_of_result?_eq_none hr)
      exact Nat.lt_of_le_of_lt (remaining_recovered_le ..) (Nat.succ_lt_succ less)
    | some result =>
      cases r with
      | finished r => cases r <;> simp [recovered, remaining]
      | _ => simp [FailureRecording.result?] at hr
  | finished outcome => simp [isResting] at h

/-- **Steps until the execution rests.** -/
def settle (v : Services σ) (available : List String) (x : Execution) (s : σ) : Execution × σ :=
  match _h : x.isResting with
  | true => (x, s)
  | false =>
    let next := x.step v available s
    settle v available next.1 next.2
termination_by x.remaining
decreasing_by exact remaining_step_lt v available _h s

/-- The handler of a resting execution, if it works. -/
def work? : Execution → Option Job
  | working job => some job
  | _ => none

@[simp] theorem step_working (v : Services σ) (available : List String) (job : Job) (s : σ) :
    (working job).step v available s = (working job, s) := rfl

@[simp] theorem step_finished (v : Services σ) (available : List String) (o : ExecutionOutcome)
    (s : σ) : (finished o).step v available s = (finished o, s) := rfl

@[simp] theorem resume_working (job : Job) (outcome : HandlerOutcome) (elapsed : Span) :
    (working job).resume outcome elapsed = ended job elapsed outcome := rfl

end Execution

end JobDispatch
