import JobDispatch.Control.Status
import JobDispatch.Engine.Basic
import JobDispatch.Job.Validation

/-!
# Controlling a scheduler

What the outside world can do: submit, inspect and cancel jobs, and ask for another policy.

## Main definitions

* `NewJob.submit` — stores a job if it keeps the limits.
* `SchedulerError` — the ways in which an operation can fail, and what is said about each.
* `Control` — the control surface and its operations.
-/

namespace JobDispatch

/-- The ways in which a submission to a store can fail. -/
inductive SubmitError
  | invalid (problem : InvalidJob)
  | store (error : StoreError)
  deriving DecidableEq

/-- What is said about a failed submission. -/
def SubmitError.message : SubmitError → String
  | invalid problem => "Invalid job submission: " ++ problem.message
  | store error => "Failed to store job: " ++ error.message

/-- **Stores a job if it keeps the limits.** -/
def NewJob.submit {σ : Type} (v : Services σ) (new : NewJob) (s : σ) :
    Except SubmitError JobId × σ :=
  match new.problem? with
  | some problem => (.error (.invalid problem), s)
  | none =>
    let (result, s) := v.store (.insert new) s
    (result.mapError .store, s)

/-- The ways in which an operation on a scheduler can fail. -/
inductive SchedulerError
  | invalid (problem : InvalidJob)
  | store (error : StoreError)
  | broker (error : BrokerError)
  | policy (error : InvalidPolicy)
  | engine (error : EngineError)
  /-- A part of the scheduler broke down before it was stopped. -/
  | shutdownFailed
  deriving DecidableEq

/-- What is said about a failed operation. -/
def SchedulerError.message : SchedulerError → String
  | invalid problem => "Invalid job submission: " ++ problem.message
  | store error => error.message
  | broker error => error.message
  | policy error => error.message
  | engine error => error.message
  | shutdownFailed => "Failed to gracefully shut down"

/-- A failed submission as a failure of the scheduler. -/
def SchedulerError.ofSubmit : SubmitError → SchedulerError
  | .invalid problem => invalid problem
  | .store error => store error

/-- The control surface of a scheduler, with factories of type `φ`. -/
structure Control (φ : Type := PolicyKind) (μ : Type := Unit) where
  registry : PolicyRegistry φ μ
  /-- The policy that runs while none is wanted. -/
  defaultPolicy : String
  /-- The retries of a job that does not ask for a number of them. -/
  defaultMaxRetries : UInt16 := 3

namespace Control

variable {φ μ σ : Type}

/-- The outcome of an operation of the store. -/
def onStore {α : Type} (v : Services σ) (call : StoreCall α) (s : σ) :
    Except SchedulerError α × σ :=
  let (result, s) := v.store call s
  (result.mapError .store, s)

/-- The outcome of an operation of the broker. -/
def onBroker {α : Type} (v : Services σ) (call : BrokerCall α) (s : σ) :
    Except SchedulerError α × σ :=
  let (result, s) := v.broker call s
  (result.mapError .broker, s)

/-- A new job with the retries of this scheduler. -/
def job (c : Control φ μ) (name jobType : String) : NewJob :=
  { name := name, jobType := jobType, maxRetries := c.defaultMaxRetries }

/-- Stores a job if it keeps the limits. -/
def submit (v : Services σ) (new : NewJob) (s : σ) : Except SchedulerError JobId × σ :=
  let (result, s) := new.submit v s
  (result.mapError SchedulerError.ofSubmit, s)

/-- The record with an id. -/
def get (v : Services σ) (id : JobId) : σ → Except SchedulerError (Option Job) × σ :=
  onStore v (.load id)

/-- One page of the matching jobs, newest first. -/
def list (v : Services σ) (filter : JobFilter) : σ → Except SchedulerError JobPage × σ :=
  onStore v (.query filter)

/-- How many jobs there are in each state. -/
def stats (v : Services σ) : σ → Except SchedulerError JobStats × σ := onStore v .stats

/-- The outcome of looking for a job that must be there. -/
def found (id : JobId) : Except SchedulerError (Option Job) → Except SchedulerError Job
  | .ok (some job) => .ok job
  | .ok none => .error (.store (.jobNotFound id))
  | .error e => .error e

/-- **Cancels a pending or scheduled job** and gives its record.  A message of the job may still be on
the ready queue; whoever takes it will find that the job is not scheduled. -/
def cancel (v : Services σ) (id : JobId) (s : σ) : Except SchedulerError Job × σ :=
  match onStore v (.cancel id) s with
  | (.error e, s) => (.error e, s)
  | (.ok _, s) =>
    let (result, s) := get v id s
    (found id result, s)

/-- Asks the engine for another policy, if the name stands for one. -/
def setPolicy (v : Services σ) (c : Control φ μ) (name : String) (s : σ) :
    Except SchedulerError Unit × σ :=
  match c.registry.validate name with
  | .error problem => (.error (.policy problem), s)
  | .ok _ => onBroker v (.setDesiredPolicy name) s

/-- The state of the scheduler, read part by part. -/
def status (v : Services σ) (c : Control φ μ) (s : σ) : Except SchedulerError SchedulerStatus × σ :=
  match onBroker v .desiredPolicy s with
  | (.error e, s) => (.error e, s)
  | (.ok desired, s) =>
    match onBroker v .readyLength s with
    | (.error e, s) => (.error e, s)
    | (.ok depth, s) =>
      match onBroker v .deadLetterCount s with
      | (.error e, s) => (.error e, s)
      | (.ok dead, s) => (.ok ⟨desired.getD c.defaultPolicy, depth, dead⟩, s)

/-- All dead letters, oldest first. -/
def deadLetters (v : Services σ) : σ → Except SchedulerError (List DeadLetter) × σ :=
  onBroker v .deadLetters

end Control

end JobDispatch
