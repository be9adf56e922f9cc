import JobDispatch.Services

/-!
# Recording a failed attempt

Every failed attempt of a job is counted.  While there are retries left the job becomes pending again;
after the last one it is failed and leaves a dead letter.  This takes up to three steps: the record is
loaded, then changed, and then, if it is failed, its dead letter is sent.

## Main definitions

* `RetryDecision.decide` — what follows from the counts.
* `RetryError` — the ways in which recording can fail, and what is said about each.
* `FailureRecording` — how far a recording has come.
* `FailureRecording.step` — the next step; `FailureRecording.run` — all of them, one after another.
-/

namespace JobDispatch

/-- What follows from a failed attempt. -/
inductive RetryDecision
  /-- There is another attempt. -/
  | retry (retryCount maxRetries : UInt16)
  /-- There is none; the job leaves a dead letter. -/
  | deadLetter (retryCount : UInt16)
  deriving DecidableEq

namespace RetryDecision

/-- One more failure; the count stops at its largest value. -/
def countedUp (retryCount : UInt16) : UInt16 :=
  if retryCount = 65535 then retryCount else retryCount + 1

/-- **What follows from a failed attempt** of a job that had failed `retryCount` times before it. -/
def decide (retryCount maxRetries : UInt16) : RetryDecision :=
  if countedUp retryCount ≤ maxRetries then .retry (countedUp retryCount) maxRetries
  else .deadLetter (countedUp retryCount)

end RetryDecision

/-- The ways in which recording a failed attempt can fail. -/
inductive RetryError
  | store (error : StoreError)
  | broker (error : BrokerError)
  deriving DecidableEq

/-- What is said about a recording that failed. -/
def RetryError.message : RetryError → String
  | store error => "Failed to update job: " ++ error.message
  | broker error => "Failed to record dead letter: " ++ error.message

/-- How far the recording of a failed attempt has come. -/
inductive FailureRecording
  /-- The record is loaded next. -/
  | loading (id : JobId) (error : String)
  /-- The record becomes pending next. -/
  | givingBack (id : JobId) (error : String) (retryCount maxRetries : UInt16)
  /-- The record is failed next. -/
  | exhausting (job : Job) (error : String) (retryCount : UInt16)
  /-- The dead letter is sent next. -/
  | burying (job : Job) (error : String) (retryCount : UInt16)
  /-- Nothing is left to do. -/
  | finished (result : Except RetryError (Option RetryDecision))

namespace FailureRecording

variable {σ : Type}

/-- How many steps are left at most. -/
def remaining : FailureRecording → Nat
  | loading .. => 3
  | givingBack .. => 1
  | exhausting .. => 2
  | burying .. => 1
  | finished _ => 0

/-- What to do with a job that has been loaded, and what to give notice of. -/
def judged (id : JobId) (error : String) : Option Job → FailureRecording × Option Notice
  | none => (finished (.ok none), some (.failureOfMissing id))
  | some job =>
    if job.status.isTerminal then (finished (.ok none), some (.failureIgnored id job.status))
    else
      match RetryDecision.decide job.retryCount job.maxRetries with
      | .retry n max => (givingBack id error n max, some (.retrying id n max))
      | .deadLetter n => (exhausting job error n, none)

/-- **The next step.** -/
def step (v : Services σ) (p : FailureRecording) (s : σ) : FailureRecording × σ :=
  match p with
  | loading id error =>
    match v.store (.load id) s with
    | (.error e, s) => (finished (.error (.store e)), s)
    | (.ok found, s) =>
      match judged id error found with
      | (p, some notice) => (p, v.note notice s)
      | (p, none) => (p, s)
  | givingBack id error n max =>
    match v.store (.giveBack id n error) s with
    | (.error e, s) => (finished (.error (.store e)), s)
    | (.ok _, s) => (finished (.ok (some (.retry n max))), s)
  | exhausting job error n =>
    match v.store (.exhaust job.id n error) s with
    | (.error e, s) => (finished (.error (.store e)), s)
    | (.ok _, s) => (burying job error n, s)
  | burying job error n =>
    let (now, s) := v.clock s
    match v.broker (.pushDeadLetter (job.deadLetter error n now)) s with
    | (.error e, s) => (finished (.error (.broker e)), s)
    | (.ok _, s) => (finished (.ok (some (.deadLetter n))), s)
  | finished result => (finished result, s)

theorem remaining_judged_le (id : JobId) (error : String) (found : Option Job) :
    (judged id error found).1.remaining ≤ 2 := by
  unfold judged
  repeat' split
  all_goals simp [remaining]

/-- Every step brings the recording closer to its end. -/
theorem remaining_step_lt (v : Services σ) (p : FailureRecording) (s : σ) (h : 0 < p.remaining) :
    (p.step v s).1.remaining < p.remaining := by
  cases p with
  | loading id error =>
    simp only [step]
    split
    · simp [remaining]
    · next found _ _ =>
      have key := remaining_judged_le id error found
      split <;> next hj => rw [hj] at key; simp only [remaining] at *; omega
  | givingBack id error n max => simp only [step]; split <;> simp [remaining]
  | exhausting job error n => simp only [step]; split <;> simp [remaining]
  | burying job error n => simp only [step]; split <;> simp [remaining]
  | finished r => simp [remaining] at h

/-- The result of a recording that has come to its end. -/
def result? : FailureRecording → Option (Except RetryError (Option RetryDecision))
  | finished result => some result
  | _ => none

theorem remaining_pos_of_result?_eq_none {p : FailureRecording} (h : p.result? = none) :
    0 < p.remaining := by
  cases p <;> simp_all [result?, remaining]

/-- **All steps, one after another.** -/
def run (v : Services σ) (p : FailureRecording) (s : σ) :
    Except RetryError (Option RetryDecision) × σ :=
  match _h : p.result? with
  | some result => (result, s)
  | none =>
    let next := p.step v s
    run v next.1 next.2
termination_by p.remaining
decreasing_by exact remaining_step_lt v p s (remaining_pos_of_result?_eq_none _h)

/-- Records a failed attempt of a job. -/
def record (v : Services σ) (id : JobId) (error : String) (s : σ) :
    Except RetryError (Option RetryDecision) × σ :=
  run v (loading id error) s

@[simp] theorem step_finished (v : Services σ) (r : Except RetryError (Option RetryDecision)) (s : σ) :
    (finished r).step v s = (finished r, s) := rfl

end FailureRecording

end JobDispatch
