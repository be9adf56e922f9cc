import JobDispatch.Execution.Run
import JobDispatch.Proofs.Scheduler.Budget

/-!
# What becomes of an attempt

If the outcome of a handler depends on the payload alone, then what becomes of a job that waits for its
execution is settled before it starts: its record after the attempt and the dead letter that it may
leave follow from the record before, up to points in time and the time that the handler took.  Here
it is said what that is, and how far an execution has come on the way there.

## Main definitions

* `Repertoire` — the job types that there is a handler for, and how each handler ends.
* `Job.timeless`, `DeadLetter.timeless` — a record and a dead letter without what depends on time.
* `Repertoire.settled`, `Repertoire.letters` — **the record and the dead letters after the attempt.**
* `Repertoire.Follows` — an execution is on its way there.

## Main results

* `Repertoire.Follows.advance` — a step of the execution keeps it on its way.
* `Repertoire.Follows.of_others` — a step of another execution does as well.
* `Repertoire.Follows.sent_advance` — what an execution sends is what is due.
-/

namespace JobDispatch

/-! ### What depends on time -/

namespace Dictionary

/-- Of two values that are set under one name the later counts. -/
theorem insert_insert {α : Type} (name : String) (a b : α) (d : List (String × α)) :
    insert name a (insert name b d) = insert name a d := by
  induction d with
  | nil => simp [insert]
  | cons f d ih =>
    obtain ⟨n, v⟩ := f
    by_cases hlt : name < n
    · simp [insert, hlt]
    · by_cases heq : name = n
      · simp [insert, heq]
      · simp [insert, hlt, heq, ih]

end Dictionary

namespace Execution

/-- A result without the time that its handler took. -/
def withoutElapsed : Json → Json
  | .object fields => .object (Dictionary.insert elapsedKey .null fields)
  | v => v

/-- Results differ in no more than the time that the handler took. -/
theorem withoutElapsed_withElapsed (result : Json) (a b : Span) :
    withoutElapsed (withElapsed result a) = withoutElapsed (withElapsed result b) := by
  simp only [withoutElapsed, withElapsed, Dictionary.insert_insert]

end Execution

/-- The first point in time. -/
def Timestamp.zero : Timestamp := ⟨0, 0⟩

/-- A record without the times at which its job has started and ended, and without the time that its
handler took. -/
def Job.timeless (j : Job) : Job :=
  { j with
    startedAt := j.startedAt.map fun _ => Timestamp.zero
    completedAt := j.completedAt.map fun _ => Timestamp.zero
    result := j.result.map Execution.withoutElapsed }

/-- A dead letter without the time at which its job has failed. -/
def DeadLetter.timeless (l : DeadLetter) : DeadLetter := { l with failedAt := Timestamp.zero }

/-! ### What is settled -/

/-- The job types that there is a handler for, and how the handler of each ends on a payload: with which
result or failure, or in a panic of which this is said. -/
structure Repertoire where
  handlers : List String
  outcome : String → Json → HandlerOutcome

namespace Repertoire

/-- Whether there is a handler for the job of a record. -/
def handles (p : Repertoire) (r : Option Job) : Bool := r.any fun j => p.handlers.contains j.jobType

/-- How an attempt at a job ends: with a result, or with an error. -/
def attempt (p : Repertoire) (j : Job) : Except String Json :=
  if p.handlers.contains j.jobType then
    match p.outcome j.jobType j.payload with
    | .returned result => .ok result
    | .failed e => .error (ExecutionError.handler e).message
    | .panicked m => .error (ExecutionError.panicked m).message
    | .cancelled => .error ExecutionError.cancelled.message
  else .error (ExecutionError.unknownJobType j.jobType p.handlers).message

/-- **The record of a waiting job after the attempt**, as if no time had passed. -/
def settled (p : Repertoire) (j : Job) : Job :=
  match p.attempt j with
  | .ok result =>
    (j.started .zero).completed (Execution.withElapsed result Span.zero) .zero
  | .error e =>
    match RetryDecision.decide j.retryCount j.maxRetries with
    | .retry n _ => (j.started .zero).returned n e
    | .deadLetter n => (j.started .zero).exhausted n e .zero

/-- **The dead letters that the attempt leaves**, as if no time had passed. -/
def letters (p : Repertoire) (j : Job) : List DeadLetter :=
  match p.attempt j, RetryDecision.decide j.retryCount j.maxRetries with
  | .error e, .deadLetter n => [j.deadLetter e n .zero]
  | _, _ => []

variable {p : Repertoire} {j : Job}

theorem settled_of_ok {result : Json} (h : p.attempt j = .ok result) (elapsed : Span)
    (a b : Timestamp) :
    ((j.started a).completed (Execution.withElapsed result elapsed) b).timeless
      = (p.settled j).timeless := by
  simp only [settled, h, Job.timeless, Job.completed, Job.started, Option.map_some]
  rw [Execution.withoutElapsed_withElapsed result elapsed Span.zero]

theorem settled_of_retry {e : String} {n max : UInt16} (h : p.attempt j = .error e)
    (hd : RetryDecision.decide j.retryCount j.maxRetries = .retry n max) (a : Timestamp) :
    ((j.started a).returned n e).timeless = (p.settled j).timeless := by
  simp only [settled, h, hd, Job.timeless, Job.returned, Job.started, Option.map_some]

theorem settled_of_deadLetter {e : String} {n : UInt16} (h : p.attempt j = .error e)
    (hd : RetryDecision.decide j.retryCount j.maxRetries = .deadLetter n) (a b : Timestamp) :
    ((j.started a).exhausted n e b).timeless = (p.settled j).timeless := by
  simp only [settled, h, hd, Job.timeless, Job.exhausted, Job.started, Option.map_some]

theorem letters_of_ok {result : Json} (h : p.attempt j = .ok result) : p.letters j = [] := by
  simp only [letters, h]

theorem letters_of_retry {n max : UInt16}
    (hd : RetryDecision.decide j.retryCount j.maxRetries = .retry n max) : p.letters j = [] := by
  simp only [letters, hd]
  split <;> simp_all

theorem letters_of_deadLetter {e : String} {n : UInt16} (h : p.attempt j = .error e)
    (hd : RetryDecision.decide j.retryCount j.maxRetries = .deadLetter n) (a b : Timestamp) :
    p.letters j = [((j.started a).deadLetter e n b).timeless] := by
  simp only [letters, h, hd]
  rfl

/-! ### On the way -/

/-- The record is that of a job that has started. -/
def Begun (j : Job) (r : Option Job) : Prop := ∃ now, r = some (j.started now)

/-- The record is settled. -/
def Settled (p : Repertoire) (j : Job) (r : Option Job) : Prop :=
  r.map Job.timeless = some (p.settled j).timeless

/-- An execution that has started a job is on its way: the record of the job, which was `j` before,
is `r`. -/
def Leads (p : Repertoire) (id : JobId) (j : Job) (r : Option Job) : Execution → Prop
  | .working job => job = j ∧ p.handlers.contains j.jobType = true ∧ Begun j r
  | .completing i result _ => i = id ∧ p.attempt j = .ok result ∧ Begun j r
  | .recovering e (.loading i error) =>
    i = id ∧ error = e ∧ p.attempt j = .error e ∧ Begun j r
  | .recovering e (.givingBack i error n max) =>
    i = id ∧ error = e ∧ p.attempt j = .error e ∧
      RetryDecision.decide j.retryCount j.maxRetries = .retry n max ∧ Begun j r
  | .recovering e (.exhausting job error n) =>
    error = e ∧ p.attempt j = .error e ∧
      RetryDecision.decide j.retryCount j.maxRetries = .deadLetter n ∧ Begun j r ∧ r = some job
  | .recovering e (.burying job error n) =>
    error = e ∧ p.attempt j = .error e ∧
      RetryDecision.decide j.retryCount j.maxRetries = .deadLetter n ∧ Begun j (some job) ∧
        ∃ now, r = some (job.exhausted n e now)
  | .finished (.completed _) => (∃ result, p.attempt j = .ok result) ∧ p.Settled j r
  | .finished (.failed ..) => p.Settled j r
  | _ => False

/-- **An execution is on its way**: the record of its job, which was `r₀` before any execution, is
`r`. -/
def Follows (p : Repertoire) (id : JobId) (r₀ r : Option Job) : Execution → Prop
  | .loading i => i = id
  | .starting job => job.id = id ∧ r₀ = some job ∧ job.status = .scheduled ∧
    ∃ j, r = some j ∧ job.request = j.request
  | .finished .skipped => ∀ j, r = some j → j.status ≠ .scheduled
  | x => ∃ j, r₀ = some j ∧ j.status = .scheduled ∧ j.id = id ∧ p.Leads id j r x

variable {id : JobId} {r₀ r r' : Option Job} {x x' : Execution} {now : Timestamp}

/-- The record of a job that has started is running. -/
theorem Begun.running (h : Begun j r) :
    ∃ i, r = some i ∧ i.status = .running ∧ i.request = j.request ∧
      i.retryCount = j.retryCount ∧ i.maxRetries = j.maxRetries := by
  obtain ⟨now, rfl⟩ := h
  exact ⟨_, rfl, rfl, rfl, rfl, rfl⟩

/-- What an execution knows that has started its job. -/
theorem Leads.fits (hid : j.id = id) (h : p.Leads id j r x) : x.Fits id r := by
  cases x with
  | working job =>
    obtain ⟨rfl, -, now, rfl⟩ := h
    exact ⟨hid, _, rfl, rfl, rfl⟩
  | completing i result elapsed =>
    obtain ⟨hi, -, now, rfl⟩ := h
    exact ⟨hi, _, rfl, rfl, trivial⟩
  | recovering e recording =>
    cases recording with
    | loading i error =>
      obtain ⟨hi, -, -, now, rfl⟩ := h
      exact ⟨hi, _, rfl, rfl, trivial⟩
    | givingBack i error n max =>
      obtain ⟨hi, -, -, hd, now, rfl⟩ := h
      exact ⟨hi, _, rfl, rfl, hd⟩
    | exhausting job error n =>
      obtain ⟨-, -, hd, ⟨now, rfl⟩, hjob⟩ := h
      obtain rfl := Option.some.inj hjob
      exact ⟨hid, _, rfl, rfl, rfl, hd⟩
    | burying job error n =>
      obtain ⟨rfl, -, -, ⟨now, hjob⟩, later, rfl⟩ := h
      obtain rfl := Option.some.inj hjob
      exact ⟨hid, _, rfl, rfl, rfl, rfl, rfl⟩
    | finished result => exact h.elim
  | finished outcome => trivial
  | loading i => exact h.elim
  | starting job => exact h.elim

/-- **What an execution knows that is on its way agrees with the record.** -/
theorem Follows.fits (h : p.Follows id r₀ r x) : x.Fits id r := by
  cases x with
  | loading i => exact h
  | starting job => exact ⟨h.1, h.2.2.2⟩
  | working job =>
    obtain ⟨j, -, -, hid, hleads⟩ := h
    exact hleads.fits hid
  | completing i result elapsed =>
    obtain ⟨j, -, -, hid, hleads⟩ := h
    exact hleads.fits hid
  | recovering e recording =>
    obtain ⟨j, -, -, hid, hleads⟩ := h
    exact hleads.fits hid
  | finished outcome => trivial

/-- An execution that has not started its job does not care about another one that has. -/
theorem Follows.of_others (h : p.Follows id r₀ r x) (hx : x.hasStarted = false)
    (hreq : r.map Job.request = r'.map Job.request)
    (hr : ∀ j, r' = some j → j.status ≠ .scheduled) : p.Follows id r₀ r' x := by
  cases x with
  | loading i => exact h
  | starting job =>
    obtain ⟨hid, h₀, hs, j, rfl, hj⟩ := h
    obtain ⟨j', rfl, hj'⟩ := Option.map_eq_some_iff.mp hreq.symm
    exact ⟨hid, h₀, hs, j', rfl, hj.trans hj'.symm⟩
  | working job => exact absurd hx (by simp [Execution.hasStarted, Execution.holds])
  | completing i result elapsed => exact absurd hx (by simp [Execution.hasStarted, Execution.holds])
  | recovering e recording =>
    cases recording with
    | finished result =>
      obtain ⟨j, -, -, -, hleads⟩ := h
      exact hleads.elim
    | _ => exact absurd hx (by simp [Execution.hasStarted, Execution.holds, Execution.hasFailed])
  | finished outcome =>
    cases outcome with
    | skipped => exact hr
    | completed elapsed => exact absurd hx (by simp [Execution.hasStarted, Execution.hasSucceeded])
    | failed error decision => exact absurd hx (by simp [Execution.hasStarted, Execution.hasFailed])

/-- A job that has just been started. -/
theorem leads_engaged (hid : j.id = id) (now : Timestamp) :
    p.Leads id j (some (j.started now)) (Execution.engaged p.handlers j) := by
  unfold Execution.engaged
  split
  · next hc => exact ⟨rfl, hc, now, rfl⟩
  · next hc =>
    refine ⟨hid, rfl, ?_, now, rfl⟩
    rw [attempt, if_neg hc]

theorem Leads.follows (h₀ : r₀ = some j) (hs : j.status = .scheduled) (hid : j.id = id)
    (h : p.Leads id j r x) : p.Follows id r₀ r x := by
  cases x with
  | loading i => exact h.elim
  | starting job => exact h.elim
  | finished outcome =>
    cases outcome with
    | skipped => exact h.elim
    | _ => exact ⟨j, h₀, hs, hid, h⟩
  | _ => exact ⟨j, h₀, hs, hid, h⟩

/-- **A step of an execution keeps it on its way**, if a job whose record waits has not been started
before. -/
theorem Follows.advance (h : p.Follows id r₀ r x)
    (ha : Execution.Advance now p.handlers r x r' x') (hid : ∀ j, r = some j → j.id = id)
    (hwaits : ∀ j, r = some j → j.status = .scheduled → r₀ = r) : p.Follows id r₀ r' x' := by
  cases ha with
  | absent i => exact fun j hj => absurd hj (by simp)
  | ready i j hj => exact ⟨hid j rfl, hwaits j rfl hj, hj, j, rfl, rfl⟩
  | idle i j hj =>
    intro k hk
    obtain rfl := Option.some.inj hk
    exact hj
  | started job j hj =>
    -- the record is the one that the execution has loaded
    obtain ⟨hjob, h₀, hs, -⟩ := h
    obtain rfl := Option.some.inj (h₀.symm.trans (hwaits j rfl hj))
    exact (leads_engaged hjob now).follows h₀ hs hjob
  | lost job j hj =>
    intro k hk
    obtain rfl := Option.some.inj hk
    exact hj
  | completed i result elapsed j hj =>
    obtain ⟨k, h₀, hs, hk, -, hok, began, hbegun⟩ := h
    obtain rfl := Option.some.inj hbegun
    exact ⟨k, h₀, hs, hk, ⟨result, hok⟩, congrArg some (settled_of_ok hok elapsed began now)⟩
  | retrying e i error j n max hj hd =>
    obtain ⟨k, h₀, hs, hk, hi, rfl, herror, began, hbegun⟩ := h
    obtain rfl := Option.some.inj hbegun
    exact ⟨k, h₀, hs, hk, hi, rfl, herror, hd, began, rfl⟩
  | resigning e i error j n hj hd =>
    obtain ⟨k, h₀, hs, hk, hi, rfl, herror, began, hbegun⟩ := h
    obtain rfl := Option.some.inj hbegun
    exact ⟨k, h₀, hs, hk, rfl, herror, hd, ⟨began, rfl⟩, rfl⟩
  | returned e i error j n max hj hd =>
    obtain ⟨k, h₀, hs, hk, hi, rfl, herror, hd, began, hbegun⟩ := h
    obtain rfl := Option.some.inj hbegun
    exact ⟨k, h₀, hs, hk, congrArg some (settled_of_retry herror hd began)⟩
  | exhausted e job error j n hj hd =>
    obtain ⟨k, h₀, hs, hk, rfl, herror, hd, ⟨began, hbegun⟩, hjob⟩ := h
    obtain rfl := Option.some.inj hjob
    exact ⟨k, h₀, hs, hk, rfl, herror, hd, ⟨began, hbegun⟩, now, rfl⟩
  | buried e job error n r decision =>
    obtain ⟨k, h₀, hs, hk, rfl, herror, hd, ⟨began, hbegun⟩, later, rfl⟩ := h
    obtain rfl := Option.some.inj hbegun
    exact ⟨k, h₀, hs, hk, congrArg some (settled_of_deadLetter herror hd began later)⟩
  | resting r x hr => exact h

/-- The end of a handler keeps an execution on its way, if it ends as it always does. -/
theorem Follows.resume (h : p.Follows id r₀ r x) {outcome : HandlerOutcome} (elapsed : Span)
    (hout : ∀ job, x = .working job → outcome = p.outcome job.jobType job.payload) :
    p.Follows id r₀ r (x.resume outcome elapsed) := by
  cases x with
  | working job =>
    obtain ⟨j, h₀, hs, hid, rfl, hc, hbegun⟩ := h
    rw [Execution.resume_working, hout job rfl]
    have hattempt : p.attempt job = match p.outcome job.jobType job.payload with
        | .returned result => .ok result
        | .failed e => .error (ExecutionError.handler e).message
        | .panicked m => .error (ExecutionError.panicked m).message
        | .cancelled => .error ExecutionError.cancelled.message := by
      rw [attempt, if_pos hc]
    cases hend : p.outcome job.jobType job.payload <;> rw [hend] at hattempt
    case returned result => exact ⟨job, h₀, hs, hid, hid, hattempt, hbegun⟩
    all_goals exact ⟨job, h₀, hs, hid, hid, rfl, hattempt, hbegun⟩
  | loading i => exact h
  | starting job => exact h
  | completing i result elapsed => exact h
  | recovering e recording => exact h
  | finished outcome => exact h

/-! ### Dead letters -/

/-- The dead letters that an execution has sent when it is there, as if no time had passed. -/
def sent (p : Repertoire) (r₀ : Option Job) : Execution → List DeadLetter
  | .finished (.failed ..) => (r₀.map p.letters).getD []
  | _ => []

/-- **What an execution sends is what is due.** -/
theorem Follows.sent_advance (h : p.Follows id r₀ r x)
    (ha : Execution.Advance now p.handlers r x r' x') :
    p.sent r₀ x' = p.sent r₀ x ++ (x.letters now).map DeadLetter.timeless := by
  cases ha with
  | started job j hj =>
    unfold Execution.engaged
    split <;> rfl
  | returned e i error j n max hj hd =>
    obtain ⟨k, rfl, hs, hk, hi, rfl, herror, hd, hbegun⟩ := h
    exact letters_of_retry hd
  | buried e job error n r decision =>
    obtain ⟨k, rfl, hs, hk, rfl, herror, hd, ⟨began, hbegun⟩, later, rfl⟩ := h
    obtain rfl := Option.some.inj hbegun
    exact letters_of_deadLetter herror hd began now
  | resting r x hr => cases x <;> simp_all [Execution.letters, Execution.isResting]
  | _ => rfl

theorem sent_resume (r₀ : Option Job) (x : Execution) (outcome : HandlerOutcome) (elapsed : Span) :
    p.sent r₀ (x.resume outcome elapsed) = p.sent r₀ x := by
  cases x <;> cases outcome <;> rfl

end Repertoire

end JobDispatch
