import JobDispatch.Proofs.Broker.DeadLetters
import JobDispatch.Proofs.Scheduler.SingleFlight

/-!
# The budget of a job

The count of failures in a record is read in one step and written in another, and the dead letter of a
job that has used up its retries is sent in a third.  Since only the execution that has the job to
itself does this, no failure is lost and none is counted twice, and there is exactly one dead letter.

## Main definitions

* `Step.failsAttempt` — an attempt fails in a step.
* `Scheduler.Buried` — the dead letters are those of the jobs that have used up their retries.

## Main results

* `Scheduler.Sound.countP_moves` — a job has been started as often as attempts have failed, succeeded or
  are under way.
* `Scheduler.Sound.countP_failsAttempt` — the attempts that have failed have been recorded or are being
  recorded.
* `Scheduler.Buried.step` — every step keeps the dead letters right.
* `Scheduler.dead_letters_run` — the broker gives back the dead letters of the jobs that have used up
  their retries.
* `Scheduler.retry_budget` — **failures, starts and dead letters of a job are counted exactly.**
-/

namespace JobDispatch

/-- Whether a handler has ended with a result. -/
def HandlerOutcome.isResult : HandlerOutcome → Bool
  | returned _ => true
  | _ => false

namespace Step

/-- Whether an attempt of a job fails: its executor has no handler for it, or the handler ends without
a result. -/
def failsAttempt (p : Step) (id : JobId) : Bool :=
  match p.event.move with
  | .execute _ => p.moves id .scheduled .running && !p.hasHandler id
  | .conclude k outcome _ =>
    match p.before.deliveries[k]? with
    | some d => decide (d.job = id) && d.execution.isWorking && !outcome.isResult
    | none => false
  | _ => false

theorem moves_eq (s s' : Scheduler) (e : Event) (id : JobId) (a b : JobStatus) :
    (Step.mk s e s').moves id a b = decide ((s.record? id).map Job.status = some a ∧
      (s'.record? id).map Job.status = some b) := rfl

/-- Nothing goes from one state to another where nothing happens. -/
theorem moves_self (s : Scheduler) (e : Event) (id : JobId) {a b : JobStatus} (h : a ≠ b) :
    (Step.mk s e s).moves id a b = false := by
  rw [Bool.eq_false_iff]
  intro hmoves
  obtain ⟨⟨j, hj, rfl⟩, j', hj', rfl⟩ := moves_eq_true.mp hmoves
  obtain rfl := Option.some.inj (hj.symm.trans hj')
  exact h rfl

end Step

namespace Ledger

/-- One for a job that has used up its retries. -/
def exhausted : Ledger
  | none => 0
  | some j => (decide (j.retryCount.toNat = j.maxRetries.toNat + 1)).toNat

theorem exhausted_eq_one {j : Job} (h : j.retryCount.toNat = j.maxRetries.toNat + 1) :
    exhausted (some j) = 1 := by
  rw [exhausted, decide_eq_true h]
  rfl

theorem exhausted_eq_zero {j : Job} (h : j.retryCount.toNat ≠ j.maxRetries.toNat + 1) :
    exhausted (some j) = 0 := by
  rw [exhausted, decide_eq_false h]
  rfl

theorem neutral_exhausted : Neutral exhausted where
  none := rfl
  stored := fun new id now => by simp [exhausted, NewJob.record]
  claimed := fun _ _ _ => rfl
  reset := fun _ _ => rfl
  cancelled := fun _ _ _ => rfl

end Ledger

namespace Execution

/-- Whether an execution has started its job. -/
def hasStarted (x : Execution) : Bool := x.holds || (x.hasFailed || x.hasSucceeded)

/-- Whether a failed attempt is being recorded. -/
def isRecording : Execution → Bool
  | recovering _ (.loading ..) => true
  | recovering _ (.givingBack ..) => true
  | recovering _ (.exhausting ..) => true
  | _ => false

/-- Whether an attempt has failed. -/
def hasGoneWrong (x : Execution) : Bool := x.isRecording || x.hasFailed

variable {now : Timestamp} {handlers : List String} {r r' : Option Job} {x x' : Execution}

/-- A record does not have two states. -/
private theorem not_both (r : Option Job) {a b : JobStatus} (h : a ≠ b) :
    decide (r.map Job.status = some a ∧ r.map Job.status = some b) = false := by
  refine decide_eq_false ?_
  rintro ⟨ha, hb⟩
  exact h (Option.some.inj (ha.symm.trans hb))

/-- An execution starts its job once. -/
theorem Advance.toNat_hasStarted (h : Advance now handlers r x r' x') :
    (hasStarted x').toNat = (hasStarted x).toNat +
      (decide (r.map Job.status = some .scheduled ∧ r'.map Job.status = some .running)).toNat := by
  cases h with
  | started job j hj =>
    rw [hasStarted, holds_engaged]
    simp [hasStarted, holds, hasFailed, hasSucceeded, hj]
  | resting x hr =>
    rw [not_both r (by decide)]
    rfl
  | _ => simp_all [hasStarted, holds, hasFailed, hasSucceeded]

/-- A step of an execution fails the attempt if it starts the job and there is no handler for it. -/
theorem Advance.toNat_hasGoneWrong (h : Advance now handlers r x r' x') {id : JobId}
    (hx : x.Fits id r) :
    (hasGoneWrong x').toNat = (hasGoneWrong x).toNat +
      (decide (r.map Job.status = some .scheduled ∧ r'.map Job.status = some .running) &&
        !r.any fun j => handlers.contains j.jobType).toNat := by
  cases h with
  | started job j hj =>
    obtain ⟨-, i, hi, hreq⟩ := hx
    obtain rfl := Option.some.inj hi
    rw [engaged, Job.jobType_eq_of_request_eq hreq]
    by_cases hc : j.jobType ∈ handlers <;>
      simp [hasGoneWrong, isRecording, hasFailed, failing, hj, hc]
  | resting x hr =>
    rw [not_both r (by decide), Bool.false_and]
    rfl
  | _ => simp_all [hasGoneWrong, isRecording, hasFailed]

/-- A dead letter is due once the retries are used up, and then it is sent. -/
theorem Advance.toNat_isBurying (h : Advance now handlers r x r' x')
    (hb : ∀ j, r = some j → j.WithinBudget) :
    (isBurying x').toNat + (x.letters now).length + Ledger.exhausted r
      = (isBurying x).toNat + Ledger.exhausted r' := by
  cases h with
  | started job j hj =>
    have hx := engaged_eq_false (p := isBurying) (fun _ => rfl) (fun _ _ _ => rfl) handlers job
    have hsame : Ledger.exhausted (some (j.started now)) = Ledger.exhausted (some j) := rfl
    rw [hx, hsame]
    simp [isBurying, letters]
  | completed id result elapsed j hj =>
    have hsame : Ledger.exhausted (some (j.completed (withElapsed result elapsed) now))
        = Ledger.exhausted (some j) := rfl
    rw [hsame]
    simp [isBurying, letters]
  | returned e id error j n max hj hd =>
    -- there are retries left before the step and after it
    have hle := (hb j rfl).le_of_not_failed (by simp [hj])
    obtain ⟨-, hn, -⟩ := RetryDecision.of_decide_retry (hb j rfl).room hd
    have hbefore : Ledger.exhausted (some j) = 0 := Ledger.exhausted_eq_zero (by omega)
    have hafter : Ledger.exhausted (some (j.returned n error)) = 0 := by
      refine Ledger.exhausted_eq_zero ?_
      show n.toNat ≠ j.maxRetries.toNat + 1
      omega
    rw [hbefore, hafter]
    rfl
  | exhausted e job error j n hj hd =>
    have hle := (hb j rfl).le_of_not_failed (by simp [hj])
    have hn := (hb j rfl).last_failure hj hd
    have hbefore : Ledger.exhausted (some j) = 0 := Ledger.exhausted_eq_zero (by omega)
    have hafter : Ledger.exhausted (some (j.exhausted n error now)) = 1 := Ledger.exhausted_eq_one hn
    rw [hbefore, hafter]
    rfl
  | resting x hr => cases x <;> simp_all [letters, isResting]
  | buried e job error n r decision => simp [isBurying, letters]
  | _ => simp [isBurying, letters]

theorem passive_isBurying : Scheduler.Passive isBurying where
  loading := fun _ => rfl
  resume := fun x outcome elapsed => by cases x <;> cases outcome <;> rfl

theorem passive_hasStarted : Scheduler.Passive hasStarted where
  loading := fun _ => rfl
  resume := fun x outcome elapsed => by cases x <;> cases outcome <;> rfl

/-- The end of a handler without a result fails the attempt. -/
theorem toNat_hasGoneWrong_resume (x : Execution) (outcome : HandlerOutcome) (elapsed : Span) :
    (hasGoneWrong (x.resume outcome elapsed)).toNat
      = (hasGoneWrong x).toNat + (x.isWorking && !outcome.isResult).toNat := by
  cases x <;> cases outcome <;> rfl

end Execution

namespace Scheduler

variable {s : Scheduler} {e : Event}

/-! ### Starts and failures along a run -/

/-- Two points at which an execution is not at the same time. -/
theorem count_or (s : Scheduler) (id : JobId) {p q : Execution → Bool}
    (h : ∀ x, p x = true → q x = false) :
    s.count id (fun x => p x || q x) = s.count id p + s.count id q := by
  simp only [count]
  induction s.deliveries with
  | nil => rfl
  | cons d ds ih =>
    simp only [List.countP_cons, ih]
    have hd := h d.execution
    cases decide (d.job = id) <;> cases hp : p d.execution <;> cases hq : q d.execution <;>
      simp_all <;> omega

/-- One more execution has started its job after a step in which it starts. -/
theorem count_hasStarted_step (h : s.Sound) (ha : e.StoreAnswers) (id : JobId) :
    (s.step e).count id Execution.hasStarted = s.count id Execution.hasStarted
      + ((Step.mk s e (s.step e)).moves id .scheduled .running).toNat := by
  rcases execute_or s e with ⟨k, d, hm, hd⟩ | ⟨k, hm, hd⟩ | he
  · by_cases hid : d.job = id
    · subst hid
      have hcount := count_advanced hd (deliveries_step_of_execute hm hd) Execution.hasStarted
      have hstart := (h.advance ha hm hd).toNat_hasStarted
      rw [Step.moves_eq]
      omega
    · rw [count_advanced_of_ne hd (deliveries_step_of_execute hm hd) hid,
        not_moves_of_ne h ha hm hd hid]
      rfl
  · rw [step_of_execute_none hm hd, Step.moves_self s e id (by decide)]
    rfl
  · rw [count_step_of_others Execution.passive_hasStarted h.distinct he, moves_of_others h ha he]
    rfl

/-- One more attempt has failed after the end of a handler without a result. -/
theorem count_hasGoneWrong_of_conclude {k : Nat} {outcome : HandlerOutcome} {elapsed : Span}
    (hm : e.move = .conclude k outcome elapsed) (id : JobId) :
    (s.step e).count id Execution.hasGoneWrong = s.count id Execution.hasGoneWrong
      + ((Step.mk s e (s.step e)).failsAttempt id).toNat := by
  simp only [Step.failsAttempt, hm]
  cases hd : s.deliveries[k]? with
  | none =>
    have hsame : s.step e = s := by simp only [step, hm, conclude, hd]
    rw [hsame]
    rfl
  | some d =>
    have hset : (s.step e).deliveries
        = s.deliveries.set k (d.advanced (d.execution.resume outcome elapsed)) := by
      simp only [step, hm, conclude, hd]
    by_cases hid : d.job = id
    · subst hid
      have hcount := count_advanced hd hset Execution.hasGoneWrong
      have hwrong := Execution.toNat_hasGoneWrong_resume d.execution outcome elapsed
      simp only [decide_true, Bool.true_and]
      omega
    · rw [count_advanced_of_ne hd hset hid]
      simp only [hid, decide_false, Bool.false_and, Bool.toNat_false, Nat.add_zero]

/-- One more attempt has failed after a step in which one fails. -/
theorem count_hasGoneWrong_step (h : s.Sound) (ha : e.StoreAnswers) (id : JobId) :
    (s.step e).count id Execution.hasGoneWrong = s.count id Execution.hasGoneWrong
      + ((Step.mk s e (s.step e)).failsAttempt id).toNat := by
  rcases execute_or s e with ⟨k, d, hm, hd⟩ | ⟨k, hm, hd⟩ | he
  · simp only [Step.failsAttempt, hm]
    by_cases hid : d.job = id
    · subst hid
      have hcount := count_advanced hd (deliveries_step_of_execute hm hd) Execution.hasGoneWrong
      have hwrong := (h.advance ha hm hd).toNat_hasGoneWrong (h.fitting.of_getElem? hd)
      -- the record that decides whether there is a handler is the one before the step
      have hhandler : (Step.mk s e (s.step e)).hasHandler d.job
          = (s.record? d.job).any fun j => d.handlers.contains j.jobType := by
        simp only [Step.hasHandler, hm, hd]
        cases s.record? d.job <;> rfl
      rw [hhandler, Step.moves_eq]
      omega
    · rw [count_advanced_of_ne hd (deliveries_step_of_execute hm hd) hid,
        not_moves_of_ne h ha hm hd hid]
      rfl
  · simp only [Step.failsAttempt, hm]
    rw [step_of_execute_none hm hd, Step.moves_self s e id (by decide)]
    rfl
  · by_cases hc : ∃ k outcome elapsed, e.move = .conclude k outcome elapsed
    · obtain ⟨k, outcome, elapsed, hm⟩ := hc
      exact count_hasGoneWrong_of_conclude hm id
    · -- no attempt fails, and at most an execution begins
      have hfails : (Step.mk s e (s.step e)).failsAttempt id = false := by
        simp only [Step.failsAttempt]
        split
        · next k hm => exact absurd hm (he k)
        · next k outcome elapsed hm => exact absurd ⟨k, outcome, elapsed, hm⟩ hc
        · rfl
      have hcount : (s.step e).count id Execution.hasGoneWrong
          = s.count id Execution.hasGoneWrong := by
        rcases deliveries_step h.distinct he with hkept | ⟨handlers, t, hnew⟩ |
          ⟨k, d, outcome, elapsed, hm, -⟩
        · exact count_congr hkept id _
        · exact (count_congr hnew id _).trans (count_hand (fun _ => rfl) handlers t id)
        · exact absurd ⟨k, outcome, elapsed, hm⟩ hc
      rw [hcount, hfails]
      rfl

/-- **A job has been started as often as attempts have failed, succeeded or are under way.** -/
theorem Sound.countP_moves {s : Scheduler} (h : s.Sound)
    (hzero : ∀ id, s.count id Execution.hasStarted = 0) {es : List Event}
    (hes : ∀ e ∈ es, e.StoreAnswers) (id : JobId) :
    (s.trail es).countP (·.moves id .scheduled .running)
      = Ledger.running ((s.run es).record? id) + (Ledger.failures ((s.run es).record? id) +
          Ledger.results ((s.run es).record? id)) := by
  have hsound := h.run hes
  -- every start leaves behind an execution that has started, and it stays one
  have hall := h.eq_add_countP_trail (f := fun s => s.count id Execution.hasStarted)
    (q := fun p => p.moves id .scheduled .running)
    (fun s e hs ha => count_hasStarted_step hs ha id) hes
  have hparts : (s.run es).count id Execution.hasStarted = (s.run es).count id Execution.holds +
      ((s.run es).count id Execution.hasFailed + (s.run es).count id Execution.hasSucceeded) := by
    rw [← count_or, ← count_or]
    · rfl
    · intro x hx
      cases x with
      | recovering e rec => cases rec <;> simp_all [Execution.holds, Execution.hasFailed,
          Execution.hasSucceeded]
      | _ => simp_all [Execution.holds, Execution.hasFailed, Execution.hasSucceeded]
    · intro x hx
      cases x with
      | finished outcome => cases outcome <;> simp_all [Execution.hasFailed, Execution.hasSucceeded]
      | _ => simp_all [Execution.hasFailed, Execution.hasSucceeded]
  rw [hzero id, hparts, hsound.holders, hsound.failures, hsound.results] at hall
  omega

/-- **The attempts that have failed have been recorded or are being recorded.** -/
theorem Sound.countP_failsAttempt {s : Scheduler} (h : s.Sound)
    (hzero : ∀ id, s.count id Execution.hasGoneWrong = 0) {es : List Event}
    (hes : ∀ e ∈ es, e.StoreAnswers) (id : JobId) :
    (s.trail es).countP (·.failsAttempt id)
      = (s.run es).count id Execution.isRecording + (s.run es).count id Execution.hasFailed := by
  have hall := h.eq_add_countP_trail (f := fun s => s.count id Execution.hasGoneWrong)
    (q := fun p => p.failsAttempt id) (fun s e hs ha => count_hasGoneWrong_step hs ha id) hes
  have hparts : (s.run es).count id Execution.hasGoneWrong
      = (s.run es).count id Execution.isRecording + (s.run es).count id Execution.hasFailed := by
    rw [← count_or]
    · rfl
    · intro x hx
      cases x with
      | recovering e rec => cases rec <;> simp_all [Execution.isRecording, Execution.hasFailed]
      | _ => simp_all [Execution.isRecording]
  rw [hzero id, hparts] at hall
  omega

/-! ### Dead letters -/

end Scheduler

/-- A dead letter tells what the record of its job says. -/
def DeadLetter.Tells (l : DeadLetter) (j : Job) : Prop :=
  l.jobId = j.id ∧ l.name = j.name ∧ l.jobType = j.jobType ∧ j.errorMessage = some l.error ∧
    l.retryCount = j.retryCount

namespace Scheduler

variable {s : Scheduler} {e : Event} {ls : List DeadLetter}

/-- How many of some dead letters are of a job. -/
def lettersOf (ls : List DeadLetter) (id : JobId) : List DeadLetter := ls.filter fun l => l.jobId = id

/-- **The dead letters are those of the jobs that have used up their retries**, except that the letter
of a job may be still to be sent. -/
structure Buried (s : Scheduler) (ls : List DeadLetter) : Prop where
  written : s.shared.broker.deadLetters = ls.map DeadLetter.text
  tally : ∀ id, (lettersOf ls id).length + s.count id Execution.isBurying
    = Ledger.exhausted (s.record? id)
  truthful : ∀ l ∈ ls, ∃ j, s.record? l.jobId = some j ∧ j.status = .failed ∧ l.Tells j

/-- The dead letters that a step sends. -/
def sent (s : Scheduler) (e : Event) : List DeadLetter :=
  match e.move with
  | .execute k => (s.deliveries[k]?.map fun d => d.execution.letters e.moment.now).getD []
  | _ => []

/-- Where no execution takes a step, no dead letter is sent. -/
theorem deadLetters_step_of_others (hs : s.shared.store.Distinct) (he : ∀ k, e.move ≠ .execute k) :
    (s.step e).shared.broker.deadLetters = s.shared.broker.deadLetters := by
  have h := step_effect s e hs
  generalize s.step e = s' at h
  cases h with
  | wished b hr hd => exact hd
  | ticked i l l' sh hm hl ha => cases ha <;> rfl
  | proceeded i r r' sh hm hr ha => cases ha <;> rfl
  | executed k d hm hd => exact absurd hm (he k)
  | pursued i c c' sh hm hc ha => cases ha <;> rfl
  | _ => rfl

/-- An execution sends dead letters of its own job. -/
theorem jobId_of_mem_letters {id : JobId} {r : Option Job} {x : Execution} (hx : x.Fits id r)
    {now : Timestamp} {l : DeadLetter} (hl : l ∈ x.letters now) : l.jobId = id := by
  cases x with
  | recovering e rec =>
    cases rec with
    | burying job error n =>
      obtain rfl := List.mem_singleton.mp hl
      exact hx.1
    | _ => exact absurd hl List.not_mem_nil
  | _ => exact absurd hl List.not_mem_nil

/-- An execution's dead letter tells what the record says. -/
theorem tells_of_mem_letters {id : JobId} {r : Option Job} {x : Execution} (hx : x.Fits id r)
    (hr : ∀ j, r = some j → j.id = id) {now : Timestamp} {l : DeadLetter} (hl : l ∈ x.letters now) :
    ∃ j, r = some j ∧ j.status = .failed ∧ l.Tells j := by
  cases x with
  | recovering e rec =>
    cases rec with
    | burying job error n =>
      obtain rfl := List.mem_singleton.mp hl
      obtain ⟨hid, j, hj, hf, hreq, hn, herr⟩ := hx
      exact ⟨j, hj, hf, hid.trans (hr j hj).symm, Job.name_eq_of_request_eq hreq,
        Job.jobType_eq_of_request_eq hreq, herr, hn.symm⟩
    | _ => exact absurd hl List.not_mem_nil
  | _ => exact absurd hl List.not_mem_nil

/-- A letter that tells what the record says does so after every step. -/
theorem truthful_step (h : s.Sound) (ha : e.StoreAnswers) {l : DeadLetter}
    (hl : ∃ j, s.record? l.jobId = some j ∧ j.status = .failed ∧ l.Tells j) :
    ∃ j, (s.step e).record? l.jobId = some j ∧ j.status = .failed ∧ l.Tells j := by
  obtain ⟨j, hj, hf, ht⟩ := hl
  obtain ⟨j', hj', hchange⟩ := record?_step h.distinct h.fitting ha hj
  obtain rfl := hchange.eq_of_terminal (by simp [hf, JobStatus.isTerminal])
  exact ⟨j', hj', hf, ht⟩

/-- **Every step keeps the dead letters right.** -/
theorem Buried.step (hb : s.Buried ls) (h : s.Sound) (ha : e.StoreAnswers) (hbroker : e.BrokerAnswers) :
    (s.step e).Buried (ls ++ s.sent e) := by
  rcases execute_or s e with ⟨k, d, hm, hd⟩ | ⟨k, hm, hd⟩ | he
  · have hsent : s.sent e = d.execution.letters e.moment.now := by
      simp only [sent, hm, hd, Option.map_some, Option.getD_some]
    have hfits := h.fitting.of_getElem? hd
    rw [hsent]
    refine ⟨?_, ?_, ?_⟩
    · have hletters := Execution.deadLetters_step hbroker s.shared d.execution d.handlers
      rw [step_of_execute hm hd]
      simp only [hletters, hb.written, List.map_append]
    · intro id
      have htally := hb.tally id
      simp only [lettersOf, List.filter_append, List.length_append] at htally ⊢
      by_cases hid : d.job = id
      · subst hid
        have hcount := count_advanced hd (deliveries_step_of_execute hm hd) Execution.isBurying
        have hbury := (h.advance ha hm hd).toNat_isBurying (h.frugal d.job)
        have hown : (d.execution.letters e.moment.now).filter (fun l => decide (l.jobId = d.job))
            = d.execution.letters e.moment.now :=
          List.filter_eq_self.mpr fun l hl => decide_eq_true (jobId_of_mem_letters hfits hl)
        rw [hown]
        omega
      · -- the letters of another job
        have hnone : (d.execution.letters e.moment.now).filter (fun l => decide (l.jobId = id)) = [] :=
          List.filter_eq_nil_iff.mpr fun l hl => by simp [jobId_of_mem_letters hfits hl, hid]
        rw [hnone, count_advanced_of_ne hd (deliveries_step_of_execute hm hd) hid,
          record?_step_of_execute hm hd,
          Execution.find?_step_of_ne h.distinct hfits d.handlers (Ne.symm hid)]
        exact htally
    · intro l hl
      rcases List.mem_append.mp hl with hl | hl
      · exact truthful_step h ha (hb.truthful l hl)
      · refine truthful_step h ha ?_
        rw [jobId_of_mem_letters hfits hl]
        exact tells_of_mem_letters hfits (fun j hj => Store.id_of_find? hj) hl
  · simp only [step_of_execute_none hm hd, sent, hm, hd, Option.map_none, Option.getD_none,
      List.append_nil]
    exact hb
  · have hsent : s.sent e = [] := by
      cases hm : e.move with
      | execute k => exact absurd hm (he k)
      | _ => simp only [sent, hm]
    rw [hsent, List.append_nil]
    refine ⟨?_, ?_, ?_⟩
    · rw [deadLetters_step_of_others h.distinct he]
      exact hb.written
    · intro id
      rw [count_step_of_others Execution.passive_isBurying h.distinct he, hb.tally id]
      exact (val_step_of_others Ledger.neutral_exhausted h.distinct h.fitting ha he id).symm
    · intro l hl
      exact truthful_step h ha (hb.truthful l hl)

/-- Once no execution of a job is under way, its dead letters are due to its record alone. -/
theorem Buried.lettersOf_eq (hb : s.Buried ls) {id : JobId} {j : Job} (hj : s.record? id = some j)
    (hdone : s.count id (fun x => !x.isFinished) = 0) :
    (j.retryCount.toNat = j.maxRetries.toNat + 1 → ∃ l, lettersOf ls id = [l] ∧ l.Tells j) ∧
      (j.retryCount.toNat ≠ j.maxRetries.toNat + 1 → lettersOf ls id = []) := by
  have htally := hb.tally id
  have hburying : s.count id Execution.isBurying ≤ s.count id (fun x => !x.isFinished) := by
    refine count_mono s id fun x hx => ?_
    cases x <;> simp_all [Execution.isBurying, Execution.isFinished]
  rw [hj] at htally
  constructor
  · intro hlast
    rw [Ledger.exhausted_eq_one hlast] at htally
    obtain ⟨l, hl⟩ := List.length_eq_one_iff.mp (show (lettersOf ls id).length = 1 by omega)
    -- the one letter is among those that tell the truth
    have hmem : l ∈ lettersOf ls id := hl ▸ List.mem_singleton_self l
    obtain ⟨hls, hid⟩ := List.mem_filter.mp hmem
    obtain rfl : l.jobId = id := of_decide_eq_true hid
    obtain ⟨j', hj', -, ht⟩ := hb.truthful l hls
    obtain rfl := Option.some.inj (hj'.symm.trans hj)
    exact ⟨l, hl, ht⟩
  · intro hleft
    rw [Ledger.exhausted_eq_zero hleft] at htally
    exact List.length_eq_zero_iff.mp (by omega)

/-- A dead letter has the time at which it is sent. -/
theorem failedAt_of_mem_sent {l : DeadLetter} (hl : l ∈ s.sent e) : l.failedAt = e.moment.now := by
  unfold sent at hl
  split at hl
  · next k hm =>
    cases hd : s.deliveries[k]? with
    | none =>
      rw [hd] at hl
      exact absurd hl List.not_mem_nil
    | some d =>
      have hl : l ∈ d.execution.letters e.moment.now := by simpa [hd] using hl
      unfold Execution.letters at hl
      split at hl
      · rw [List.mem_singleton.mp hl]
        rfl
      · exact absurd hl List.not_mem_nil
  · exact absurd hl List.not_mem_nil

/-- While the broker answers too, there is always a list of dead letters that is right, with times at
which something has happened. -/
theorem buried_run (engines : List Engine) {es : List Event}
    (hes : ∀ e ∈ es, e.StoreAnswers ∧ e.BrokerAnswers) :
    ∃ ls, ((start engines).run es).Buried ls ∧ ∀ l ∈ ls, ∃ e ∈ es, l.failedAt = e.moment.now := by
  have hall : ((start engines).run es).Sound ∧ ∃ ls, ((start engines).run es).Buried ls ∧
      ∀ l ∈ ls, ∃ e ∈ es, l.failedAt = e.moment.now := by
    apply run_induction
      (P := fun s => s.Sound ∧ ∃ ls, s.Buried ls ∧ ∀ l ∈ ls, ∃ e ∈ es, l.failedAt = e.moment.now)
      (Q := fun e => e ∈ es ∧ e.StoreAnswers ∧ e.BrokerAnswers)
    · refine ⟨sound_start engines, [], ⟨rfl, fun _ => rfl, ?_⟩, ?_⟩
      all_goals
        intro l hl
        exact absurd hl List.not_mem_nil
    · intro e he
      exact ⟨he, hes e he⟩
    · intro s e he h
      obtain ⟨hsound, ls, hb, htimes⟩ := h
      refine ⟨hsound.step he.2.1, _, hb.step hsound he.2.1 he.2.2, ?_⟩
      intro l hl
      rcases List.mem_append.mp hl with hl | hl
      · exact htimes l hl
      · exact ⟨e, he.1, failedAt_of_mem_sent hl⟩
  exact hall.2

/-- **The dead letters that the broker gives back are those of the jobs that have used up their
retries**, and no others have the texts that it keeps. -/
theorem dead_letters_run (engines : List Engine) {es : List Event}
    (hes : ∀ e ∈ es, e.StoreAnswers ∧ e.BrokerAnswers) (htimes : ∀ e ∈ es, e.moment.now.Proper) :
    ∃ ls, (((start engines).run es).shared.broker.perform .deadLetters).1 = .ok ls ∧
      ((start engines).run es).Buried ls ∧
      ∀ ls' : List DeadLetter, (∀ l ∈ ls', l.failedAt.Proper) →
        ((start engines).run es).shared.broker.deadLetters = ls'.map DeadLetter.text → ls' = ls := by
  obtain ⟨ls, hb, hfrom⟩ := buried_run engines hes
  have hproper : ∀ l ∈ ls, l.failedAt.Proper := by
    intro l hl
    obtain ⟨e, he, htime⟩ := hfrom l hl
    exact htime ▸ htimes e he
  refine ⟨ls, ?_, hb, ?_⟩
  · rw [Broker.perform, hb.written, DeadLetter.mapM_ofEntry_text hproper]
  · intro ls' hproper' hwritten
    apply DeadLetter.map_text_injective hproper' hproper
    rw [← hwritten, hb.written]

/-- **The budget of a job is kept exactly.**  In every state of every run without outages the count of
failures in a record is the number of attempts that have failed, but for one that is just being
recorded; it is within the limit while the job is not at its end; the job has been started at most once
more than it has retries; it is failed for want of retries exactly if that many attempts have failed;
and once no execution of it is under way there is exactly one dead letter of it if it has failed so,
which tells its name, type, last error and count, and none if not. -/
theorem retry_budget (engines : List Engine) {es : List Event}
    (hes : ∀ e ∈ es, e.StoreAnswers ∧ e.BrokerAnswers) {id : JobId} {j : Job}
    (hj : ((start engines).run es).record? id = some j) :
    ((start engines).run es).count id Execution.hasFailed = j.retryCount.toNat ∧
      ((start engines).trail es).countP (·.failsAttempt id)
        = ((start engines).run es).count id Execution.isRecording + j.retryCount.toNat ∧
      (j.status.isTerminal = false → j.retryCount ≤ j.maxRetries) ∧
      ((start engines).trail es).countP (·.moves id .scheduled .running) ≤ j.maxRetries.toNat + 1 ∧
      ((j.status = .failed ∧ j.retryCount.toNat = j.maxRetries.toNat + 1) ↔
        ((start engines).run es).count id Execution.hasFailed = j.maxRetries.toNat + 1) ∧
      ∃ ls, ((start engines).run es).shared.broker.deadLetters = ls.map DeadLetter.text ∧
        (((start engines).run es).count id (fun x => !x.isFinished) = 0 →
          (j.status = .failed ∧ j.retryCount.toNat = j.maxRetries.toNat + 1 →
            ∃ l, lettersOf ls id = [l] ∧ l.Tells j) ∧
          (¬ (j.status = .failed ∧ j.retryCount.toNat = j.maxRetries.toNat + 1) →
            lettersOf ls id = [])) := by
  have hstore : ∀ e ∈ es, e.StoreAnswers := fun e he => (hes e he).1
  have hsound := sound_run engines hstore
  have hbudget := hsound.frugal id j hj
  have hfailures : ((start engines).run es).count id Execution.hasFailed = j.retryCount.toNat := by
    rw [hsound.failures, hj]
    rfl
  have hwrong := (sound_start engines).countP_failsAttempt (fun _ => rfl) hstore id
  have hmoves := (sound_start engines).countP_moves (fun _ => rfl) hstore id
  have hlast : (j.status = .failed ∧ j.retryCount.toNat = j.maxRetries.toNat + 1) ↔
      j.retryCount.toNat = j.maxRetries.toNat + 1 :=
    ⟨fun h => h.2, fun h => ⟨hbudget.last h, h⟩⟩
  obtain ⟨ls, hb, -⟩ := buried_run engines hes
  -- what has gone wrong is recorded or being recorded, and what is recorded is what the record counts
  refine ⟨hfailures, by rw [hwrong, hfailures], ?_, ?_, by rw [hlast, hfailures], ls, hb.written, ?_⟩
  · intro hterm
    rw [UInt16.le_iff_toNat_le]
    exact hbudget.le_of_not_failed fun hf => by simp [hf, JobStatus.isTerminal] at hterm
  · -- a job that is running or completed has not failed for want of retries
    have hfail := hbudget.failures
    have hroom := hbudget.le_of_not_failed
    rw [hmoves, hj]
    simp only [Ledger.running, Ledger.failures, Ledger.results]
    cases hs : j.status <;> simp [hs] at hroom ⊢ <;> omega
  · intro hdone
    rw [hlast]
    exact hb.lettersOf_eq hj hdone

/-- The failure of the only attempt is recorded. -/
def failedOnce : List Event :=
  startedOnce [] ++ [(Move.execute 0).at 6, (Move.execute 0).at 7, (Move.execute 0).at 8]

/-- A job without a second attempt is failed by its first failure, and buried. -/
theorem buried_of_failedOnce :
    (∀ e ∈ failedOnce, e.StoreAnswers ∧ e.BrokerAnswers) ∧
      ((start [.firstComeFirstServed]).run failedOnce).status? .nil = some .failed ∧
      ∃ ls, ((start [.firstComeFirstServed]).run failedOnce).shared.broker.deadLetters
        = ls.map DeadLetter.text ∧ ∃ l, lettersOf ls .nil = [l] := by
  have hstatus : ((start [.firstComeFirstServed]).run failedOnce).status? .nil = some .failed := by
    decide +kernel
  have hcounts : (((start [.firstComeFirstServed]).run failedOnce).record? .nil).map
      (fun j => (j.retryCount, j.maxRetries)) = some (1, 0) := by
    decide +kernel
  have hdone : ((start [.firstComeFirstServed]).run failedOnce).count .nil
      (fun x => !x.isFinished) = 0 := by
    decide +kernel
  obtain ⟨j, hj, hfailed⟩ := Option.map_eq_some_iff.mp hstatus
  rw [hj] at hcounts
  obtain ⟨hretry, hmax⟩ := Prod.mk.inj (Option.some.inj hcounts)
  have hanswers : ∀ e ∈ failedOnce, e.StoreAnswers ∧ e.BrokerAnswers := by decide
  obtain ⟨-, -, -, -, -, ls, hwritten, hletters⟩ :=
    retry_budget [.firstComeFirstServed] hanswers hj
  obtain ⟨l, hl, -⟩ := (hletters hdone).1 ⟨hfailed, by rw [hretry, hmax]; rfl⟩
  exact ⟨hanswers, hstatus, ls, hwritten, l, hl⟩

end Scheduler

end JobDispatch
