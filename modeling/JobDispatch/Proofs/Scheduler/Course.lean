import JobDispatch.Proofs.Execution.Attempt
import JobDispatch.Proofs.Replacement

/-!
# Working off the ready queue

Executors take messages and execute their jobs, in any number and in any order of their steps, while
nobody else touches the store and the services answer.  How the handlers end is settled beforehand.
Then every execution goes its way regardless of the others: at any time each record and each dead
letter is what the executions that have started their jobs have made of it so far.

## Main definitions

* `Step.Works` — a step of an executor at which the services answer and the handler ends as it must.
* `Scheduler.Worked` — what such a step can do.
* `Scheduler.Course` — **what executions have made of the store so far.**

## Main results

* `Scheduler.step_worked` — all that a step of an executor can do.
* `Scheduler.Course.step`, `Scheduler.Course.run` — executors keep to the course.
* `Scheduler.Course.count_run` — a job has been started by as many executions as it has starts.
* `Scheduler.Course.startsHandler_step` — a handler starts when a job starts to run, if there is one.
-/

namespace JobDispatch

/-! ### Waiting jobs -/

/-- One for a job that waits for an execution. -/
def Ledger.waiting : Ledger
  | none => 0
  | some j => (decide (j.status = .scheduled)).toNat

theorem Ledger.waiting_le_one (r : Option Job) : waiting r ≤ 1 := by
  cases r with
  | none => exact Nat.zero_le _
  | some j => exact Bool.toNat_le _

theorem Ledger.waiting_eq_one_iff {r : Option Job} :
    waiting r = 1 ↔ r.map Job.status = some .scheduled := by
  cases r with
  | none => simp [waiting]
  | some j => simp [waiting, Bool.toNat_eq_one]

namespace Execution

variable {now : Timestamp} {handlers : List String} {r r' : Option Job} {x x' : Execution}

/-- An execution that starts its job keeps it from waiting. -/
theorem Advance.toNat_hasStarted_add (h : Advance now handlers r x r' x') :
    (hasStarted x').toNat + Ledger.waiting r' = (hasStarted x).toNat + Ledger.waiting r := by
  cases h with
  | started job j hj =>
    rw [hasStarted, holds_engaged]
    simp [hasStarted, holds, hasFailed, hasSucceeded, Ledger.waiting, hj]
  | resting x hr => rfl
  | _ => simp_all [hasStarted, holds, hasFailed, hasSucceeded, Ledger.waiting]

/-- A step changes the record only if the execution has started its job then. -/
theorem Advance.eq_or_hasStarted (h : Advance now handlers r x r' x') :
    r' = r ∨ (hasStarted x' = true ∧ (∀ j, r' = some j → j.status ≠ .scheduled) ∧
      (hasStarted x = true ∨ ∃ j, r = some j ∧ j.status = .scheduled)) := by
  cases h with
  | started job j hj =>
    refine Or.inr ⟨by rw [hasStarted, holds_engaged, Bool.true_or], ?_, Or.inr ⟨j, rfl, hj⟩⟩
    rintro i ⟨⟩
    simp
  | completed id result elapsed j hj => exact Or.inr ⟨rfl, by rintro i ⟨⟩; simp, Or.inl rfl⟩
  | returned e id error j n max hj hd => exact Or.inr ⟨rfl, by rintro i ⟨⟩; simp, Or.inl rfl⟩
  | exhausted e job error j n hj hd => exact Or.inr ⟨rfl, by rintro i ⟨⟩; simp, Or.inl rfl⟩
  | _ => exact Or.inl rfl

/-- No step changes what a job was made from. -/
theorem Advance.map_request (h : Advance now handlers r x r' x') :
    r.map Job.request = r'.map Job.request := by
  cases h <;> rfl

end Execution

/-! ### Steps of executors -/

/-- **A step of an executor** at which the services answer and the handler ends as it must. -/
structure Step.Works (p : Repertoire) (q : Step) : Prop where
  store : q.event.StoreAnswers
  broker : q.event.BrokerAnswers
  move : match q.event.move with
    | .take handlers _ => handlers = p.handlers
    | .hand handlers _ => handlers = p.handlers
    | .execute _ => True
    | .conclude k outcome _ => ∀ d job, q.before.deliveries[k]? = some d →
      d.execution = .working job → outcome = p.outcome job.jobType job.payload
    | _ => False

namespace Scheduler

variable {p : Repertoire} {s₀ s s' : Scheduler} {e : Event}

/-- All that a step of an executor can do to the executions, the store and the dead letters. -/
inductive Worked (p : Repertoire) (s : Scheduler) (e : Event) (s' : Scheduler) : Prop
  /-- Nothing changes. -/
  | rested (hd : s'.deliveries = s.deliveries)
    (hs : s'.shared.store = s.shared.store)
    (hl : s'.shared.broker.deadLetters = s.shared.broker.deadLetters)
  /-- An execution begins. -/
  | begun (id : JobId)
    (hd : s'.deliveries = s.deliveries ++ [⟨id, p.handlers, .loading id⟩])
    (hs : s'.shared.store = s.shared.store)
    (hl : s'.shared.broker.deadLetters = s.shared.broker.deadLetters)
  /-- An execution takes a step. -/
  | executed (k : Nat) (d : Delivery) (hk : s.deliveries[k]? = some d)
    (hd : s'.deliveries = s.deliveries.set k
      (d.advanced (d.execution.step e.moment.services d.handlers s.shared).1))
    (hs : s'.shared = (d.execution.step e.moment.services d.handlers s.shared).2)
  /-- The handler of an execution ends. -/
  | concluded (k : Nat) (d : Delivery) (outcome : HandlerOutcome) (elapsed : Span)
    (hk : s.deliveries[k]? = some d)
    (ho : ∀ job, d.execution = .working job → outcome = p.outcome job.jobType job.payload)
    (hd : s'.deliveries = s.deliveries.set k (d.advanced (d.execution.resume outcome elapsed)))
    (hs : s'.shared.store = s.shared.store)
    (hl : s'.shared.broker.deadLetters = s.shared.broker.deadLetters)

theorem worked_take (hb : e.BrokerAnswers) (timeout : Span) :
    Worked p s e (s.take e.moment p.handlers timeout) := by
  simp only [take, Moment.services_broker hb, Broker.perform_popReady]
  cases hr : s.shared.broker.ready with
  | nil =>
    rw [Broker.popReady_nil hr]
    exact .rested rfl rfl rfl
  | cons message rest =>
    rw [Broker.popReady_cons hr]
    cases ht : Ticket.ofMessage message with
    | ok t => exact .begun t.jobId rfl rfl rfl
    | error problem =>
      obtain rfl := Ticket.ofMessage_error ht
      exact .rested rfl rfl rfl

/-- **A step of an executor does one of these things.** -/
theorem step_worked (h : Step.Works p ⟨s, e, s.step e⟩) : Worked p s e (s.step e) := by
  obtain ⟨hs, hb, hmove⟩ := h
  unfold step
  cases hm : e.move with
  | take handlers timeout =>
    simp only [hm] at hmove
    obtain rfl := hmove
    exact worked_take hb timeout
  | hand handlers t =>
    simp only [hm] at hmove
    obtain rfl := hmove
    exact .begun t.jobId rfl rfl rfl
  | execute k =>
    simp only [execute]
    cases hd : s.deliveries[k]? with
    | none => exact .rested rfl rfl rfl
    | some d => exact .executed k d hd rfl rfl
  | conclude k outcome elapsed =>
    simp only [hm] at hmove
    simp only [conclude]
    cases hd : s.deliveries[k]? with
    | none => exact .rested rfl rfl rfl
    | some d =>
      exact .concluded k d outcome elapsed hd (fun job hx => hmove d job hd hx) rfl rfl rfl
  | _ => simp only [hm] at hmove

/-- An execution that begins has not started its job. -/
theorem count_hasStarted_of_begun {id : JobId}
    (hd : s'.deliveries = s.deliveries ++ [⟨id, p.handlers, .loading id⟩]) (id' : JobId) :
    s'.count id' Execution.hasStarted = s.count id' Execution.hasStarted := by
  simp [count, hd, List.countP_append, Execution.hasStarted, Execution.holds, Execution.hasFailed,
    Execution.hasSucceeded]

/-- The end of a handler starts no job. -/
theorem count_hasStarted_of_concluded {k : Nat} {d : Delivery} {outcome : HandlerOutcome}
    {elapsed : Span} (hk : s.deliveries[k]? = some d)
    (hd : s'.deliveries = s.deliveries.set k (d.advanced (d.execution.resume outcome elapsed)))
    (id : JobId) : s'.count id Execution.hasStarted = s.count id Execution.hasStarted := by
  by_cases hid : d.job = id
  · subst hid
    have hcount := count_advanced hk hd Execution.hasStarted
    rw [Execution.passive_hasStarted.resume] at hcount
    exact Nat.add_right_cancel hcount
  · exact count_advanced_of_ne hk hd hid _

/-! ### The course of the executions -/

/-- The written dead letters. -/
def deadLetters (s : Scheduler) : List String := s.shared.broker.deadLetters

/-- **What executions have made of the store so far**, which was that of `s₀` before any of them. -/
structure Course (p : Repertoire) (s₀ s : Scheduler) : Prop where
  distinct : s.shared.store.Distinct
  ids : s.shared.store.jobs.map Job.id = s₀.shared.store.jobs.map Job.id
  handlers : ∀ d ∈ s.deliveries, d.handlers = p.handlers
  follows : ∀ d ∈ s.deliveries,
    p.Follows d.job (s₀.record? d.job) (s.record? d.job) d.execution
  starts : ∀ id, s.count id Execution.hasStarted + Ledger.waiting (s.record? id)
    = Ledger.waiting (s₀.record? id)
  untouched : ∀ id, s.count id Execution.hasStarted = 0 → s.record? id = s₀.record? id
  letters : ∃ sent : List DeadLetter, s.deadLetters = s₀.deadLetters ++ sent.map DeadLetter.text ∧
    (sent.map DeadLetter.timeless).Perm
      (s.deliveries.flatMap fun d => p.sent (s₀.record? d.job) d.execution)

/-- Before any execution. -/
theorem Course.start (hs : s₀.shared.store.Distinct) (hd : s₀.deliveries = []) : Course p s₀ s₀ where
  distinct := hs
  ids := rfl
  handlers := by simp [hd]
  follows := by simp [hd]
  starts := fun id => by simp [count, hd]
  untouched := fun _ _ => rfl
  letters := ⟨[], by simp, by simp [hd]⟩

/-- A waiting job has not been started. -/
theorem Course.record?_of_waiting (h : Course p s₀ s) {id : JobId} {j : Job}
    (hj : s.record? id = some j) (hs : j.status = .scheduled) :
    s.count id Execution.hasStarted = 0 ∧ s₀.record? id = s.record? id := by
  have hstarts := h.starts id
  have hone : Ledger.waiting (s.record? id) = 1 :=
    Ledger.waiting_eq_one_iff.mpr (by rw [hj, Option.map_some, hs])
  have hle := Ledger.waiting_le_one (s₀.record? id)
  have hzero : s.count id Execution.hasStarted = 0 := by omega
  exact ⟨hzero, (h.untouched id hzero).symm⟩

/-- No two executions start the same job. -/
theorem Course.count_le_one (h : Course p s₀ s) (id : JobId) :
    s.count id Execution.hasStarted ≤ 1 := by
  have hstarts := h.starts id
  have hle := Ledger.waiting_le_one (s₀.record? id)
  omega

/-- Where no execution of a job has started it, none in the list has. -/
theorem hasStarted_of_count_eq_zero {id : JobId} (h : s.count id Execution.hasStarted = 0)
    {d : Delivery} (hd : d ∈ s.deliveries) (hid : d.job = id) : d.execution.hasStarted = false := by
  have hnot := List.countP_eq_zero.mp h d hd
  simpa [hid] using hnot

/-- The records after what leaves the store alone. -/
theorem record?_congr (hs : s'.shared.store = s.shared.store) (id : JobId) :
    s'.record? id = s.record? id :=
  congrArg (fun st => st.find? id) hs

/-- What leaves the store and the dead letters alone, starts no job, and keeps executions on their
way. -/
theorem Course.of_idle (h : Course p s₀ s) (hs : s'.shared.store = s.shared.store)
    (hl : s'.deadLetters = s.deadLetters)
    (hcount : ∀ id, s'.count id Execution.hasStarted = s.count id Execution.hasStarted)
    (hall : ∀ d ∈ s'.deliveries, d.handlers = p.handlers ∧
      p.Follows d.job (s₀.record? d.job) (s.record? d.job) d.execution)
    (hsent : (s.deliveries.flatMap fun d => p.sent (s₀.record? d.job) d.execution).Perm
      (s'.deliveries.flatMap fun d => p.sent (s₀.record? d.job) d.execution)) : Course p s₀ s' where
  distinct := hs ▸ h.distinct
  ids := hs ▸ h.ids
  handlers := fun d hd => (hall d hd).1
  follows := by
    intro d hd
    rw [record?_congr hs]
    exact (hall d hd).2
  starts := by
    intro id
    rw [hcount, record?_congr hs]
    exact h.starts id
  untouched := by
    intro id
    rw [hcount, record?_congr hs]
    exact h.untouched id
  letters := by
    obtain ⟨sent, hletters, hperm⟩ := h.letters
    exact ⟨sent, hl.trans hletters, hperm.trans hsent⟩

/-- An execution begins. -/
theorem Course.begun (h : Course p s₀ s) {id : JobId}
    (hd : s'.deliveries = s.deliveries ++ [⟨id, p.handlers, .loading id⟩])
    (hs : s'.shared.store = s.shared.store) (hl : s'.deadLetters = s.deadLetters) :
    Course p s₀ s' := by
  refine h.of_idle hs hl (count_hasStarted_of_begun hd) ?_ ?_
  · rw [hd]
    intro d hd
    rcases List.mem_append.mp hd with hd | hd
    · exact ⟨h.handlers d hd, h.follows d hd⟩
    · rw [List.mem_singleton.mp hd]
      exact ⟨rfl, rfl⟩
  · rw [hd, List.flatMap_append]
    simp [Repertoire.sent]

/-- The handler of an execution ends. -/
theorem Course.concluded (h : Course p s₀ s) {k : Nat} {d : Delivery}
    (hd : s.deliveries[k]? = some d) {outcome : HandlerOutcome} {elapsed : Span}
    (ho : ∀ job, d.execution = .working job → outcome = p.outcome job.jobType job.payload)
    (hd' : s'.deliveries = s.deliveries.set k (d.advanced (d.execution.resume outcome elapsed)))
    (hs : s'.shared.store = s.shared.store) (hl : s'.deadLetters = s.deadLetters) :
    Course p s₀ s' := by
  have hmem := List.mem_of_getElem? hd
  refine h.of_idle hs hl (count_hasStarted_of_concluded hd hd') ?_ ?_
  · rw [hd']
    intro c hc
    rcases List.mem_or_eq_of_mem_set hc with hc | rfl
    · exact ⟨h.handlers c hc, h.follows c hc⟩
    · exact ⟨h.handlers d hmem, (h.follows d hmem).resume elapsed ho⟩
  · -- the end of a handler sends nothing
    have hnone := p.sent_resume (s₀.record? d.job) d.execution outcome elapsed
    have hset := perm_flatMap_set_of_eq hd (b := d.advanced (d.execution.resume outcome elapsed))
      (f := fun d => p.sent (s₀.record? d.job) d.execution) (hnone.trans (List.append_nil _).symm)
    rw [List.append_nil] at hset
    rw [hd']
    exact hset.symm

section Executed

variable {k : Nat} {d : Delivery} (hd : s.deliveries[k]? = some d)
  (hsh : s'.shared = (d.execution.step e.moment.services d.handlers s.shared).2)

include hd hsh

/-- What the step of an execution does to the record of its job. -/
theorem Course.advance (h : Course p s₀ s) (ha : e.StoreAnswers) :
    Execution.Advance e.moment.now p.handlers (s.record? d.job) d.execution (s'.record? d.job)
      (d.execution.step e.moment.services d.handlers s.shared).1 := by
  have hmem := List.mem_of_getElem? hd
  have hadvance := (Execution.step_advance ha h.distinct (h.follows d hmem).fits d.handlers).1
  rw [← hsh] at hadvance
  rw [← h.handlers d hmem]
  exact hadvance

/-- The step of an execution leaves the records of other jobs alone. -/
theorem Course.record?_of_ne (h : Course p s₀ s) {id : JobId} (hid : d.job ≠ id) :
    s'.record? id = s.record? id := by
  rw [record?, hsh]
  exact Execution.find?_step_of_ne h.distinct (h.follows d (List.mem_of_getElem? hd)).fits d.handlers
    (Ne.symm hid)

/-- The step of an execution keeps the other ones of its job on their way. -/
theorem Course.follows_of_ne (h : Course p s₀ s) (ha : e.StoreAnswers) {c : Delivery} {i : Nat}
    (hc : s.deliveries[i]? = some c) (hik : i ≠ k) :
    p.Follows c.job (s₀.record? c.job) (s'.record? c.job) c.execution := by
  have hmem := List.mem_of_getElem? hc
  have hfollows := h.follows c hmem
  by_cases hid : c.job = d.job
  · have hadvance := h.advance hd hsh ha
    rw [hid] at hfollows ⊢
    rcases hadvance.eq_or_hasStarted with hsame | ⟨-, hnot, hwas⟩
    · rwa [hsame]
    · -- the job has one execution that starts it, and that is the other one
      refine hfollows.of_others ?_ hadvance.map_request hnot
      rw [Bool.eq_false_iff]
      intro hx
      rcases hwas with hx' | ⟨j, hj, hs⟩
      · exact hik (eq_of_count_le_one (h.count_le_one d.job) hc hd hid rfl hx hx')
      · have hzero := (h.record?_of_waiting hj hs).1
        exact absurd hx (by simp [hasStarted_of_count_eq_zero hzero hmem hid])
  · rw [h.record?_of_ne hd hsh (Ne.symm hid)]
    exact hfollows

variable (hd' : s'.deliveries = s.deliveries.set k
  (d.advanced (d.execution.step e.moment.services d.handlers s.shared).1))

include hd'

/-- After the step of an execution, too, a record is as it was if no execution has started its job. -/
theorem Course.untouched_executed (h : Course p s₀ s) (ha : e.StoreAnswers) {id : JobId}
    (hzero : s'.count id Execution.hasStarted = 0) : s'.record? id = s₀.record? id := by
  by_cases hid : d.job = id
  · subst hid
    have hadvance := h.advance hd hsh ha
    have hcount := count_advanced hd hd' Execution.hasStarted
    have hstarted := hadvance.toNat_hasStarted_add
    rcases hadvance.eq_or_hasStarted with hsame | ⟨hx', -⟩
    · rw [hsame] at hstarted ⊢
      exact h.untouched d.job (by omega)
    · -- the execution has started its job and is counted
      have hmem' : d.advanced (d.execution.step e.moment.services d.handlers s.shared).1
          ∈ s'.deliveries := by
        rw [hd']
        exact List.mem_set (List.getElem?_eq_some_iff.mp hd).1 _
      have hnone := hasStarted_of_count_eq_zero hzero hmem' rfl
      exact absurd hx' (by simpa using hnone)
  · rw [count_advanced_of_ne hd hd' hid] at hzero
    rw [h.record?_of_ne hd hsh hid]
    exact h.untouched id hzero

/-- An execution takes a step. -/
theorem Course.executed (h : Course p s₀ s) (ha : e.StoreAnswers) (hb : e.BrokerAnswers) :
    Course p s₀ s' := by
  have hmem := List.mem_of_getElem? hd
  have hfollows := h.follows d hmem
  have hadvance := h.advance hd hsh ha
  refine ⟨?_, ?_, ?_, ?_, ?_, fun id hzero => h.untouched_executed hd hsh hd' ha hzero, ?_⟩
  · rw [hsh]
    exact (Execution.step_advance ha h.distinct hfollows.fits d.handlers).2
  · rw [hsh]
    exact (Execution.ids_step h.distinct d.execution d.handlers).trans h.ids
  · rw [hd']
    intro c hc
    rcases List.mem_or_eq_of_mem_set hc with hc | rfl
    · exact h.handlers c hc
    · exact h.handlers d hmem
  · rw [hd']
    intro c hc
    rcases of_mem_set hc with rfl | ⟨i, hik, hi⟩
    · exact hfollows.advance hadvance (fun j hj => Store.id_of_find? hj)
        fun j hj hs => (h.record?_of_waiting hj hs).2
    · exact h.follows_of_ne hd hsh ha hi hik
  · intro id
    by_cases hid : d.job = id
    · subst hid
      have hbefore := h.starts d.job
      have hcount := count_advanced hd hd' Execution.hasStarted
      have hstarted := hadvance.toNat_hasStarted_add
      omega
    · rw [count_advanced_of_ne hd hd' hid, h.record?_of_ne hd hsh hid]
      exact h.starts id
  · obtain ⟨sent, hsent, hperm⟩ := h.letters
    refine ⟨sent ++ d.execution.letters e.moment.now, ?_, ?_⟩
    · rw [List.map_append, ← List.append_assoc, ← hsent, deadLetters, hsh]
      exact Execution.deadLetters_step hb s.shared d.execution d.handlers
    · rw [List.map_append, hd']
      refine (hperm.append_right _).trans ?_
      have hmore := hfollows.sent_advance hadvance
      exact (perm_flatMap_set_of_eq hd (f := fun d => p.sent (s₀.record? d.job) d.execution)
        (b := d.advanced _) hmore).symm

end Executed

/-- **A step of an executor keeps to the course.** -/
theorem Course.step (h : Course p s₀ s) (hw : Step.Works p ⟨s, e, s.step e⟩) :
    Course p s₀ (s.step e) := by
  have hworked := step_worked hw
  obtain ⟨ha, hb, -⟩ := hw
  generalize s.step e = s' at hworked
  cases hworked with
  | rested hd hs hl =>
    exact h.of_idle hs hl (fun id => count_congr hd id _)
      (fun d hm => ⟨h.handlers d (hd ▸ hm), h.follows d (hd ▸ hm)⟩) (by rw [hd])
  | begun id hd hs hl => exact h.begun hd hs hl
  | executed k d hk hd hs => exact h.executed hk hs hd ha hb
  | concluded k d outcome elapsed hk ho hd hs hl => exact h.concluded hk ho hd hs hl

/-- Where the record of a job is as it was, the job does not start. -/
theorem moves_of_record?_eq {id : JobId} (h : s'.record? id = s.record? id) :
    (Step.mk s e s').moves id .scheduled .running = false := by
  rw [Step.moves_eq, h, decide_eq_false_iff_not]
  rintro ⟨hscheduled, hrunning⟩
  exact absurd (Option.some.inj (hscheduled.symm.trans hrunning)) (by decide)

/-- One more execution has started its job after a step in which a job starts. -/
theorem Course.count_step (h : Course p s₀ s) (hw : Step.Works p ⟨s, e, s.step e⟩) (id : JobId) :
    (s.step e).count id Execution.hasStarted = s.count id Execution.hasStarted
      + ((Step.mk s e (s.step e)).moves id .scheduled .running).toNat := by
  have hworked := step_worked hw
  have ha : e.StoreAnswers := hw.store
  generalize s.step e = s' at hworked
  cases hworked with
  | rested hd hs hl =>
    rw [count_congr hd, moves_of_record?_eq (record?_congr hs id)]
    rfl
  | begun id' hd hs hl =>
    rw [count_hasStarted_of_begun hd, moves_of_record?_eq (record?_congr hs id)]
    rfl
  | executed k d hk hd hs =>
    by_cases hid : d.job = id
    · subst hid
      have hcount := count_advanced hk hd Execution.hasStarted
      have hstarted := (h.advance hk hs ha).toNat_hasStarted
      rw [Step.moves_eq]
      omega
    · rw [count_advanced_of_ne hk hd hid, moves_of_record?_eq (h.record?_of_ne hk hs hid)]
      rfl
  | concluded k d outcome elapsed hk ho hd hs hl =>
    rw [count_hasStarted_of_concluded hk hd, moves_of_record?_eq (record?_congr hs id)]
    rfl

/-- Executors keep to the course. -/
theorem Course.run {es : List Event} (h : Course p s₀ s) (hes : ∀ q ∈ s.trail es, q.Works p) :
    Course p s₀ (s.run es) ∧ ∀ q ∈ s.trail es, Course p s₀ q.before :=
  trail_induction h hes fun _ _ h hw => h.step hw

/-- As many executions have started a job as there are steps in which it starts. -/
theorem Course.count_run {es : List Event} (h : Course p s₀ s) (hes : ∀ q ∈ s.trail es, q.Works p)
    (id : JobId) : (s.run es).count id Execution.hasStarted
      = s.count id Execution.hasStarted + (s.trail es).countP (·.moves id .scheduled .running) := by
  refine eq_add_countP_trail (f := fun s => s.count id Execution.hasStarted) fun q hq => ?_
  have hstep := q.eq_mk (of_mem_trail hq).1
  have hw := hes q hq
  rw [hstep] at hw ⊢
  exact ((h.run hes).2 q hq).count_step hw id

/-! ### The handlers that start -/

/-- Where no handler more works on a job than before and its record is as it was, none starts. -/
theorem startsHandler_of_le {id : JobId}
    (hc : s'.count id Execution.isWorking ≤ s.count id Execution.isWorking)
    (hr : s'.record? id = s.record? id) (b : Bool) :
    (Step.mk s e s').startsHandler id = ((Step.mk s e s').moves id .scheduled .running && b) := by
  rw [moves_of_record?_eq hr, Bool.false_and, Step.startsHandler, decide_eq_false_iff_not]
  exact Nat.not_lt.mpr hc

/-- **A handler starts when a job starts to run, if there is one.** -/
theorem Course.startsHandler_step (h : Course p s₀ s) (hw : Step.Works p ⟨s, e, s.step e⟩)
    (id : JobId) : (Step.mk s e (s.step e)).startsHandler id
      = ((Step.mk s e (s.step e)).moves id .scheduled .running && p.handles (s₀.record? id)) := by
  have hworked := step_worked hw
  have ha : e.StoreAnswers := hw.store
  generalize s.step e = s' at hworked
  cases hworked with
  | rested hd hs hl =>
    exact startsHandler_of_le (Nat.le_of_eq (count_congr hd id _)) (record?_congr hs id) _
  | begun id' hd hs hl =>
    have hcount : s'.count id Execution.isWorking = s.count id Execution.isWorking := by
      simp [count, hd, List.countP_append, Execution.isWorking]
    exact startsHandler_of_le (Nat.le_of_eq hcount) (record?_congr hs id) _
  | concluded k d outcome elapsed hk ho hd hs hl =>
    exact startsHandler_of_le (working_le_of_resumed hk hd id) (record?_congr hs id) _
  | executed k d hk hd hs =>
    have hmem := List.mem_of_getElem? hk
    by_cases hid : d.job = id
    · subst hid
      have hadvance := h.advance hk hs ha
      have hstarts := hadvance.starts_iff
      -- the executor goes by the record that it has loaded, which is the one before any execution
      have htype : ∀ job, d.execution = .starting job →
          p.handlers.contains job.jobType = p.handles (s₀.record? d.job) := by
        intro job hx
        have hfollows := h.follows d hmem
        rw [hx] at hfollows
        rw [Repertoire.handles, hfollows.2.1]
        rfl
      rw [Bool.eq_iff_iff, Bool.and_eq_true, Step.moves_eq_true, Step.startsHandler,
        decide_eq_true_iff, count_lt_advanced_iff hk hd, hadvance.begins_work_iff]
      refine Iff.trans ?_ (and_congr_left' hstarts).symm
      constructor
      · rintro ⟨job, j, hx, hj, hst, hc⟩
        exact ⟨⟨job, j, hx, hj, hst⟩, (htype job hx).symm.trans hc⟩
      · rintro ⟨⟨job, j, hx, hj, hst⟩, hc⟩
        exact ⟨job, j, hx, hj, hst, (htype job hx).trans hc⟩
    · exact startsHandler_of_le (Nat.le_of_eq (count_advanced_of_ne hk hd hid _))
        (h.record?_of_ne hk hs hid) _

/-- Along a run handlers start when their jobs start to run. -/
theorem Course.countP_startsHandler {es : List Event} (h : Course p s₀ s)
    (hes : ∀ q ∈ s.trail es, q.Works p) (id : JobId) :
    (s.trail es).countP (·.startsHandler id)
      = if p.handles (s₀.record? id) then (s.trail es).countP (·.moves id .scheduled .running) else 0 := by
  have hsteps : ∀ q ∈ s.trail es,
      q.startsHandler id = (q.moves id .scheduled .running && p.handles (s₀.record? id)) := by
    intro q hq
    have hstep := q.eq_mk (of_mem_trail hq).1
    have hw := hes q hq
    rw [hstep] at hw ⊢
    exact ((h.run hes).2 q hq).startsHandler_step hw id
  rw [List.countP_congr fun q hq => Bool.eq_iff_iff.mp (hsteps q hq)]
  cases p.handles (s₀.record? id) <;> simp

end Scheduler

end JobDispatch
