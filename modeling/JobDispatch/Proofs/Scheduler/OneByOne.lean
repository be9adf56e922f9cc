import JobDispatch.Proofs.Scheduler.Ending

/-!
# In parallel as one by one

`Execution.perform` executes one job from start to end, without interruption.  Executing the jobs of
all messages in this way, one after another, is what a pool with many executions in flight amounts to:
the same jobs are run, and the records and the dead letters come out the same.

No two orders of steps are compared.  Executing one by one is itself a run of executors, and every run
of executors that has come to its end has made of each record, and sent, what was settled beforehand.

## Main definitions

* `HandlerRegistry.Behaves` — how each handler ends depends on the payload alone.
* `Execution.performEach` — the jobs of a list, one after another.
* `Scheduler.carried` — the jobs of the messages on the ready queue.
* `Step.TakesOff` — a step of an executor that takes its messages off the ready queue.
* `Shared.Agree` — two ways to go on come to the same.

## Main results

* `Execution.settle_induction` — what every step keeps holds when an execution has come to rest.
* `Scheduler.Course.performEach_run` — executing jobs one by one is a run of executors.
* `Scheduler.executedJobs_run` — the executions are those of the messages.
* `Scheduler.Course.agree` — two runs that execute the same jobs come to the same.
* `Scheduler.parallel_eq_serial` — **running jobs in parallel equals running them one at a time.**
-/

namespace JobDispatch

/-- **How each handler ends depends on the payload alone**, and so does what is said of it if it panics. -/
structure HandlerRegistry.Behaves {ω : Type} (r : HandlerRegistry ω) (p : Repertoire) : Prop where
  handlers : p.handlers = r.jobTypes
  outcome : ∀ jobType h, r.find? jobType = some h → ∀ payload w,
    (Execution.handle h payload w).1 = p.outcome jobType payload

namespace Execution

variable {σ ω : Type}

/-- **The jobs of a list, one after another**, each from start to end at a moment of its own. -/
def performEach (handlers : HandlerRegistry ω) : List (Moment × JobId) → Shared → ω → Shared
  | [], sh, _ => sh
  | (m, id) :: rest, sh, w =>
    let (_, sh, w) := perform m.services handlers id sh w
    performEach handlers rest sh w

/-- **What every step keeps holds when an execution has come to rest.** -/
theorem settle_induction {P : Execution → σ → Prop} {v : Services σ} {available : List String}
    (hstep : ∀ x s, P x s → P (x.step v available s).1 (x.step v available s).2) {x : Execution} {s : σ}
    (h : P x s) : P (settle v available x s).1 (settle v available x s).2 ∧
      (settle v available x s).1.isResting = true := by
  fun_induction settle v available x s with
  | case1 x s hr => exact ⟨h, hr⟩
  | case2 x s hr next ih => exact ih (hstep x s h)

/-- Steps are taken until the execution rests. -/
theorem isResting_settle (v : Services σ) (available : List String) (x : Execution) (s : σ) :
    (settle v available x s).1.isResting = true :=
  (settle_induction (P := fun _ _ => True) (fun _ _ _ => trivial) trivial).2

/-- Whether the handler of an execution works no more. -/
def isPastWork : Execution → Bool
  | completing .. => true
  | recovering .. => true
  | finished _ => true
  | _ => false

theorem isPastWork_step (v : Services σ) (available : List String) {x : Execution} (s : σ)
    (h : x.isPastWork = true) : (x.step v available s).1.isPastWork = true := by
  cases x with
  | loading id => exact absurd h (by simp [isPastWork])
  | starting job => exact absurd h (by simp [isPastWork])
  | working job => exact absurd h (by simp [isPastWork])
  | completing id result elapsed =>
    simp only [step]
    split <;> rfl
  | recovering e recording =>
    simp only [step, recovered]
    split <;> rfl
  | finished outcome => rfl

/-- An execution whose handler has ended comes to its end. -/
theorem isFinished_settle (v : Services σ) (available : List String) {x : Execution} (s : σ)
    (h : x.isPastWork = true) : (settle v available x s).1.isFinished = true := by
  have hrest := isResting_settle v available x s
  have hpast : (settle v available x s).1.isPastWork = true :=
    (settle_induction (P := fun x _ => x.isPastWork = true)
      (fun x s hx => isPastWork_step v available s hx) h).1
  cases hx : (settle v available x s).1 with
  | finished outcome => rfl
  | _ => simp [hx, isPastWork, isResting] at hpast hrest

end Execution

namespace Scheduler

variable {p : Repertoire} {s₀ s : Scheduler}

/-! ### One by one -/

theorem trail_append (s : Scheduler) (es fs : List Event) :
    s.trail (es ++ fs) = s.trail es ++ (s.run es).trail fs := by
  induction es generalizing s with
  | nil => rfl
  | cons e es ih => rw [List.cons_append, trail, trail, ih, run_cons, List.cons_append]

/-- A run of executors can be continued. -/
theorem works_append {es fs : List Event} (hes : ∀ q ∈ s.trail es, q.Works p)
    (hfs : ∀ q ∈ (s.run es).trail fs, q.Works p) : ∀ q ∈ s.trail (es ++ fs), q.Works p := by
  intro q hq
  rw [trail_append] at hq
  exact (List.mem_append.mp hq).elim (hes q) (hfs q)

/-- A run of executors can begin with a step. -/
theorem works_cons {e : Event} {es : List Event} (he : Step.Works p ⟨s, e, s.step e⟩)
    (hes : ∀ q ∈ (s.step e).trail es, q.Works p) : ∀ q ∈ s.trail (e :: es), q.Works p := by
  intro q hq
  rcases List.mem_cons.mp hq with rfl | hq
  · exact he
  · exact hes q hq

theorem works_nil (s : Scheduler) : ∀ q ∈ s.trail [], q.Works p :=
  fun _ hq => absurd hq List.not_mem_nil

variable {m : Moment}

/-- **The steps of one execution until it rests are a run of executors.** -/
theorem settle_run (hm : m.storeOutage = none) (hb : m.brokerOutage = none) {k : Nat} {d : Delivery}
    (hd : s.deliveries[k]? = some d) :
    ∃ es, (∀ q ∈ s.trail es, q.Works p) ∧
      (s.run es).shared = (d.execution.settle m.services d.handlers s.shared).2 ∧
      (s.run es).deliveries
        = s.deliveries.set k (d.advanced (d.execution.settle m.services d.handlers s.shared).1) := by
  have hk : k < s.deliveries.length := (List.getElem?_eq_some_iff.mp hd).1
  -- the execution and the services after each step are those after some run
  refine (Execution.settle_induction (P := fun x sh => ∃ es, (∀ q ∈ s.trail es, q.Works p) ∧
    (s.run es).shared = sh ∧ (s.run es).deliveries = s.deliveries.set k (d.advanced x)) ?_ ?_).1
  · rintro x sh ⟨es, hes, rfl, hset⟩
    have hget : (s.run es).deliveries[k]? = some (d.advanced x) := by
      rw [hset, List.getElem?_set_self hk]
    have hstep := step_of_execute (e := ⟨m, .execute k⟩) rfl hget
    have hworks : Step.Works p ⟨s.run es, ⟨m, .execute k⟩, (s.run es).step ⟨m, .execute k⟩⟩ :=
      ⟨hm, hb, trivial⟩
    refine ⟨es ++ [⟨m, .execute k⟩], works_append hes (works_cons hworks (works_nil _)), ?_, ?_⟩
    · rw [run_append, run_cons, run_nil, hstep]
      rfl
    · rw [run_append, run_cons, run_nil, hstep]
      simp only [hset, List.set_set]
      rfl
  · refine ⟨[], works_nil s, rfl, ?_⟩
    obtain ⟨-, rfl⟩ := List.getElem?_eq_some_iff.mp hd
    exact (List.set_getElem_self hk).symm

/-- An execution begins and goes on until it rests. -/
theorem begin_run (hm : m.storeOutage = none) (hb : m.brokerOutage = none) (id : JobId) :
    ∃ es, (∀ q ∈ s.trail es, q.Works p) ∧
      (s.run es).shared = (Execution.settle m.services p.handlers (.loading id) s.shared).2 ∧
      (s.run es).deliveries = s.deliveries ++
        [⟨id, p.handlers, (Execution.settle m.services p.handlers (.loading id) s.shared).1⟩] := by
  let e : Event := ⟨m, .hand p.handlers ⟨id, "", 0, Double.one, .null⟩⟩
  have he : Step.Works p ⟨s, e, s.step e⟩ := ⟨hm, hb, rfl⟩
  have hlast : (s.step e).deliveries[s.deliveries.length]? = some ⟨id, p.handlers, .loading id⟩ :=
    List.getElem?_concat_length
  obtain ⟨es, hes, hshared, hset⟩ := settle_run hm hb hlast
  refine ⟨e :: es, works_cons he hes, hshared, hset.trans ?_⟩
  show (s.deliveries ++ [_]).set s.deliveries.length _ = _
  rw [List.set_append_right _ _ (Nat.le_refl _), Nat.sub_self]
  rfl

/-- The handler of the last execution ends, and the execution goes on until it has ended. -/
theorem conclude_run (hm : m.storeOutage = none) (hb : m.brokerOutage = none) {id : JobId} {job : Job}
    {ds : List Delivery} (hd : s.deliveries = ds ++ [⟨id, p.handlers, .working job⟩])
    {outcome : HandlerOutcome} (ho : outcome = p.outcome job.jobType job.payload) (elapsed : Span) :
    ∃ es x, (∀ q ∈ s.trail es, q.Works p) ∧
      (s.run es).shared = (Execution.settle m.services p.handlers
        (Execution.ended job elapsed outcome) s.shared).2 ∧
      (s.run es).deliveries = ds ++ [⟨id, p.handlers, x⟩] ∧ x.isFinished = true := by
  let e : Event := ⟨m, .conclude ds.length outcome elapsed⟩
  have hlast : s.deliveries[ds.length]? = some ⟨id, p.handlers, .working job⟩ := by
    rw [hd, List.getElem?_concat_length]
  have he : Step.Works p ⟨s, e, s.step e⟩ := by
    refine ⟨hm, hb, fun d job' hd' hx => ?_⟩
    obtain rfl := Option.some.inj (hlast.symm.trans hd')
    obtain rfl := Execution.working.inj hx
    exact ho
  have hstep : s.step e = { s with
      deliveries := ds ++ [⟨id, p.handlers, Execution.ended job elapsed outcome⟩] } := by
    show s.conclude ds.length outcome elapsed = _
    simp only [conclude, hlast]
    rw [hd, List.set_append_right _ _ (Nat.le_refl _), Nat.sub_self]
    rfl
  have hnext : (s.step e).deliveries[ds.length]?
      = some ⟨id, p.handlers, Execution.ended job elapsed outcome⟩ := by
    rw [hstep]
    exact List.getElem?_concat_length
  obtain ⟨es, hes, hshared, hset⟩ := settle_run hm hb hnext
  have hpast : (Execution.ended job elapsed outcome).isPastWork = true := by cases outcome <;> rfl
  refine ⟨e :: es, _, works_cons he hes, ?_, ?_, Execution.isFinished_settle m.services p.handlers
    (s.step e).shared hpast⟩
  · rw [run_cons, hshared, hstep]
  · rw [run_cons, hset, hstep]
    show (ds ++ [_]).set ds.length _ = _
    rw [List.set_append_right _ _ (Nat.le_refl _), Nat.sub_self]
    rfl

variable {ω : Type} {registry : HandlerRegistry ω}

/-- **An execution without interruption is a run of executors.** -/
theorem Course.perform_run (h : Course p s₀ s) (hreg : registry.Behaves p) (hm : m.storeOutage = none)
    (hb : m.brokerOutage = none) (id : JobId) (w : ω) :
    ∃ es x, (∀ q ∈ s.trail es, q.Works p) ∧
      (s.run es).shared = (Execution.perform m.services registry id s.shared w).2.1 ∧
      (s.run es).deliveries = s.deliveries ++ [⟨id, p.handlers, x⟩] ∧ x.isFinished = true := by
  obtain ⟨es, hes, hshared, hdeliveries⟩ := begin_run (s := s) (p := p) hm hb id
  have hrest := Execution.isResting_settle m.services p.handlers (.loading id) s.shared
  simp only [Execution.perform, ← hreg.handlers]
  cases hset : Execution.settle m.services p.handlers (.loading id) s.shared with
  | mk x sh =>
  simp only [hset] at hshared hdeliveries hrest
  cases x with
  | finished outcome => exact ⟨es, .finished outcome, hes, hshared, hdeliveries, rfl⟩
  | working job =>
    -- the execution is on its way, so there is a handler for its job
    have hcourse := (h.run hes).1
    obtain ⟨j, -, -, -, rfl, hc, -⟩ :=
      hcourse.follows ⟨id, p.handlers, .working job⟩ (by simp [hdeliveries])
    obtain ⟨handler, hhandler⟩ : ∃ g, registry.find? job.jobType = some g := by
      rw [hreg.handlers, HandlerRegistry.jobTypes, Dictionary.contains_names] at hc
      exact Option.isSome_iff_exists.mp hc
    simp only [Execution.work?, hhandler, Execution.resume_working]
    have ho := hreg.outcome job.jobType handler hhandler job.payload w
    generalize Execution.handle handler job.payload w = ending at ho
    obtain ⟨outcome, slept, w'⟩ := ending
    obtain ⟨fs, x, hfs, hshared', hdeliveries', hx⟩ := conclude_run hm hb hdeliveries ho slept
    refine ⟨es ++ fs, x, works_append hes hfs, ?_, ?_, hx⟩
    · rw [run_append, hshared', hshared]
    · rw [run_append, hdeliveries']
  | _ => simp [Execution.isResting] at hrest

/-- **Executing jobs one by one is a run of executors.** -/
theorem Course.performEach_run (h : Course p s₀ s) (hreg : registry.Behaves p)
    (hdone : ∀ d ∈ s.deliveries, d.execution.isFinished = true) {calls : List (Moment × JobId)}
    (hcalls : ∀ c ∈ calls, c.1.storeOutage = none ∧ c.1.brokerOutage = none) (w : ω) :
    ∃ es, (∀ q ∈ s.trail es, q.Works p) ∧
      (s.run es).shared = Execution.performEach registry calls s.shared w ∧
      (s.run es).executedJobs = s.executedJobs ++ calls.map Prod.snd ∧
      ∀ d ∈ (s.run es).deliveries, d.execution.isFinished = true := by
  induction calls generalizing s w with
  | nil => exact ⟨[], works_nil s, rfl, by simp, hdone⟩
  | cons c calls ih =>
    obtain ⟨m, id⟩ := c
    obtain ⟨hm, hb⟩ := hcalls (m, id) List.mem_cons_self
    obtain ⟨es, x, hes, hshared, hdeliveries, hx⟩ := h.perform_run hreg hm hb id w
    have hdone' : ∀ d ∈ (s.run es).deliveries, d.execution.isFinished = true := by
      rw [hdeliveries]
      intro d hd
      rcases List.mem_append.mp hd with hd | hd
      · exact hdone d hd
      · rw [List.mem_singleton.mp hd]
        exact hx
    obtain ⟨fs, hfs, hshared', hexecuted, hend⟩ := ih (h.run hes).1 hdone'
      (fun c hc => hcalls c (List.mem_cons_of_mem _ hc))
      (Execution.perform m.services registry id s.shared w).2.2
    refine ⟨es ++ fs, works_append hes hfs, ?_, ?_, ?_⟩
    · rw [run_append, hshared', hshared]
      rfl
    · rw [run_append, hexecuted, executedJobs, executedJobs, hdeliveries, List.map_append,
        List.append_assoc]
      rfl
    · rw [run_append]
      exact hend

/-! ### Each message is executed -/

/-- The jobs of the messages on the ready queue. -/
def carried (s : Scheduler) : List JobId :=
  (s.shared.broker.ready.filterMap fun message => (Ticket.ofMessage message).toOption).map Ticket.jobId

end Scheduler

/-- **A step of an executor that takes its messages off the ready queue.** -/
structure Step.TakesOff (p : Repertoire) (q : Step) : Prop extends q.Works p where
  pulls : ∀ handlers t, q.event.move ≠ .hand handlers t

namespace Scheduler

variable {p : Repertoire} {s : Scheduler} {e : Event}

/-- **Each message that is taken off the queue is that of one execution.** -/
theorem executedJobs_step (h : Step.TakesOff p ⟨s, e, s.step e⟩) :
    (s.step e).executedJobs ++ (s.step e).carried = s.executedJobs ++ s.carried := by
  obtain ⟨⟨-, hb, hmove⟩, hpulls⟩ := h
  unfold step
  cases hm : e.move with
  | take handlers timeout =>
    simp only [take, Moment.services_broker hb, Broker.perform_popReady]
    cases hr : s.shared.broker.ready with
    | nil =>
      rw [Broker.popReady_nil hr]
      rfl
    | cons message rest =>
      rw [Broker.popReady_cons hr]
      cases ht : Ticket.ofMessage message with
      | ok t => simp [receive, Except.map, hand, executedJobs, carried, hr, ht, Except.toOption]
      | error problem =>
        obtain rfl := Ticket.ofMessage_error ht
        simp [receive, Except.map, executedJobs, carried, hr, ht, Except.toOption]
  | hand handlers t => exact absurd hm (hpulls handlers t)
  | execute k =>
    simp only [execute]
    cases hd : s.deliveries[k]? with
    | none => rfl
    | some d =>
      simp only [executedJobs, carried, Execution.ready_step]
      rw [map_set_of_eq hd (d.job_advanced _)]
  | conclude k outcome elapsed =>
    simp only [conclude]
    cases hd : s.deliveries[k]? with
    | none => rfl
    | some d =>
      simp only [executedJobs, carried]
      rw [map_set_of_eq hd (d.job_advanced _)]
  | _ => simp only [hm] at hmove

/-- The executions of a run are those of the messages. -/
theorem executedJobs_run {es : List Event} (hes : ∀ q ∈ s.trail es, q.TakesOff p) :
    (s.run es).executedJobs ++ (s.run es).carried = s.executedJobs ++ s.carried :=
  (trail_induction (P := fun s' => s'.executedJobs ++ s'.carried = s.executedJobs ++ s.carried) rfl hes
    fun _ _ h hw => (executedJobs_step hw).trans h).1

end Scheduler

/-! ### In parallel -/

/-- **Two ways to go on come to the same**: the records and the dead letters are equal, apart from
points in time, the time that handlers took, and the order of the dead letters. -/
structure Shared.Agree (before a b : Shared) : Prop where
  records : a.store.jobs.map Job.timeless = b.store.jobs.map Job.timeless
  letters : ∃ ls ls' : List DeadLetter,
    a.broker.deadLetters = before.broker.deadLetters ++ ls.map DeadLetter.text ∧
      b.broker.deadLetters = before.broker.deadLetters ++ ls'.map DeadLetter.text ∧
        (ls.map DeadLetter.timeless).Perm (ls'.map DeadLetter.timeless)

namespace Scheduler

variable {p : Repertoire} {s₀ s s' : Scheduler}

/-- Whether a job waits and has a message on the ready queue. -/
def Awaited (s : Scheduler) (id : JobId) : Prop := s.status? id = some .scheduled ∧ id ∈ s.carried

instance (s : Scheduler) (id : JobId) : Decidable (s.Awaited id) :=
  inferInstanceAs (Decidable (_ ∧ _))

/-- **Two runs that execute the same jobs come to the same.** -/
theorem Course.agree (h : Course p s₀ s) (h' : Course p s₀ s') (hs₀ : s₀.shared.store.Distinct)
    (hdone : ∀ d ∈ s.deliveries, d.execution.isFinished = true)
    (hdone' : ∀ d ∈ s'.deliveries, d.execution.isFinished = true)
    (hjobs : s.executedJobs = s'.executedJobs) : Shared.Agree s₀.shared s.shared s'.shared := by
  obtain ⟨ls, hls, hperm⟩ := h.perm_letters hs₀ hdone
  obtain ⟨ls', hls', hperm'⟩ := h'.perm_letters hs₀ hdone'
  rw [hjobs] at hperm
  exact ⟨by rw [h.jobs_eq hs₀ hdone, h'.jobs_eq hs₀ hdone', hjobs],
    ls, ls', hls, hls', hperm.trans hperm'.symm⟩

/-- **Running jobs in parallel equals running them one at a time.**  Executors work off the ready
queue, in any number and with any interleaving of their steps; how each handler ends, the text of a panic
included, depends on the payload alone, and the services answer.  Then the records and the dead letters
come out as if the jobs of the messages had been executed one after another.  Each waiting job that has a
message is run once, and so is its handler if there is one; no other record changes. -/
theorem parallel_eq_serial {ω : Type} {registry : HandlerRegistry ω} (hreg : registry.Behaves p)
    (hs₀ : s₀.shared.store.Distinct) (hfresh : s₀.deliveries = []) {es : List Event}
    (hes : ∀ q ∈ s₀.trail es, q.TakesOff p)
    (hdone : ∀ d ∈ (s₀.run es).deliveries, d.execution.isFinished = true)
    (hempty : (s₀.run es).shared.broker.ready = []) {calls : List (Moment × JobId)}
    (hcalls : ∀ c ∈ calls, c.1.storeOutage = none ∧ c.1.brokerOutage = none)
    (hmessages : calls.map Prod.snd = s₀.carried) (w : ω) :
    Shared.Agree s₀.shared (s₀.run es).shared (Execution.performEach registry calls s₀.shared w) ∧
      (∀ id, (s₀.trail es).countP (·.moves id .scheduled .running)
        = if s₀.Awaited id then 1 else 0) ∧
      (∀ id, (s₀.trail es).countP (·.startsHandler id)
        = if s₀.Awaited id ∧ p.handles (s₀.record? id) then 1 else 0) ∧
      ∀ id, ¬ s₀.Awaited id → (s₀.run es).record? id = s₀.record? id := by
  have hworks : ∀ q ∈ s₀.trail es, q.Works p := fun q hq => (hes q hq).toWorks
  have hstart : Course p s₀ s₀ := .start hs₀ hfresh
  have hcourse := (hstart.run hworks).1
  have hnone : s₀.executedJobs = [] := by rw [executedJobs, hfresh, List.map_nil]
  -- each message has had its execution
  have hjobs : (s₀.run es).executedJobs = s₀.carried := by
    have hall := executedJobs_run hes
    rw [hnone, carried, hempty] at hall
    simpa using hall
  -- executing one by one is such a run as well
  obtain ⟨fs, hfs, hshared, hserial, hend⟩ :=
    hstart.performEach_run hreg (by simp [hfresh]) hcalls w
  rw [hnone, List.nil_append, hmessages] at hserial
  -- how many executions have started a job
  have hcount : ∀ id, (s₀.trail es).countP (·.moves id .scheduled .running)
      = if s₀.Awaited id then 1 else 0 := by
    intro id
    have hzero : s₀.count id Execution.hasStarted = 0 := by simp [count, hfresh]
    have hafter := hstart.count_run hworks id
    rw [hzero, Nat.zero_add, hcourse.count_eq hdone, hjobs] at hafter
    exact hafter.symm
  refine ⟨?_, hcount, fun id => ?_, fun id hid => ?_⟩
  · rw [← hshared]
    exact hcourse.agree (hstart.run hfs).1 hs₀ hdone hend (hjobs.trans hserial.symm)
  · rw [hstart.countP_startsHandler hworks, hcount]
    by_cases ha : s₀.Awaited id <;> simp [ha]
  · refine hcourse.untouched id ?_
    rw [hcourse.count_eq hdone, hjobs]
    exact if_neg hid

/-- Two jobs wait for executions, and a third one is still pending.  On the ready queue are messages of
all of them, one of them twice, and one of a job that nobody knows. -/
def twoWaiting : Scheduler :=
  let record (n : Nat) (status : JobStatus) : Job :=
    { NewJob.oneShot.record (.ofNat n) ⟨0, 0⟩ with status }
  let message (n : Nat) : String :=
    "[\"00000000-0000-0000-0000-00000000000" ++ toString n ++ "\",\"report\",5,1,null]"
  { shared :=
      { store := ⟨[record 1 .scheduled, record 2 .scheduled, record 3 .pending]⟩
        broker := { ready := [1, 2, 1, 9, 3].map message } } }

/-- Five executors take the messages, and then each takes a step in turn.  The second job fails before
the first. -/
def inTurns : List Event :=
  (List.replicate 5 (Move.take ["report"] Span.zero)).map (Move.at · 0) ++
    ([0, 1, 2, 3, 4, 0, 1, 2].map fun k => (Move.execute k).at 1) ++
    ([1, 0].map fun k => (Move.conclude k (.failed (.failed "no")) Span.zero).at 2) ++
    ([1, 1, 0, 1, 1, 0, 0, 0, 0].map fun k => (Move.execute k).at 3)

/-- The jobs of the messages, one every second. -/
def oneByOne : List (Moment × JobId) :=
  [1, 2, 1, 9, 3].map fun n : Nat => (⟨⟨n, 0⟩, .nil, none, none⟩, .ofNat n)

/-- How the only handler fails. -/
def refusal : HandlerOutcome := .failed (.failed "no")

/-- A handler that always fails. -/
def refusing : HandlerRegistry Unit :=
  HandlerRegistry.empty.register "report" fun _ w => (.ended refusal, w)

/-- What is settled about it beforehand. -/
def refused : Repertoire := ⟨["report"], fun _ _ => refusal⟩

theorem behaves_refusing : refusing.Behaves refused where
  handlers := rfl
  outcome := by
    intro jobType h hfind payload w
    simp only [HandlerRegistry.find?, refusing, HandlerRegistry.register, HandlerRegistry.empty,
      Dictionary.insert, Dictionary.find?] at hfind
    split at hfind
    · obtain rfl := Option.some.inj hfind
      rfl
    · exact absurd hfind (by simp)

theorem takesOff_inTurns : ∀ q ∈ twoWaiting.trail inTurns, q.TakesOff refused := by
  intro q hq
  obtain ⟨-, fs, gs, hes, -⟩ := of_mem_trail hq
  have hmem : q.event ∈ inTurns := hes ▸ List.mem_append_right _ List.mem_cons_self
  obtain ⟨before, e, after⟩ := q
  simp only [inTurns, List.mem_append, List.mem_map, List.mem_replicate] at hmem
  rcases hmem with ((⟨m, ⟨-, rfl⟩, rfl⟩ | ⟨k, -, rfl⟩) | ⟨k, -, rfl⟩) | ⟨k, -, rfl⟩
  · exact ⟨⟨rfl, rfl, rfl⟩, fun _ _ h => nomatch h⟩
  · exact ⟨⟨rfl, rfl, trivial⟩, fun _ _ h => nomatch h⟩
  · exact ⟨⟨rfl, rfl, fun _ _ _ _ => rfl⟩, fun _ _ h => nomatch h⟩
  · exact ⟨⟨rfl, rfl, trivial⟩, fun _ _ h => nomatch h⟩

/-- The two jobs are executed as if one after the other, and nobody touches the third. -/
theorem serial_of_inTurns :
    (∀ q ∈ twoWaiting.trail inTurns, q.TakesOff refused) ∧
      (∀ d ∈ (twoWaiting.run inTurns).deliveries, d.execution.isFinished = true) ∧
      (twoWaiting.run inTurns).shared.broker.ready = [] ∧
      Shared.Agree twoWaiting.shared (twoWaiting.run inTurns).shared
        (Execution.performEach refusing oneByOne twoWaiting.shared ()) ∧
      (twoWaiting.trail inTurns).countP (·.startsHandler (.ofNat 1)) = 1 ∧
      (twoWaiting.run inTurns).status? (.ofNat 3) = some .pending := by
  obtain ⟨hdone, hempty⟩ : (∀ d ∈ (twoWaiting.run inTurns).deliveries, d.execution.isFinished = true) ∧
      (twoWaiting.run inTurns).shared.broker.ready = [] := by
    decide +kernel
  have hmessages : oneByOne.map Prod.snd = twoWaiting.carried := by decide +kernel
  have hdistinct : twoWaiting.shared.store.Distinct := by
    unfold Store.Distinct
    decide
  obtain ⟨hagree, -, hhandlers, hothers⟩ := parallel_eq_serial behaves_refusing hdistinct rfl
    takesOff_inTurns hdone hempty (by decide) hmessages ()
  have hfirst : twoWaiting.Awaited (.ofNat 1) ∧ refused.handles (twoWaiting.record? (.ofNat 1)) := by
    rw [Awaited, ← hmessages]
    decide
  have hthird : ¬ twoWaiting.Awaited (.ofNat 3) := by
    rw [Awaited, ← hmessages]
    decide
  refine ⟨takesOff_inTurns, hdone, hempty, hagree, ?_, ?_⟩
  · rw [hhandlers, if_pos hfirst]
  · rw [status?, hothers _ hthird]
    rfl

end Scheduler

end JobDispatch
