import JobDispatch.Control.Basic
import JobDispatch.Execution.Basic
import JobDispatch.Settings

/-!
# A scheduler at work

Engines, recoveries, executions and cancellations share one store and one broker.  Each of them goes
its own way, one use of a shared service at a time, and between two such steps any of the others may
take one.  A run is any sequence of such steps; nothing is assumed about their order, about the number
of parties, or about what a handler makes of a job.

Every step happens at a moment, which says what the clock shows, which id a new job gets, and whether
the store or the broker can be reached.  A service that cannot be reached is left as it was.

## Main definitions

* `Moment.services` — the shared services at a moment.
* `Delivery` — an execution on its way, with the job that it was given.
* `Cancellation` — how far a cancellation has come.
* `Scheduler` — all parties with what they share.
* `Move`, `Scheduler.step` — what can happen next, and what it does.
* `Scheduler.run`, `Scheduler.trail` — the state after a sequence of steps, and each of them.
* `Scheduler.claimedOnce`, `Scheduler.startedOnce` — a short run, up to the start of its one job.

## Main results

* `Cancellation.step_step` — the two steps of a cancellation are `Control.cancel`.
* `Scheduler.run_induction`, `Scheduler.trail_induction` — what every step keeps holds along every run.
* `Scheduler.eq_add_countP_trail` — what grows in certain steps of a run counts them.
-/

namespace JobDispatch

/-! ### What is shared -/

/-- What all parties share. -/
structure Shared where
  store : Store := {}
  broker : Broker := {}

/-- The circumstances of one step. -/
structure Moment where
  /-- What the clock shows. -/
  now : Timestamp
  /-- The id that a new job gets. -/
  fresh : JobId
  /-- Why the store cannot be reached, if it cannot. -/
  storeOutage : Option String := none
  /-- Why the broker cannot be reached, if it cannot. -/
  brokerOutage : Option String := none

namespace Moment

/-- Performs an operation of the store, if it can be reached. -/
def onStore {α : Type} (m : Moment) (call : StoreCall α) (s : Shared) : Except StoreError α × Shared :=
  match m.storeOutage with
  | some reason => (.error (.unavailable reason), s)
  | none =>
    ((s.store.perform m.now m.fresh call).1, { s with store := (s.store.perform m.now m.fresh call).2 })

/-- Performs an operation of the broker, if it can be reached. -/
def onBroker {α : Type} (m : Moment) (call : BrokerCall α) (s : Shared) :
    Except BrokerError α × Shared :=
  match m.brokerOutage with
  | some reason => (.error (.unavailable reason), s)
  | none => ((s.broker.perform call).1, { s with broker := (s.broker.perform call).2 })

/-- **The shared services at a moment.** -/
def services (m : Moment) : Services Shared where
  store := m.onStore
  broker := m.onBroker
  clock := fun s => (m.now, s)
  note := fun _ s => s

variable {m : Moment}

@[simp] theorem services_note (n : Notice) (s : Shared) : m.services.note n s = s := rfl

@[simp] theorem services_clock (s : Shared) : m.services.clock s = (m.now, s) := rfl

/-- A store that can be reached performs the operation. -/
theorem services_store (h : m.storeOutage = none) {α : Type} (call : StoreCall α) (s : Shared) :
    m.services.store call s = ((s.store.perform m.now m.fresh call).1,
      { s with store := (s.store.perform m.now m.fresh call).2 }) := by
  simp only [services, onStore, h]

/-- A broker that can be reached performs the operation. -/
theorem services_broker (h : m.brokerOutage = none) {α : Type} (call : BrokerCall α) (s : Shared) :
    m.services.broker call s
      = ((s.broker.perform call).1, { s with broker := (s.broker.perform call).2 }) := by
  simp only [services, onBroker, h]

/-- A broker that cannot be reached says so and is left as it was. -/
theorem services_broker_outage {reason : String} (h : m.brokerOutage = some reason) {α : Type}
    (call : BrokerCall α) (s : Shared) :
    m.services.broker call s = (.error (.unavailable reason), s) := by
  simp only [services, onBroker, h]

/-- No operation of the store touches the broker. -/
@[simp] theorem services_store_broker {α : Type} (call : StoreCall α) (s : Shared) :
    (m.services.store call s).2.broker = s.broker := by
  simp only [services, onStore]
  split <;> rfl

/-- No operation of the broker touches the store. -/
@[simp] theorem services_broker_store {α : Type} (call : BrokerCall α) (s : Shared) :
    (m.services.broker call s).2.store = s.store := by
  simp only [services, onBroker]
  split <;> rfl

end Moment

/-! ### The parties -/

/-- An engine that ticks again and again, with how far its tick has come. -/
structure EngineLoop where
  engine : Engine
  phase : TickPhase

/-- The next step: of the tick, or into a new one. -/
def EngineLoop.step {σ : Type} (v : Services σ) (l : EngineLoop) (s : σ) : EngineLoop × σ :=
  match l.phase with
  | .finished _ => ({ l with phase := .reconciling }, s)
  | p => (⟨(l.engine.step v p s).1.1, (l.engine.step v p s).1.2⟩, (l.engine.step v p s).2)

/-- An execution on its way. -/
structure Delivery where
  /-- The job that the execution was given. -/
  job : JobId
  /-- The job types that its executor has a handler for. -/
  handlers : List String
  execution : Execution

/-- The same execution, farther on. -/
def Delivery.advanced (d : Delivery) (x : Execution) : Delivery := { d with execution := x }

@[simp] theorem Delivery.job_advanced (d : Delivery) (x : Execution) : (d.advanced x).job = d.job := rfl

@[simp] theorem Delivery.execution_advanced (d : Delivery) (x : Execution) :
    (d.advanced x).execution = x := rfl

/-- How far a cancellation has come. -/
inductive Cancellation
  /-- The job is cancelled next. -/
  | requesting (id : JobId)
  /-- Its record is loaded next. -/
  | reading (id : JobId)
  /-- Nothing is left to do. -/
  | finished (id : JobId) (result : Except SchedulerError Job)

/-- The next step. -/
def Cancellation.step {σ : Type} (v : Services σ) (c : Cancellation) (s : σ) : Cancellation × σ :=
  match c with
  | requesting id =>
    match Control.onStore v (.cancel id) s with
    | (.error e, s) => (finished id (.error e), s)
    | (.ok _, s) => (reading id, s)
  | reading id => (finished id (Control.found id (Control.get v id s).1), (Control.get v id s).2)
  | finished id result => (finished id result, s)

/-- Whether nothing is left to do. -/
def Cancellation.isFinished : Cancellation → Bool
  | finished .. => true
  | _ => false

/-- **The two steps of a cancellation are** `Control.cancel`. -/
theorem Cancellation.step_step {σ : Type} (v : Services σ) (id : JobId) (s : σ) :
    ((requesting id).step v s).1.step v ((requesting id).step v s).2
      = (finished id (Control.cancel v id s).1, (Control.cancel v id s).2) := by
  simp only [step, Control.cancel]
  cases h : Control.onStore v (.cancel id) s with
  | mk result s' => cases result <;> rfl

/-! ### All together -/

/-- **All parties with what they share.** -/
structure Scheduler where
  shared : Shared := {}
  engines : List EngineLoop := []
  recoveries : List Recovery := []
  /-- The executions, in the order in which they began; one that has ended stays in its place. -/
  deliveries : List Delivery := []
  cancellations : List Cancellation := []
  /-- The messages that could not be read and were thrown away. -/
  discarded : List String := []

/-- What can happen next.  A party is named by its place among its like. -/
inductive Move
  /-- A job is submitted. -/
  | submit (new : NewJob)
  /-- A policy is wanted. -/
  | wish (name : String)
  /-- A text is put on the ready queue as if it were a message. -/
  | inject (message : String)
  /-- An engine takes its next step. -/
  | tick (engine : Nat)
  /-- A recovery begins. -/
  | recover
  /-- A recovery takes its next step. -/
  | proceed (recovery : Nat)
  /-- An executor with some handlers takes the first message. -/
  | take (handlers : List String) (timeout : Span)
  /-- An executor with some handlers is given a ticket by hand. -/
  | hand (handlers : List String) (ticket : Ticket)
  /-- An execution takes its next step. -/
  | execute (delivery : Nat)
  /-- The handler of an execution ends. -/
  | conclude (delivery : Nat) (outcome : HandlerOutcome) (elapsed : Span)
  /-- A cancellation begins. -/
  | cancel (id : JobId)
  /-- A cancellation takes its next step. -/
  | pursue (cancellation : Nat)

/-- A move and the moment at which it is made. -/
structure Event where
  moment : Moment
  move : Move

/-- The store can be reached. -/
def Event.StoreAnswers (e : Event) : Prop := e.moment.storeOutage = none

/-- The broker can be reached. -/
def Event.BrokerAnswers (e : Event) : Prop := e.moment.brokerOutage = none

instance (e : Event) : Decidable e.StoreAnswers := inferInstanceAs (Decidable (_ = _))

instance (e : Event) : Decidable e.BrokerAnswers := inferInstanceAs (Decidable (_ = _))

namespace Scheduler

/-- Nothing is stored, nothing sent; the engines are about to begin their first tick. -/
def start (engines : List Engine) : Scheduler :=
  { engines := engines.map fun e => ⟨e, .reconciling⟩ }

/-- A job is submitted.  The source of ids never gives out one that is in use. -/
def submit (s : Scheduler) (m : Moment) (new : NewJob) : Scheduler :=
  if (s.shared.store.find? m.fresh).isSome then s
  else { s with shared := (Control.submit m.services new s.shared).2 }

/-- An engine takes its next step. -/
def tick (s : Scheduler) (m : Moment) (i : Nat) : Scheduler :=
  match s.engines[i]? with
  | none => s
  | some l =>
    let next := l.step m.services s.shared
    { s with engines := s.engines.set i next.1, shared := next.2 }

/-- A recovery takes its next step. -/
def proceed (s : Scheduler) (m : Moment) (i : Nat) : Scheduler :=
  match s.recoveries[i]? with
  | none => s
  | some r =>
    let next := r.step m.services s.shared
    { s with recoveries := s.recoveries.set i next.1, shared := next.2 }

/-- An executor begins to execute the job of a ticket. -/
def hand (s : Scheduler) (handlers : List String) (ticket : Ticket) : Scheduler :=
  { s with deliveries := s.deliveries ++ [⟨ticket.jobId, handlers, .loading ticket.jobId⟩] }

/-- What becomes of an answer to taking a message. -/
def receive (s : Scheduler) (handlers : List String) :
    Except BrokerError (Option Ticket) → Scheduler
  | .ok (some ticket) => s.hand handlers ticket
  | .ok none => s
  | .error (.decoding message) => { s with discarded := s.discarded ++ [message] }
  | .error _ => s

/-- An executor takes the first message. -/
def take (s : Scheduler) (m : Moment) (handlers : List String) (timeout : Span) : Scheduler :=
  let next := m.services.broker (.popReady timeout) s.shared
  { s with shared := next.2 }.receive handlers next.1

/-- An execution takes its next step. -/
def execute (s : Scheduler) (m : Moment) (k : Nat) : Scheduler :=
  match s.deliveries[k]? with
  | none => s
  | some d =>
    let next := d.execution.step m.services d.handlers s.shared
    { s with deliveries := s.deliveries.set k (d.advanced next.1), shared := next.2 }

/-- The handler of an execution ends. -/
def conclude (s : Scheduler) (k : Nat) (outcome : HandlerOutcome) (elapsed : Span) : Scheduler :=
  match s.deliveries[k]? with
  | none => s
  | some d =>
    { s with deliveries := s.deliveries.set k (d.advanced (d.execution.resume outcome elapsed)) }

/-- A cancellation takes its next step. -/
def pursue (s : Scheduler) (m : Moment) (i : Nat) : Scheduler :=
  match s.cancellations[i]? with
  | none => s
  | some c =>
    let next := c.step m.services s.shared
    { s with cancellations := s.cancellations.set i next.1, shared := next.2 }

/-- **What a move does.** -/
def step (s : Scheduler) (e : Event) : Scheduler :=
  match e.move with
  | .submit new => s.submit e.moment new
  | .wish name => { s with shared := (e.moment.services.broker (.setDesiredPolicy name) s.shared).2 }
  | .inject message =>
    { s with shared := { s.shared with broker := s.shared.broker.pushRaw message } }
  | .tick i => s.tick e.moment i
  | .recover => { s with recoveries := s.recoveries ++ [.checking] }
  | .proceed i => s.proceed e.moment i
  | .take handlers timeout => s.take e.moment handlers timeout
  | .hand handlers ticket => s.hand handlers ticket
  | .execute k => s.execute e.moment k
  | .conclude k outcome elapsed => s.conclude k outcome elapsed
  | .cancel id => { s with cancellations := s.cancellations ++ [.requesting id] }
  | .pursue i => s.pursue e.moment i

/-! ### Runs -/

/-- **The state after a sequence of steps.** -/
def run (s : Scheduler) (es : List Event) : Scheduler := es.foldl step s

@[simp] theorem run_nil (s : Scheduler) : s.run [] = s := rfl

@[simp] theorem run_cons (s : Scheduler) (e : Event) (es : List Event) :
    s.run (e :: es) = (s.step e).run es := rfl

theorem run_append (s : Scheduler) (es fs : List Event) : s.run (es ++ fs) = (s.run es).run fs :=
  List.foldl_append

/-- What every step keeps holds along every run. -/
theorem run_induction {P : Scheduler → Prop} {Q : Event → Prop} {s : Scheduler} {es : List Event}
    (hs : P s) (hq : ∀ e ∈ es, Q e) (hstep : ∀ s e, Q e → P s → P (s.step e)) : P (s.run es) := by
  -- a run begins with its first step, so the state must stay general
  induction es generalizing s with
  | nil => exact hs
  | cons e es ih =>
    have he : Q e := hq e List.mem_cons_self
    exact ih (hstep s e he hs) fun f hf => hq f (List.mem_cons_of_mem e hf)

end Scheduler

/-- One step of a run. -/
structure Step where
  before : Scheduler
  event : Event
  after : Scheduler

namespace Scheduler

/-- **The steps of a run**, in their order. -/
def trail (s : Scheduler) : List Event → List Step
  | [] => []
  | e :: es => ⟨s, e, s.step e⟩ :: (s.step e).trail es

/-- A step of a run comes after some of its events and before the others. -/
theorem of_mem_trail {s : Scheduler} {es : List Event} {p : Step} (h : p ∈ s.trail es) :
    p.after = p.before.step p.event ∧
      ∃ fs gs, es = fs ++ p.event :: gs ∧ p.before = s.run fs := by
  induction es generalizing s with
  | nil => exact absurd h List.not_mem_nil
  | cons e es ih =>
    rcases List.mem_cons.mp h with rfl | h
    · exact ⟨rfl, [], es, rfl, rfl⟩
    · obtain ⟨hafter, fs, gs, hes, hbefore⟩ := ih h
      exact ⟨hafter, e :: fs, gs, by rw [hes]; rfl, hbefore⟩

/-- What the steps of a run keep holds before each of them and in the end. -/
theorem trail_induction {P : Scheduler → Prop} {Q : Step → Prop} {s : Scheduler} {es : List Event}
    (hs : P s) (hq : ∀ p ∈ s.trail es, Q p)
    (hstep : ∀ s e, P s → Q ⟨s, e, s.step e⟩ → P (s.step e)) :
    P (s.run es) ∧ ∀ p ∈ s.trail es, P p.before := by
  -- a run begins with its first step, so the state must stay general
  induction es generalizing s with
  | nil => exact ⟨hs, fun p hp => absurd hp List.not_mem_nil⟩
  | cons e es ih =>
    have hfirst : Q ⟨s, e, s.step e⟩ := hq _ List.mem_cons_self
    obtain ⟨hrun, htrail⟩ := ih (hstep s e hs hfirst) fun p hp => hq p (List.mem_cons_of_mem _ hp)
    refine ⟨hrun, fun p hp => ?_⟩
    rcases List.mem_cons.mp hp with rfl | hp
    · exact hs
    · exact htrail p hp

/-- What grows by one in certain steps of a run, and in no other, counts them. -/
theorem eq_add_countP_trail {f : Scheduler → Nat} {q : Step → Bool} {s : Scheduler} {es : List Event}
    (h : ∀ p ∈ s.trail es, f p.after = f p.before + (q p).toNat) :
    f (s.run es) = f s + (s.trail es).countP q := by
  induction es generalizing s with
  | nil => rfl
  | cons e es ih =>
    have hfirst := h _ List.mem_cons_self
    have hrest := ih fun p hp => h p (List.mem_cons_of_mem _ hp)
    rw [run_cons, hrest, hfirst, trail, List.countP_cons]
    cases q ⟨s, e, s.step e⟩ <;> simp only [Bool.toNat_true, Bool.toNat_false, if_true, if_false,
      Bool.false_eq_true] <;> omega

/-! ### What can be seen -/

/-- The record of a job. -/
def record? (s : Scheduler) (id : JobId) : Option Job := s.shared.store.find? id

/-- The state of a job. -/
def status? (s : Scheduler) (id : JobId) : Option JobStatus := (s.record? id).map Job.status

/-- How many executions of a job are at a certain point. -/
def count (s : Scheduler) (id : JobId) (p : Execution → Bool) : Nat :=
  s.deliveries.countP fun d => decide (d.job = id) && p d.execution

end Scheduler

namespace Execution

/-- Whether the handler works. -/
def isWorking : Execution → Bool
  | working _ => true
  | _ => false

/-- Whether an execution has started its job and not yet recorded how the attempt ended. -/
def holds : Execution → Bool
  | working _ => true
  | completing .. => true
  | recovering _ (.loading ..) => true
  | recovering _ (.givingBack ..) => true
  | recovering _ (.exhausting ..) => true
  | _ => false

/-- Whether a dead letter is still to be sent. -/
def isBurying : Execution → Bool
  | recovering _ (.burying ..) => true
  | _ => false

/-- Whether a failed attempt has been recorded. -/
def hasFailed : Execution → Bool
  | recovering _ (.burying ..) => true
  | finished (.failed ..) => true
  | _ => false

/-- Whether a result has been stored. -/
def hasSucceeded : Execution → Bool
  | finished (.completed _) => true
  | _ => false

/-- Whether nothing is left to do. -/
def isFinished : Execution → Bool
  | finished _ => true
  | _ => false

end Execution

namespace Step

/-- A step is determined by the state before it and by what happens. -/
theorem eq_mk (p : Step) (h : p.after = p.before.step p.event) :
    p = ⟨p.before, p.event, p.before.step p.event⟩ := by
  rw [← h]

/-- Whether a job goes from one state to another. -/
def moves (p : Step) (id : JobId) (a b : JobStatus) : Bool :=
  decide (p.before.status? id = some a ∧ p.after.status? id = some b)

/-- Whether a handler begins to work on a job: one more works on it than before. -/
def startsHandler (p : Step) (id : JobId) : Bool :=
  decide (p.before.count id Execution.isWorking < p.after.count id Execution.isWorking)

end Step

/-! ### A short run -/

/-- A move at a second at which the store and the broker answer. -/
def Move.at (m : Move) (second : Nat) : Event := ⟨⟨⟨second, 0⟩, .nil, none, none⟩, m⟩

/-- An engine with the standard settings, which takes jobs in the order in which it claims them. -/
def Engine.firstComeFirstServed : Engine :=
  ⟨.empty, Settings.engineConfig {}, .ofKind .fcfs, "fcfs", none⟩

/-- A job without a second attempt. -/
def NewJob.oneShot : NewJob := { name := "once", jobType := "report", maxRetries := 0 }

namespace Scheduler

/-- A job is submitted, and an engine claims it. -/
def claimedOnce : List Event := [(Move.submit .oneShot).at 0, (Move.tick 0).at 1, (Move.tick 0).at 2]

/-- An executor with some handlers is given the job and starts it. -/
def startedOnce (handlers : List String) : List Event :=
  claimedOnce ++ [(Move.hand handlers ⟨.nil, "report", 5, Double.one, .object []⟩).at 3,
    (Move.execute 0).at 4, (Move.execute 0).at 5]

end Scheduler

end JobDispatch
