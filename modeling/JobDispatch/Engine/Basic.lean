import JobDispatch.Engine.Config
import JobDispatch.Services

/-!
# The engine

The engine moves jobs from the store to the ready queue, tick by tick.  A tick has three parts: if
another policy is wanted, a fresh one takes over all queued tickets; then the oldest pending jobs are
claimed and queued; then every queued ticket is sent, in the order of the policy.  A ticket leaves the
policy only when its message has been sent, so nothing is lost when sending fails.  Each step uses the
shared services once.  The engine works with any policies and any factories of them.

## Main definitions

* `Engine` — the active policy and what it holds.
* `EngineError` — the ways in which a tick can fail, and what is said about each.
* `TickPhase` — how far a tick has come; `Engine.step` is its next step and `Engine.tick` all of them.
* `Recovery` — the way in which jobs whose messages are lost become pending again.

## Main results

* `Engine.step_decreases` — a tick comes to its end.
* `Engine.step_dispatching_of_dequeue?` — how the next ticket is sent.
-/

namespace JobDispatch

/-- The ways in which the engine can fail. -/
inductive EngineError
  | store (error : StoreError)
  | broker (error : BrokerError)
  | policy (error : InvalidPolicy)
  deriving DecidableEq

/-- What is said about a failure of the engine. -/
def EngineError.message : EngineError → String
  | store error => error.message
  | broker error => error.message
  | policy error => error.message

/-- How many jobs a tick has claimed and how many messages it has sent. -/
structure TickReport where
  ingested : Nat
  dispatched : Nat
  deriving DecidableEq

/-- The engine, with factories of type `φ`, which keep a `μ` in mind, and a policy of type `π`; the
built-in ones unless others are named. -/
structure Engine (φ : Type := PolicyKind) (π : Type := Policy) (μ : Type := Unit) where
  registry : PolicyRegistry φ μ
  config : EngineConfig
  /-- The running policy. -/
  policy : π
  /-- The name that the running policy was created by. -/
  active : String
  /-- The last wanted name that stood for nothing. -/
  rejected : Option String

/-- How far a tick has come. -/
inductive TickPhase
  /-- The wanted policy is read next. -/
  | reconciling
  /-- Jobs are claimed next. -/
  | ingesting
  /-- The next ticket is sent next. -/
  | dispatching (ingested dispatched : Nat)
  /-- Nothing is left to do. -/
  | finished (result : Except EngineError TickReport)

namespace Engine

variable {φ π μ σ : Type} [PolicyFactory φ π μ] [SchedulingPolicy π]

/-- An engine that runs its default policy. -/
def create (registry : PolicyRegistry φ μ) (config : EngineConfig) : Except EngineError (Engine φ π μ) :=
  match registry.create config.defaultPolicy with
  | .ok (policy, registry) => .ok ⟨registry, config, policy, config.defaultPolicy, none⟩
  | .error e => .error (.policy e)

/-- How many jobs are claimed and not yet sent. -/
def queued (e : Engine φ π μ) : Nat := SchedulingPolicy.size e.policy

/-- How an engine is shown, from its active policy on. -/
def shownState (e : Engine φ π μ) : String :=
  ", active: " ++ Text.quote e.active ++ ", policy: " ++ SchedulingPolicy.shown e.policy ++ ", .. \x7d"

/-- The engine after the wanted policy has been read, and what to give notice of.  Of a name that
stands for nothing notice is given once. -/
def follow (e : Engine φ π μ) (desired : Option String) : Engine φ π μ × Option Notice :=
  match desired with
  | none => (e, none)
  | some name =>
    if name = e.active then ({ e with rejected := none }, none)
    else
      match e.registry.create name with
      | .ok (fresh, registry) =>
        ({ e with
            registry := registry
            policy := (SchedulingPolicy.drainInto e.policy fresh).target
            active := name
            rejected := none },
          none)
      | .error problem =>
        if e.rejected = some name then (e, none)
        else ({ e with rejected := some name }, some (.policyIgnored problem))

/-- The engine after jobs have been claimed. -/
def ingest (e : Engine φ π μ) (claimed : List Job) : Engine φ π μ :=
  { e with policy := SchedulingPolicy.enqueueAll e.policy (claimed.map Job.ticket) }

/-- **The next step of a tick.**  The next ticket is looked at, and taken once its message has been
sent. -/
def step (v : Services σ) (e : Engine φ π μ) (p : TickPhase) (s : σ) : (Engine φ π μ × TickPhase) × σ :=
  match p with
  | .reconciling =>
    match v.broker .desiredPolicy s with
    | (.error problem, s) => ((e, .finished (.error (.broker problem))), s)
    | (.ok desired, s) =>
      match e.follow desired with
      | (e, some notice) => ((e, .ingesting), v.note notice s)
      | (e, none) => ((e, .ingesting), s)
  | .ingesting =>
    match v.store (.claimPending e.config.batchSize) s with
    | (.error problem, s) => ((e, .finished (.error (.store problem))), s)
    | (.ok claimed, s) => ((e.ingest claimed, .dispatching claimed.length 0), s)
  | .dispatching ingested dispatched =>
    match SchedulingPolicy.peek? e.policy with
    | none => ((e, .finished (.ok ⟨ingested, dispatched⟩)), s)
    | some ticket =>
      match v.broker (.pushReady ticket) s with
      | (.error problem, s) => ((e, .finished (.error (.broker problem))), s)
      | (.ok _, s) =>
        (({ e with policy := SchedulingPolicy.withoutNext e.policy },
          .dispatching ingested (dispatched + 1)), s)
  | .finished result => ((e, .finished result), s)

end Engine

namespace TickPhase

/-- The part of a tick, counted from its end. -/
def rank : TickPhase → Nat
  | reconciling => 3
  | ingesting => 2
  | dispatching .. => 1
  | finished _ => 0

/-- The result of a tick that has come to its end. -/
def result? : TickPhase → Option (Except EngineError TickReport)
  | finished result => some result
  | _ => none

end TickPhase

namespace Engine

variable {φ π μ σ : Type} [PolicyFactory φ π μ] [SchedulingPolicy π]

/-- Every step brings a tick closer to its end: it ends a part or sends a ticket. -/
theorem step_decreases (v : Services σ) (e : Engine φ π μ) {p : TickPhase} (h : p.result? = none) (s : σ) :
    Prod.Lex (· < ·) (· < ·)
      ((step v e p s).1.2.rank, SchedulingPolicy.size (step v e p s).1.1.policy)
      (p.rank, SchedulingPolicy.size e.policy) := by
  cases p with
  | reconciling =>
    apply Prod.Lex.left
    simp only [step]
    repeat' split
    all_goals simp [TickPhase.rank]
  | ingesting =>
    apply Prod.Lex.left
    simp only [step]
    split <;> simp [TickPhase.rank]
  | dispatching ingested dispatched =>
    simp only [step]
    split
    · apply Prod.Lex.left
      simp [TickPhase.rank]
    · next hnext =>
      split
      · apply Prod.Lex.left
        simp [TickPhase.rank]
      · exact Prod.Lex.right _
          (SchedulingPolicy.size_lt_of_dequeue? (SchedulingPolicy.dequeue?_of_peek? hnext))
  | finished result => simp [TickPhase.result?] at h

/-- All steps of a tick that are left, one after another. -/
def finish (v : Services σ) (e : Engine φ π μ) (p : TickPhase) (s : σ) :
    Except EngineError TickReport × Engine φ π μ × σ :=
  match _h : p.result? with
  | some result => (result, e, s)
  | none =>
    let next := step v e p s
    finish v next.1.1 next.1.2 next.2
termination_by (p.rank, SchedulingPolicy.size e.policy)
decreasing_by exact step_decreases v e _h s

/-- **A tick**, all its steps one after another.  The engine keeps what it has done before a step
that fails. -/
def tick (v : Services σ) (e : Engine φ π μ) (s : σ) : Except EngineError TickReport × Engine φ π μ × σ :=
  finish v e .reconciling s

/-- With no next ticket the sending is over. -/
theorem step_dispatching_of_dequeue?_eq_none {e : Engine φ π μ}
    (h : SchedulingPolicy.dequeue? e.policy = none) (v : Services σ) (ingested dispatched : Nat) (s : σ) :
    e.step v (.dispatching ingested dispatched) s = ((e, .finished (.ok ⟨ingested, dispatched⟩)), s) := by
  simp only [step, SchedulingPolicy.peek?_of_dequeue?_eq_none h]

/-- The next ticket leaves the policy if its message is sent. -/
theorem step_dispatching_of_dequeue? {e : Engine φ π μ} {ticket : Ticket} {rest : π}
    (h : SchedulingPolicy.dequeue? e.policy = some (ticket, rest)) (v : Services σ)
    (ingested dispatched : Nat) (s : σ) : e.step v (.dispatching ingested dispatched) s =
      match v.broker (.pushReady ticket) s with
      | (.error problem, s) => ((e, .finished (.error (.broker problem))), s)
      | (.ok _, s) => (({ e with policy := rest }, .dispatching ingested (dispatched + 1)), s) := by
  simp only [step, SchedulingPolicy.peek?_of_dequeue? h, SchedulingPolicy.withoutNext_of_dequeue? h]

end Engine

/-! ### Recovery -/

/-- How far a recovery has come. -/
inductive Recovery
  /-- The ready queue is looked at next. -/
  | checking
  /-- Scheduled jobs become pending next. -/
  | resetting
  /-- Nothing is left to do. -/
  | finished (result : Except EngineError Nat)

namespace Recovery

variable {σ : Type}

/-- **The next step.**  While there are messages nothing is reset. -/
def step (v : Services σ) (p : Recovery) (s : σ) : Recovery × σ :=
  match p with
  | checking =>
    match v.broker .readyLength s with
    | (.error problem, s) => (finished (.error (.broker problem)), s)
    | (.ok n, s) => (if 0 < n then finished (.ok 0) else resetting, s)
  | resetting =>
    match v.store .resetScheduled s with
    | (.error problem, s) => (finished (.error (.store problem)), s)
    | (.ok n, s) => (finished (.ok n), s)
  | finished result => (finished result, s)

/-- How many steps are left at most. -/
def remaining : Recovery → Nat
  | checking => 2
  | resetting => 1
  | finished _ => 0

/-- The result of a recovery that has come to its end. -/
def result? : Recovery → Option (Except EngineError Nat)
  | finished result => some result
  | _ => none

theorem remaining_step_lt (v : Services σ) {p : Recovery} (h : p.result? = none) (s : σ) :
    (p.step v s).1.remaining < p.remaining := by
  cases p with
  | checking =>
    simp only [step]
    repeat' split
    all_goals simp [remaining]
  | resetting => simp only [step]; split <;> simp [remaining]
  | finished r => simp [result?] at h

/-- All steps that are left, one after another. -/
def run (v : Services σ) (p : Recovery) (s : σ) : Except EngineError Nat × σ :=
  match _h : p.result? with
  | some result => (result, s)
  | none =>
    let next := p.step v s
    run v next.1 next.2
termination_by p.remaining
decreasing_by exact remaining_step_lt v _h s

end Recovery

/-- Jobs that are scheduled become pending again if there are no messages; their number. -/
def Engine.recover {σ : Type} (v : Services σ) (s : σ) : Except EngineError Nat × σ :=
  Recovery.run v .checking s

end JobDispatch
