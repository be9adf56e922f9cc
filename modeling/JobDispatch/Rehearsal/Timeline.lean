import JobDispatch.Control.Basic
import JobDispatch.Engine.Basic
import JobDispatch.Pool.Basic
import JobDispatch.Rehearsal.Stage

/-!
# A scheduler on a virtual clock

The engine and the pool run on a clock that counts milliseconds and moves only when nothing is left to
do: to the next event, tick, end of a sleep or end of a wait.  At each time the events come first, then
handlers whose sleep is over end, then the engine ticks, and then the pool takes messages and begins
their executions until it has to wait.

## Main definitions

* `Flight` — how far an execution in flight has come.
* `Timeline` — the stage, the engine and the pool at a time.
* `Timeline.settle` — everything that can be done without the clock moving on.
* `Timeline.runUntil`, `Timeline.shutDown` — the course of a run, and its end.
* `Timeline.ending` — what is said about the end.
-/

namespace JobDispatch

namespace Rehearsal

/-- How far an execution in flight has come. -/
inductive Flight
  /-- It has not begun. -/
  | fresh (id : JobId)
  /-- Its handler begins next. -/
  | ready (execution : Execution) (job : Job)
  /-- Its handler sleeps until a time. -/
  | asleep (execution : Execution) (run : HandlerRun Scene) (due : Nat)

/-- Whether an execution in flight can go on without the clock moving on. -/
def Flight.canGoOn (now : Nat) : Flight → Bool
  | .asleep _ _ due => decide (due ≤ now)
  | _ => true

/-- A scheduler at a time. -/
structure Timeline where
  stage : Stage
  engine : Engine
  pool : Pool Flight
  /-- When the wait of the dispatcher ends. -/
  alarm : Nat := 0
  /-- How many ticks the engine has made. -/
  ticks : Nat := 0

namespace Timeline

/-- The time in milliseconds. -/
def now (t : Timeline) : Nat := t.stage.scene.now

/-- The time at which a wait ends that begins now. -/
def after (t : Timeline) (wait : Span) : Nat := t.now + wait.ceilMillis

/-! ### The dispatcher -/

/-- The dispatcher takes note of what it waited for; a pause that takes no time is over at once. -/
def receive (t : Timeline) (answer : Except BrokerError (Option Ticket)) : Timeline :=
  let pool := t.pool.receive answer fun ticket => .fresh ticket.jobId
  let backoff := pool.config.errorBackoff
  { t with
    pool := if backoff.ceilMillis = 0 then pool.resume else pool
    alarm := if pool.dispatcher = .pausing then t.after backoff else t.alarm }

/-- One move of the dispatcher, if it can make one. -/
def dispatchStep (t : Timeline) : Option Timeline :=
  match t.pool.dispatcher with
  | .acquiring =>
    let pool := t.pool.acquire ⟨t.now * 1000000⟩
    if pool.dispatcher = .popping then
      let (answer, stage) := Stage.services.broker (.popReady pool.config.popTimeout) t.stage
      let t := { t with pool := pool, stage := stage }
      match answer with
      | .ok none => some { t with alarm := t.after pool.config.popTimeout }
      | answer => some (t.receive answer)
    else if pool.dispatcher = .acquiring then none
    else some { t with pool := pool }
  | .popping =>
    if !t.stage.ready.isEmpty then
      let (answer, stage) := t.stage.popRaw
      some ({ t with stage := stage }.receive answer)
    else if t.alarm ≤ t.now then some (t.receive (.ok none))
    else none
  | .pausing => if t.alarm ≤ t.now then some { t with pool := t.pool.resume } else none
  | .stopped => none
  | .broken => none

/-- Up to `fuel` moves of the dispatcher. -/
def dispatch : Nat → Timeline → Timeline
  | 0, t => t
  | fuel + 1, t =>
    match t.dispatchStep with
    | none => t
    | some t => dispatch fuel t

/-! ### Executions in flight -/

/-- Executions that have not begun are run until their handlers are about to begin; those that end
before that are gone. -/
def beginAll (available : List String) : List Flight → Stage → List Flight × Stage
  | [], s => ([], s)
  | .fresh id :: rest, s =>
    let (x, s) := Execution.settle Stage.services available (.loading id) s
    let (kept, s) := beginAll available rest s
    (match x.work? with
      | some job => .ready x job :: kept
      | none => kept, s)
  | f :: rest, s =>
    let (kept, s) := beginAll available rest s
    (f :: kept, s)

/-- Handlers that are about to begin do so. -/
def handleAll (handlers : HandlerRegistry Scene) : List Flight → Stage → List Flight × Stage
  | [], s => ([], s)
  | .ready x job :: rest, s =>
    match handlers.find? job.jobType with
    | none => handleAll handlers rest s
    | some h =>
      let (run, scene) := h job.payload s.scene
      let (kept, s') := handleAll handlers rest { s with scene := scene }
      (.asleep x run (s.scene.now + run.sleep.ceilMillis) :: kept, s')
  | f :: rest, s =>
    let (kept, s) := handleAll handlers rest s
    (f :: kept, s)

/-- Handlers whose sleep is over end, and their executions with them. -/
def endAll (available : List String) : List Flight → Stage → List Flight × Stage
  | [], s => ([], s)
  | .asleep x run due :: rest, s =>
    if due ≤ s.scene.now then
      let (outcome, scene) := run.finish s.scene
      let (_, s) := Execution.settle Stage.services available (x.resume outcome run.sleep)
        { s with scene := scene }
      endAll available rest s
    else
      let (kept, s) := endAll available rest s
      (.asleep x run due :: kept, s)
  | f :: rest, s =>
    let (kept, s) := endAll available rest s
    (f :: kept, s)

/-- Changes the executions in flight; those that are gone free their slots. -/
def onFlights (t : Timeline) (change : List Flight → Stage → List Flight × Stage) : Timeline :=
  let (kept, stage) := change t.pool.inFlight t.stage
  { t with pool := t.pool.keep kept, stage := stage }

/-- Handlers whose sleep is over end. -/
def endDue (handlers : HandlerRegistry Scene) (t : Timeline) : Timeline :=
  t.onFlights (endAll handlers.jobTypes)

/-- The most moves of the dispatcher without the clock moving on: one for every message and every
failure to come, and those before and after a wait. -/
def patience (t : Timeline) : Nat :=
  t.stage.ready.length + t.stage.outages.timesLeft popTarget + 4

/-- **Everything that the pool can do without the clock moving on**, in at most `fuel` rounds. -/
def settleWithin (handlers : HandlerRegistry Scene) : Nat → Timeline → Timeline
  | 0, t => t
  | fuel + 1, t =>
    let t := dispatch t.patience t
    if t.pool.inFlight.any (Flight.canGoOn t.now) then
      let t := t.onFlights (beginAll handlers.jobTypes)
      let t := t.onFlights (handleAll handlers)
      settleWithin handlers fuel (endDue handlers t)
    else t

/-- Everything that the pool can do without the clock moving on. -/
def settle (handlers : HandlerRegistry Scene) (t : Timeline) : Timeline :=
  settleWithin handlers (t.patience + t.pool.inFlight.length) t

/-! ### Time -/

/-- The clock moves on. -/
def moveTo (t : Timeline) (time : Nat) : Timeline := { t with stage := t.stage.atMillis time }

/-- When the engine ticks next. -/
def nextTick (t : Timeline) : Nat :=
  (⟨t.ticks * t.engine.config.tickInterval.nanos⟩ : Span).ceilMillis

/-- Before its first tick the engine recovers jobs whose messages are lost, if that is wanted. -/
def recoverAtStart (t : Timeline) : Timeline :=
  if t.ticks = 0 ∧ t.engine.config.recoverOnStart then
    { t with stage := (Engine.recover Stage.services t.stage).2 }
  else t

/-- The engine ticks, if it is time; a tick that fails is forgotten. -/
def tickIfDue (t : Timeline) : Timeline :=
  if t.nextTick ≤ t.now then
    let t := t.recoverAtStart
    let (_, engine, stage) := t.engine.tick Stage.services t.stage
    { t with engine := engine, stage := stage, ticks := t.ticks + 1 }
  else t

/-- The earlier of two times. -/
def earlier (a b : Option Nat) : Option Nat :=
  match a, b with
  | some a, some b => some (min a b)
  | some a, none => some a
  | none, b => b

/-- When the next sleep of a handler is over. -/
def nextWake (flights : List Flight) : Option Nat :=
  flights.foldl (fun next f => match f with
    | .asleep _ _ due => earlier next (some due)
    | _ => next) none

/-- When the pool can go on. -/
def nextOfPool (t : Timeline) : Option Nat :=
  let wait := match t.pool.dispatcher with
    | .popping => some t.alarm
    | .pausing => some t.alarm
    | _ => none
  earlier wait (nextWake t.pool.inFlight)

/-- A scheduler at the time zero. -/
def start (engine : Engine) (config : PoolConfig) (stage : Stage) : Timeline :=
  { stage := stage, engine := engine, pool := Pool.start config }

/-! ### The course of a run -/

/-- Events that are due happen, one after another; their answers, and the events still to come. -/
def happen {ε α : Type} (act : ε → Stage → α × Stage) :
    List (Nat × ε) → Stage → List α × List (Nat × ε) × Stage
  | [], s => ([], [], s)
  | (time, e) :: rest, s =>
    if time ≤ s.scene.now then
      let (a, s) := act e s
      let (as, later, s) := happen act rest s
      (a :: as, later, s)
    else ([], (time, e) :: rest, s)

/-- What the scheduler does at one time, after the events. -/
def turn (handlers : HandlerRegistry Scene) (t : Timeline) : Timeline :=
  (tickIfDue (endDue handlers t)).settle handlers

/-- When something happens next, and no later than `horizon`. -/
def nextTime {ε : Type} (t : Timeline) (events : List (Nat × ε)) (horizon : Nat) : Nat :=
  let next := earlier (earlier (events.head?.map Prod.fst) (some t.nextTick)) t.nextOfPool
  min (next.getD horizon) horizon

/-- **A run up to a time**, in at most `fuel` moves of the clock; the answers of its events. -/
def runUntil {ε α : Type} (handlers : HandlerRegistry Scene) (act : ε → Stage → α × Stage)
    (horizon : Nat) : Nat → List (Nat × ε) → Timeline → List α × Timeline
  | 0, _, t => ([], t)
  | fuel + 1, events, t =>
    let (answers, events, stage) := happen act events t.stage
    let t := turn handlers { t with stage := stage }
    let next := t.nextTime events horizon
    if t.now < next then
      let (more, t) := runUntil handlers act horizon fuel events (t.moveTo next)
      (answers ++ more, t)
    else (answers, t)

/-- The rest of a pool that has been stopped, up to a time if one is given, in at most `fuel` moves of
the clock. -/
def runDown (handlers : HandlerRegistry Scene) (limit : Option Nat) : Nat → Timeline → Timeline
  | 0, t => t
  | fuel + 1, t =>
    let t := (endDue handlers t).settle handlers
    match t.nextOfPool with
    | none => t
    | some next =>
      if limit.any (· < next) then t
      else runDown handlers limit fuel (t.moveTo (max next t.now))

/-- **The end of a run.**  The engine makes no more ticks; the pool ends, and executions in flight with
it, within a time if one is given. -/
def shutDown (handlers : HandlerRegistry Scene) (limit : Option Nat) (t : Timeline) : Timeline :=
  let t := { t with pool := t.pool.stop }
  runDown handlers limit (2 * t.pool.inFlight.length + 4) t

/-- How a run has ended that was waited for: a pool that has broken down is noticed only now. -/
def ending (t : Timeline) : Except SchedulerError Unit :=
  if t.pool.dispatcher = .broken then .error .shutdownFailed else .ok ()

end Timeline

end Rehearsal

end JobDispatch
