import JobDispatch.Control.Basic
import JobDispatch.Rehearsal.Stage

/-!
# A scheduler stepped by hand

## Main definitions

* `Bench` — an engine and a control surface on a stage, and the message taken last.
* `Bench.tick`, `Bench.recover`, `Bench.restart` — the engine works, or is replaced.
* `Bench.pop`, `Bench.pushBack`, `Bench.work` — messages are taken, given back and executed.
-/

namespace JobDispatch

namespace Rehearsal

/-- A scheduler stepped by hand. -/
structure Bench where
  stage : Stage
  engine : Engine
  control : Control
  /-- The message taken last. -/
  taken : Option Ticket := none

namespace Bench

/-- A scheduler on an empty stage. -/
def start (registry : PolicyRegistry) (config : EngineConfig) (defaultMaxRetries : UInt16) :
    Except EngineError Bench :=
  match Engine.create registry config with
  | .error e => .error e
  | .ok engine =>
    .ok { stage := {}, engine := engine, control := ⟨registry, config.defaultPolicy, defaultMaxRetries⟩ }

/-- The engine ticks. -/
def tick (b : Bench) : Except EngineError TickReport × Bench :=
  let (result, engine, stage) := b.engine.tick Stage.services b.stage
  (result, { b with engine := engine, stage := stage })

/-- The engine recovers jobs whose messages are lost. -/
def recover (b : Bench) : Except EngineError Nat × Bench :=
  let (result, stage) := Engine.recover Stage.services b.stage
  (result, { b with stage := stage })

/-- A new engine takes the place of the old one, whose queued tickets are forgotten. -/
def restart (b : Bench) (config : EngineConfig) : Except EngineError Unit × Bench :=
  match Engine.create b.engine.registry config with
  | .error e => (.error e, b)
  | .ok engine => (.ok (), { b with engine := engine })

/-- Takes the first message. -/
def pop (b : Bench) : Except BrokerError (Option Ticket) × Bench :=
  let (answer, stage) := Stage.services.broker (.popReady Span.zero) b.stage
  match answer with
  | .ok taken => (.ok taken, { b with stage := stage, taken := taken })
  | .error e => (.error e, { b with stage := stage })

/-- Gives the message taken last back to the ready queue; nothing if none was taken. -/
def pushBack (b : Bench) : Option (Except BrokerError Unit) × Bench :=
  match b.taken with
  | none => (none, b)
  | some ticket =>
    let (answer, stage) := Stage.services.broker (.pushReady ticket) b.stage
    (some answer, { b with stage := stage })

/-- What becomes of a message: it cannot be taken, or it is executed. -/
inductive Work
  | failed (error : BrokerError)
  | executed (id : JobId) (execution : Execution)

/-- Takes and executes up to `count` messages; stops when there are none. -/
def work (handlers : HandlerRegistry Scene) : Nat → Bench → List Work × Bench
  | 0, b => ([], b)
  | count + 1, b =>
    match Stage.services.broker (.popReady Span.zero) b.stage with
    | (.error e, stage) =>
      let (rest, b) := work handlers count { b with stage := stage }
      (.failed e :: rest, b)
    | (.ok none, stage) => ([], { b with stage := stage })
    | (.ok (some ticket), stage) =>
      let (x, stage) := stage.execute handlers ticket.jobId
      let (rest, b) := work handlers count { b with stage := stage, taken := some ticket }
      (.executed ticket.jobId x :: rest, b)

end Bench

end Rehearsal

end JobDispatch
