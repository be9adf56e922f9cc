import JobDispatch.Backend
import JobDispatch.Execution.Run
import JobDispatch.Rehearsal.Outage
import JobDispatch.Rehearsal.Scene

/-!
# The stage of a rehearsal

## Main definitions

* `Stage` — the services of one process, the outages to come, and the scene.
* `Stage.services` — the services, with the outages.
-/

namespace JobDispatch

namespace Rehearsal

/-- What a rehearsal plays on. -/
structure Stage where
  backend : Backend := {}
  outages : Outages := []
  scene : Scene := {}

namespace Stage

/-- Performs an operation of the store, unless it fails this time. -/
def onStore {α : Type} (call : StoreCall α) (s : Stage) : Except StoreError α × Stage :=
  match s.outages.consult (storeTarget call) with
  | (some kind, outages) =>
    (.error (kind.storeError (call.subject?.getD JobId.nil)), { s with outages := outages })
  | (none, outages) =>
    let (result, backend) := s.backend.onStore call
    (result, { s with backend := backend, outages := outages })

/-- Performs an operation of the broker, unless it fails this time. -/
def onBroker {α : Type} (call : BrokerCall α) (s : Stage) : Except BrokerError α × Stage :=
  match s.outages.consult (brokerTarget call) with
  | (some kind, outages) => (.error kind.brokerError, { s with outages := outages })
  | (none, outages) =>
    let (result, backend) := s.backend.onBroker call
    (result, { s with backend := backend, outages := outages })

/-- **The services, with the outages.** -/
def services : Services Stage where
  store := onStore
  broker := onBroker
  clock s :=
    let (now, backend) := s.backend.clock
    (now, { s with backend := backend })
  note n s := { s with backend := s.backend.note n }

/-- An operation is going to fail; an earlier plan for it is dropped. -/
def plan (s : Stage) (target : String) (o : Outage) : Stage :=
  { s with outages := Dictionary.insert target o s.outages }

/-- The stage with another broker. -/
def withBroker (s : Stage) (broker : Broker) : Stage :=
  { s with backend := { s.backend with broker := broker } }

/-- The messages on the ready queue. -/
def ready (s : Stage) : List String := s.backend.broker.ready

/-- Puts a text on the ready queue as if it were a message, whatever outages there are. -/
def pushRaw (s : Stage) (message : String) : Stage := s.withBroker (s.backend.broker.pushRaw message)

/-- Takes the first message, whatever outages there are. -/
def popRaw (s : Stage) : Except BrokerError (Option Ticket) × Stage :=
  let (answer, broker) := s.backend.broker.popReady
  (answer, s.withBroker broker)

/-- What all messages on the ready queue carry, whatever outages there are, and the stage without
them. -/
def drain (s : Stage) : List (Except BrokerError Ticket) × Stage :=
  (s.ready.map Ticket.ofMessage, s.withBroker { s.backend.broker with ready := [] })

/-- The clock shows at least the given time from now on. -/
def advance (s : Stage) (t : Timestamp) : Stage := { s with backend := s.backend.advance t }

/-- The time becomes a number of milliseconds. -/
def atMillis (s : Stage) (now : Nat) : Stage :=
  { s with scene := { s.scene with now := now }, backend := s.backend.advance (Timestamp.ofMillis now) }

/-- Executes a job from start to end. -/
def execute (handlers : HandlerRegistry Scene) (id : JobId) (s : Stage) : Execution × Stage :=
  let (x, s', scene) := Execution.perform services handlers id s s.scene
  (x, { s' with scene := scene })

end Stage

end Rehearsal

end JobDispatch
