import JobDispatch.Broker.Basic
import JobDispatch.Broker.ListServer

/-!
# A broker on a server

A broker that keeps its ready queue, its policy and its dead letters on a server of texts and lists,
each under a key of its namespace.  Brokers of different namespaces share a server without touching
each other's keys.

## Main definitions

* `RemoteBroker` — a broker, by its namespace.
* `RemoteBroker.request` — the command that each operation sends.
* `RemoteBroker.answer` — what the reply to it means.
* `RemoteBroker.perform` — what each operation does on a server.
-/

namespace JobDispatch

/-- A broker on a server. -/
structure RemoteBroker where
  /-- What the keys of the broker begin with. -/
  keyspace : String := "jobscheduler"
  deriving DecidableEq

namespace RemoteBroker

/-- The key of the ready queue. -/
def readyKey (b : RemoteBroker) : String := b.keyspace ++ ":ready"

/-- The key of the policy that is wanted. -/
def policyKey (b : RemoteBroker) : String := b.keyspace ++ ":policy"

/-- The key of the dead letters. -/
def deadLetterKey (b : RemoteBroker) : String := b.keyspace ++ ":dead_letter"

/-- How a broker is shown. -/
def shown (b : RemoteBroker) : String :=
  "RedisBroker \x7b namespace: " ++ Text.quote b.keyspace ++ ", .. \x7d"

/-- The command that an operation sends.  A wait of no time at all is no wait: it asks for what is
there. -/
def request (b : RemoteBroker) {α : Type} : BrokerCall α → ListServer.Command
  | .desiredPolicy => .get b.policyKey
  | .setDesiredPolicy name => .set b.policyKey name
  | .pushReady ticket => .pushBack b.readyKey ticket.text
  | .popReady timeout =>
    if timeout.nanos = 0 then .popFront b.readyKey else .popFrontWithin b.readyKey timeout
  | .readyLength => .length b.readyKey
  | .pushDeadLetter letter => .pushBack b.deadLetterKey letter.text
  | .deadLetters => .members b.deadLetterKey
  | .deadLetterCount => .length b.deadLetterKey

/-- The failure of an operation whose reply is not of the expected kind. -/
def unexpected {α : Type} : Except BrokerError α :=
  .error (.unavailable ListServer.wrongKindMessage)

/-- What the reply to an operation means. -/
def answer {α : Type} : BrokerCall α → ListServer.Reply → Except BrokerError α
  | .desiredPolicy, .nothing => .ok none
  | .desiredPolicy, .text name => .ok (some name)
  | .setDesiredPolicy _, .done => .ok ()
  | .pushReady _, .number _ => .ok ()
  | .popReady _, .nothing => .ok none
  | .popReady _, .text message => (Ticket.ofMessage message).map some
  | .popReady _, .keyed _ message => (Ticket.ofMessage message).map some
  | .readyLength, .number n => .ok n
  | .pushDeadLetter _, .number _ => .ok ()
  | .deadLetters, .texts entries => entries.mapM DeadLetter.ofEntry
  | .deadLetterCount, .number n => .ok n
  | _, _ => unexpected

/-- **What each operation does on a server.** -/
def perform (b : RemoteBroker) {α : Type} (call : BrokerCall α) (s : ListServer) :
    Except BrokerError α × ListServer :=
  let (reply, s) := s.run (b.request call)
  (answer call reply, s)

/-- Connects to a server. -/
def connect (keyspace : String) : Endpoint → Except BrokerError (RemoteBroker × ListServer)
  | .unreachable => .error (.unavailable "connection refused")
  | .listening server => .ok (⟨keyspace⟩, server)

end RemoteBroker

end JobDispatch
