import JobDispatch.Job.Written
import JobDispatch.Time.Span

/-!
# The broker

The broker carries what the engine and the pool exchange: the ready queue, a first-in first-out list
of messages; the name of the policy that is wanted; and the list of dead letters, which only grows.
Messages and dead letters are held in their written form, so what cannot be written and read back
shows at the receiving end.

## Main definitions

* `BrokerError` — the ways in which an operation can fail, and what is said about each.
* `BrokerCall` — the operations, each one atomic step, by what they give back.
* `Broker` — a broker within this process.
* `Broker.perform` — what each operation does.
* `Broker.attempt?` — what becomes of it at a given time; a wait may be too long.
-/

namespace JobDispatch

/-- The ways in which an operation on a broker can fail. -/
inductive BrokerError
  /-- A message could not be written. -/
  | encoding
  /-- A message could not be read and has been thrown away. -/
  | decoding (message : String)
  /-- The queues are in a state that cannot be trusted. -/
  | badState
  /-- The broker could not be reached. -/
  | unavailable (reason : String)
  deriving DecidableEq

/-- What is said about a failed operation. -/
def BrokerError.message : BrokerError → String
  | encoding => "Error encoding message"
  | decoding message => "Discarded malformed message " ++ Text.quote message
  | badState => "System in bad state"
  | unavailable reason => "Broker unavailable: " ++ reason

/-- The operations of a broker, by what they give back. -/
inductive BrokerCall : Type → Type
  /-- The name of the policy that is wanted, if one was ever named. -/
  | desiredPolicy : BrokerCall (Option String)
  /-- Names the policy that is wanted. -/
  | setDesiredPolicy (name : String) : BrokerCall Unit
  /-- Puts a message behind all others. -/
  | pushReady (ticket : Ticket) : BrokerCall Unit
  /-- Takes the first message, if one is there or comes within the given time. -/
  | popReady (timeout : Span) : BrokerCall (Option Ticket)
  /-- The number of messages. -/
  | readyLength : BrokerCall Nat
  /-- Adds a dead letter. -/
  | pushDeadLetter (letter : DeadLetter) : BrokerCall Unit
  /-- All dead letters, oldest first. -/
  | deadLetters : BrokerCall (List DeadLetter)
  /-- The number of dead letters. -/
  | deadLetterCount : BrokerCall Nat

/-- Whether the end of an operation that begins at `now` can be told: only a message is waited for. -/
def BrokerCall.hasEnd {α : Type} (now : Span) : BrokerCall α → Bool
  | popReady timeout => Span.hasDeadline now timeout
  | _ => true

/-- The ticket that a message carries. -/
def Ticket.ofMessage [Json.Dialect] (message : String) : Except BrokerError Ticket :=
  match Json.decode? Ticket.read? message with
  | some t => .ok t
  | none => .error (.decoding message)

/-- The dead letter that an entry of the list writes. -/
def DeadLetter.ofEntry (entry : String) : Except BrokerError DeadLetter :=
  match Json.decode? DeadLetter.read? entry with
  | some e => .ok e
  | none => .error (.decoding entry)

/-- A broker within this process. -/
structure Broker where
  /-- The name of the policy that is wanted. -/
  policy : Option String := none
  /-- The written messages, first to be taken first. -/
  ready : List String := []
  /-- The written dead letters, oldest first. -/
  deadLetters : List String := []
  deriving DecidableEq

namespace Broker

/-- A broker without messages. -/
def empty : Broker := {}

/-- Puts a text on the ready queue as if it were a message. -/
def pushRaw (b : Broker) (message : String) : Broker := { b with ready := b.ready ++ [message] }

/-- Takes the first message.  One that cannot be read is thrown away. -/
def popReady [Json.Dialect] (b : Broker) : Except BrokerError (Option Ticket) × Broker :=
  match b.ready with
  | [] => (.ok none, b)
  | message :: rest => ((Ticket.ofMessage message).map some, { b with ready := rest })

/-- **What each operation does**, when nothing else happens while a message is waited for.  The end of the
wait must be one that can be told. -/
def perform [Json.Dialect] {α : Type} (call : BrokerCall α) (b : Broker) : Except BrokerError α × Broker :=
  match call with
  | .desiredPolicy => (.ok b.policy, b)
  | .setDesiredPolicy name => (.ok (), { b with policy := some name })
  | .pushReady ticket => (.ok (), b.pushRaw ticket.text)
  | .popReady _ => b.popReady
  | .readyLength => (.ok b.ready.length, b)
  | .pushDeadLetter letter => (.ok (), { b with deadLetters := b.deadLetters ++ [letter.text] })
  | .deadLetters => (b.deadLetters.mapM DeadLetter.ofEntry, b)
  | .deadLetterCount => (.ok b.deadLetters.length, b)

/-! ### Waiting for a message -/

/-- **What becomes of an operation at a given time.**  The end of a wait is worked out before the queue is
looked at.  If it lies too far in the future nothing is answered, even if a message is there, and the
broker is left as it is. -/
def attempt? [Json.Dialect] {α : Type} (now : Span) (call : BrokerCall α) (b : Broker) :
    Option (Except BrokerError α × Broker) :=
  if call.hasEnd now then some (b.perform call) else none

/-- What comes of waiting for a message, when a ticket is put on the queue a number of milliseconds
after the wait began.  A message that is there already is taken at once; else the new one is, if it
comes by the time that the wait is over. -/
def popWhilePushing [Json.Dialect] (b : Broker) (timeout arrival : Nat) (ticket : Ticket) :
    Except BrokerError (Option Ticket) × Broker :=
  if b.ready.isEmpty && decide (arrival ≤ timeout) then (b.pushRaw ticket.text).popReady
  else
    let (popped, b) := b.popReady
    (popped, b.pushRaw ticket.text)

@[simp] theorem ready_pushRaw (b : Broker) (message : String) :
    (b.pushRaw message).ready = b.ready ++ [message] := rfl

@[simp] theorem perform_pushReady [Json.Dialect] (b : Broker) (t : Ticket) :
    b.perform (.pushReady t) = (.ok (), b.pushRaw t.text) := rfl

@[simp] theorem perform_popReady [Json.Dialect] (b : Broker) (timeout : Span) :
    b.perform (.popReady timeout) = b.popReady := rfl

theorem popReady_nil [Json.Dialect] {b : Broker} (h : b.ready = []) : b.popReady = (.ok none, b) := by
  simp [popReady, h]

theorem popReady_cons [Json.Dialect] {b : Broker} {m : String} {r : List String} (h : b.ready = m :: r) :
    b.popReady = ((Ticket.ofMessage m).map some, { b with ready := r }) := by
  simp [popReady, h]

end Broker

end JobDispatch
