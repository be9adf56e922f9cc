import JobDispatch.Services

/-!
# Outages

In a rehearsal the services can be told to fail: a named operation works a number of times and then
fails a number of times, without doing anything.

## Main definitions

* `Outage` — how an operation is going to fail.
* `Outages.consult` — whether it fails this time.
-/

namespace JobDispatch

namespace Rehearsal

/-- In which way an operation fails. -/
inductive OutageKind
  | unavailable
  | badState
  | notScheduled
  | notFound
  /-- A record could not be written or read. -/
  | recordEncoding
  /-- A message could not be written. -/
  | messageEncoding
  deriving DecidableEq

/-- The kind with a name; anything that is no name means that nothing can be reached. -/
def OutageKind.named : String → OutageKind
  | "bad_state" => badState
  | "not_scheduled" => notScheduled
  | "not_found" => notFound
  | "encode_decode" => recordEncoding
  | "encode" => messageEncoding
  | _ => unavailable

/-- The reason given for an outage. -/
def outageReason : String := "injected"

/-- The failure of an operation on a store about a job; a kind that only brokers know means that the
store cannot be reached. -/
def OutageKind.storeError (subject : JobId) : OutageKind → StoreError
  | badState => .badState
  | notScheduled => .notScheduled subject
  | notFound => .jobNotFound subject
  | recordEncoding => .encoding
  | _ => .unavailable outageReason

/-- The failure of an operation on a broker; a kind that only stores know means that the broker cannot
be reached. -/
def OutageKind.brokerError : OutageKind → BrokerError
  | badState => .badState
  | messageEncoding => .encoding
  | _ => .unavailable outageReason

/-- How an operation is going to fail. -/
structure Outage where
  kind : OutageKind
  /-- How many times it still works. -/
  after : Nat := 0
  /-- How many times it then fails. -/
  times : Nat := 1

/-- The name of an operation on a store. -/
def storeTarget {α : Type} : StoreCall α → String
  | .insert _ => "store.insert"
  | .load _ => "store.load"
  | .claimPending _ => "store.claim_pending"
  | .start _ => "store.mark_job_running"
  | .complete .. => "store.mark_job_complete"
  | .giveBack .. => "store.mark_job_retryable"
  | .exhaust .. => "store.mark_job_failed"
  | .cancel _ => "store.cancel_job"
  | .resetScheduled => "store.reset_scheduled"
  | .query _ => "store.query"
  | .stats => "store.stats"

/-- The name of taking a message. -/
def popTarget : String := "broker.pop_ready"

/-- The name of an operation on a broker. -/
def brokerTarget {α : Type} : BrokerCall α → String
  | .desiredPolicy => "broker.desired_policy"
  | .setDesiredPolicy _ => "broker.set_desired_policy"
  | .pushReady _ => "broker.push_ready"
  | .popReady _ => popTarget
  | .readyLength => "broker.ready_len"
  | .pushDeadLetter _ => "broker.push_dead_letter"
  | .deadLetters => "broker.dead_letters"
  | .deadLetterCount => "broker.dead_letter_len"

/-- The outages to come, by the names of the operations. -/
abbrev Outages := List (String × Outage)

namespace Outages

/-- Whether an operation fails this time, and the outages that are left. -/
def consult (target : String) (os : Outages) : Option OutageKind × Outages :=
  match Dictionary.find? target os with
  | none => (none, os)
  | some o =>
    if 0 < o.after then (none, Dictionary.insert target { o with after := o.after - 1 } os)
    else if 0 < o.times then
      (some o.kind, Dictionary.insert target { o with times := o.times - 1 } os)
    else (none, os)

/-- How many times an operation may still fail. -/
def timesLeft (target : String) (os : Outages) : Nat :=
  match Dictionary.find? target os with
  | none => 0
  | some o => o.after + o.times

end Outages

end Rehearsal

end JobDispatch
