import JobDispatch.Broker.Basic
import JobDispatch.Policy.Registry
import JobDispatch.Store.Calls

/-!
# Shared services

The engine, the executions and the control surface share a store, a broker, a clock and a place for
notices.  Each use of one of them is a single atomic step; between two steps anything may happen.
Everything that uses the services is written over an arbitrary state of theirs, so that it can be run
against services that fail as well as against those of this process.

## Main definitions

* `Services` — the shared services over some state.
* `Notice` — what an operator is told about, and `Notice.message`, in which words.
-/

namespace JobDispatch

/-- What an operator is told about. -/
inductive Notice
  /-- The policy that is wanted is not known. -/
  | policyIgnored (problem : InvalidPolicy)
  /-- A message names a job that does not exist. -/
  | jobMissing (id : JobId)
  /-- A failed attempt belongs to a job that does not exist. -/
  | failureOfMissing (id : JobId)
  /-- A failed attempt belongs to a job whose life has ended. -/
  | failureIgnored (id : JobId) (status : JobStatus)
  /-- A failed attempt is followed by another. -/
  | retrying (id : JobId) (attempt maxRetries : UInt16)
  deriving DecidableEq

/-- What an operator is told. -/
def Notice.message : Notice → String
  | policyIgnored problem => "Ignoring requested policy: " ++ problem.message
  | jobMissing id => "Job " ++ id.text ++ " not found, skipping"
  | failureOfMissing id => "Job " ++ id.text ++ " not found while handling failure, ignoring"
  | failureIgnored id status =>
    "Job " ++ id.text ++ " already " ++ status.text ++ ", ignoring failure"
  | retrying id attempt maxRetries =>
    "Job " ++ id.text ++ " failed, retrying (attempt " ++ toString attempt.toNat ++ "/" ++
      toString maxRetries.toNat ++ ")"

/-- **The shared services** over a state `σ`. -/
structure Services (σ : Type) where
  /-- Performs an operation of the store. -/
  store : {α : Type} → StoreCall α → σ → Except StoreError α × σ
  /-- Performs an operation of the broker. -/
  broker : {α : Type} → BrokerCall α → σ → Except BrokerError α × σ
  /-- Reads the clock. -/
  clock : σ → Timestamp × σ
  /-- Gives notice of something. -/
  note : Notice → σ → σ

end JobDispatch
