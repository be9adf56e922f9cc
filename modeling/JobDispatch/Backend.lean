import JobDispatch.Services

/-!
# The backend

The services of one process: a store, a broker, a clock that never shows the same time twice, a
source of ids that never repeats itself, and the notices given so far.

## Main definitions

* `Backend` — their state.
* `Backend.services` — the services over it.
-/

namespace JobDispatch

namespace Timestamp

/-- A nanosecond later. -/
def tick (t : Timestamp) : Timestamp :=
  if t.fraction + 1 < 1000000000 then ⟨t.seconds, t.fraction + 1⟩ else ⟨t.seconds + 1, 0⟩

end Timestamp

namespace JobId

/-- The number of the first id that is given to a job. -/
def firstIssued : Nat := 0x6a6f6264697340008000000000000000

/-- The id that the n-th new job gets. -/
def issued (n : Nat) : JobId := ofNat (firstIssued + n)

end JobId

/-- The services of one process. -/
structure Backend where
  store : Store := {}
  broker : Broker := {}
  /-- What the clock shows next. -/
  time : Timestamp := ⟨0, 0⟩
  /-- How many ids have been given out. -/
  issued : Nat := 0
  /-- The notices given so far, oldest first. -/
  notices : List Notice := []

namespace Backend

/-- Nothing stored, nothing sent. -/
def empty : Backend := {}

/-- Reads the clock. -/
def clock (b : Backend) : Timestamp × Backend := (b.time, { b with time := b.time.tick })

/-- The id that the next new job gets. -/
def nextId (b : Backend) : JobId := JobId.issued b.issued

/-- Counts the id that a new job has got. -/
def issuedAfter {α : Type} (b : Backend) : StoreCall α → Nat
  | .insert _ => b.issued + 1
  | _ => b.issued

/-- Performs an operation of the store. -/
def onStore {α : Type} (call : StoreCall α) (b : Backend) : Except StoreError α × Backend :=
  let (result, store) := b.store.perform b.time b.nextId call
  (result, { b with store := store, time := b.time.tick, issued := b.issuedAfter call })

/-- Performs an operation of the broker. -/
def onBroker {α : Type} (call : BrokerCall α) (b : Backend) : Except BrokerError α × Backend :=
  let (result, broker) := b.broker.perform call
  (result, { b with broker := broker })

/-- Gives notice of something. -/
def note (n : Notice) (b : Backend) : Backend := { b with notices := b.notices ++ [n] }

/-- The clock shows at least the given time from now on. -/
def advance (b : Backend) (t : Timestamp) : Backend :=
  if b.time.le t then { b with time := t } else b

/-- **The services of one process.** -/
def services : Services Backend where
  store := onStore
  broker := onBroker
  clock := clock
  note := note

end Backend

end JobDispatch
