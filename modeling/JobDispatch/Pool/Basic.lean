import JobDispatch.Broker.Basic
import JobDispatch.Pool.Config

/-!
# The worker pool

The pool takes messages off the ready queue and runs a bounded number of executions at a time.  Its
dispatcher takes a message only while it holds a free slot, and hands the slot on to the execution;
while all slots are taken the messages stay where they are.

## Main definitions

* `Dispatcher` — what the dispatcher is doing.
* `Pool` — the dispatcher, the free slots and the executions in flight.
* `Pool.acquire`, `Pool.receive`, `Pool.resume`, `Pool.stop`, `Pool.keep` — what can happen to it.

## Main results

* `Pool.slots_acquire`, `Pool.slots_receive`, `Pool.slots_keep` — the slots are conserved.
-/

namespace JobDispatch

/-- What the dispatcher of a pool is doing. -/
inductive Dispatcher
  /-- It waits for a free slot. -/
  | acquiring
  /-- It holds a slot and waits for a message. -/
  | popping
  /-- It waits until the broker may have recovered. -/
  | pausing
  /-- It has ended. -/
  | stopped
  /-- It has broken down. -/
  | broken
  deriving DecidableEq

/-- A pool whose executions in flight are described by `τ`. -/
structure Pool (τ : Type) where
  config : PoolConfig
  dispatcher : Dispatcher
  /-- How many slots are free. -/
  free : Nat
  /-- The executions in flight, oldest first. -/
  inFlight : List τ
  /-- Whether the pool has been asked to end. -/
  isStopping : Bool

namespace Pool

variable {τ : Type}

/-- The most slots that can be counted. -/
def maxSlots : Nat := Nat.pow 2 61 - 1

/-- A pool at its start.  One with more slots than can be counted breaks down at once. -/
def start (config : PoolConfig) : Pool τ where
  config := config
  dispatcher := if config.size ≤ maxSlots then .acquiring else .broken
  free := config.size
  inFlight := []
  isStopping := false

/-- How many slots the dispatcher holds. -/
def held (p : Pool τ) : Nat := if p.dispatcher = .popping then 1 else 0

/-- How many slots there are: free ones, the dispatcher's, and those of the executions in flight. -/
def slots (p : Pool τ) : Nat := p.free + p.held + p.inFlight.length

/-- The dispatcher looks for a free slot.  If the pool is to end it ends; if it gets a slot it begins
to wait for a message, which it cannot do when the end of the wait lies too far in the future. -/
def acquire (p : Pool τ) (now : Span) : Pool τ :=
  if p.dispatcher = .acquiring then
    if p.isStopping then { p with dispatcher := .stopped }
    else if 0 < p.free then
      if Span.hasDeadline now p.config.popTimeout then
        { p with dispatcher := .popping, free := p.free - 1 }
      else { p with dispatcher := .broken }
    else p
  else p

/-- The dispatcher gives its slot back and does something else. -/
def release (p : Pool τ) (next : Dispatcher) : Pool τ :=
  { p with dispatcher := next, free := p.free + 1 }

/-- **What the dispatcher does with what it waited for.**  A message goes, with the slot, to a new
execution; without one the slot is free again.  A message that could not be read is forgotten; after
any other failure the dispatcher pauses. -/
def receive (p : Pool τ) (answer : Except BrokerError (Option Ticket)) (begin : Ticket → τ) : Pool τ :=
  if p.dispatcher = .popping then
    match answer with
    | .ok (some ticket) => { p with dispatcher := .acquiring, inFlight := p.inFlight ++ [begin ticket] }
    | .ok none => p.release .acquiring
    | .error (.decoding _) => p.release .acquiring
    | .error _ => p.release (if p.isStopping then .stopped else .pausing)
  else p

/-- The pause is over. -/
def resume (p : Pool τ) : Pool τ :=
  if p.dispatcher = .pausing then { p with dispatcher := .acquiring } else p

/-- The pool is asked to end.  A wait for a message is not broken off, because the message might
already have been handed over. -/
def stop (p : Pool τ) : Pool τ :=
  { p with
    isStopping := true
    dispatcher := match p.dispatcher with
      | .acquiring => .stopped
      | .pausing => .stopped
      | d => d }

/-- Some of the executions in flight have ended; the others are kept. -/
def keep (p : Pool τ) (kept : List τ) : Pool τ :=
  { p with inFlight := kept, free := p.free + (p.inFlight.length - kept.length) }

/-- Whether the pool has ended: the dispatcher and every execution. -/
def hasEnded (p : Pool τ) : Bool := p.dispatcher == .stopped && p.inFlight.isEmpty

@[simp] theorem slots_start (config : PoolConfig) : (start config : Pool τ).slots = config.size := by
  simp only [slots, start, held]
  split <;> simp

@[simp] theorem slots_acquire (p : Pool τ) (now : Span) : (p.acquire now).slots = p.slots := by
  unfold acquire
  split
  · next h =>
    split
    · simp [slots, held, h]
    · split
      · split
        · simp only [slots, held, h]
          simp
          omega
        · simp [slots, held, h]
      · rfl
  · rfl

theorem slots_release {p : Pool τ} (h : p.dispatcher = .popping) {next : Dispatcher}
    (hn : next ≠ .popping) : (p.release next).slots = p.slots := by
  simp [slots, held, release, h, hn]

@[simp] theorem slots_receive (p : Pool τ) (answer : Except BrokerError (Option Ticket))
    (begin : Ticket → τ) : (p.receive answer begin).slots = p.slots := by
  unfold receive
  split
  · next h =>
    split
    · simp [slots, held, h]
      omega
    · exact slots_release h (by simp)
    · exact slots_release h (by simp)
    · exact slots_release h (by split <;> simp)
  · rfl

@[simp] theorem slots_resume (p : Pool τ) : p.resume.slots = p.slots := by
  unfold resume
  split
  · next h => simp [slots, held, h]
  · rfl

@[simp] theorem slots_stop (p : Pool τ) : p.stop.slots = p.slots := by
  unfold stop
  cases h : p.dispatcher <;> simp [slots, held, h]

theorem slots_keep (p : Pool τ) {kept : List τ} (h : kept.length ≤ p.inFlight.length) :
    (p.keep kept).slots = p.slots := by
  have hh : (p.keep kept).held = p.held := rfl
  simp only [slots, hh]
  simp only [keep]
  omega

end Pool

end JobDispatch
