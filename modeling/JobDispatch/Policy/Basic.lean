import JobDispatch.Policy.Fifo
import JobDispatch.Policy.Interface
import JobDispatch.Policy.StableHeap
import JobDispatch.Time.Span

/-!
# The built-in policies

A policy decides the order in which queued tickets are dispatched.  Tickets with equal keys keep the
order in which they came.

## Main definitions

* `PolicyKind` — the four policies: order of arrival, shortest estimated duration first, smallest
  priority number first, and order of arrival with a time quantum.
* `Policy` — a policy with the tickets it holds, and its operations `enqueue`, `dequeue?`, `peek?`
  and `size`.
-/

namespace JobDispatch

/-- The kinds of policy. -/
inductive PolicyKind
  /-- First come, first served. -/
  | fcfs
  /-- The shortest estimated duration first. -/
  | shortestFirst
  /-- The smallest priority number first. -/
  | priority
  /-- First come, first served; a ticket that has used up its time quantum may be put back. -/
  | roundRobin (quantum : Span)
  deriving DecidableEq

namespace PolicyKind

/-- The time quantum that is used unless another is given. -/
def defaultQuantum : Span := Span.seconds 5

/-- The name of a kind. -/
def name : PolicyKind → String
  | fcfs => "fcfs"
  | shortestFirst => "sjf"
  | priority => "priority"
  | roundRobin _ => "round_robin"

/-- The kinds that are known from the start. -/
def builtin : List PolicyKind := [fcfs, shortestFirst, priority, roundRobin defaultQuantum]

/-- The key by which a kind orders tickets: the least comes first. -/
def key : PolicyKind → Ticket → Int
  | fcfs, _ => 0
  | shortestFirst, t => t.estimatedDuration.orderKey
  | priority, t => t.priority.toNat
  | roundRobin _, _ => 0

end PolicyKind

/-- A policy with the tickets it holds. -/
inductive Policy
  | fcfs (queue : Fifo Ticket)
  | shortestFirst (heap : StableHeap Ticket)
  | priority (heap : StableHeap Ticket)
  | roundRobin (quantum : Span) (queue : Fifo Ticket)

namespace Policy

/-- A policy of the given kind that holds nothing. -/
def ofKind : PolicyKind → Policy
  | .fcfs => .fcfs .empty
  | .shortestFirst => .shortestFirst .empty
  | .priority => .priority .empty
  | .roundRobin quantum => .roundRobin quantum .empty

/-- The kind of a policy. -/
def kind : Policy → PolicyKind
  | .fcfs _ => .fcfs
  | .shortestFirst _ => .shortestFirst
  | .priority _ => .priority
  | .roundRobin quantum _ => .roundRobin quantum

/-- The name of a policy's kind. -/
def name (p : Policy) : String := p.kind.name

/-- Adds a ticket. -/
def enqueue (p : Policy) (t : Ticket) : Policy :=
  match p with
  | .fcfs queue => .fcfs (queue.enqueue t)
  | .shortestFirst heap => .shortestFirst (heap.push (PolicyKind.shortestFirst.key t) t)
  | .priority heap => .priority (heap.push (PolicyKind.priority.key t) t)
  | .roundRobin quantum queue => .roundRobin quantum (queue.enqueue t)

/-- The next ticket and the policy without it. -/
def dequeue? : Policy → Option (Ticket × Policy)
  | .fcfs queue => queue.dequeue?.map fun (t, q) => (t, .fcfs q)
  | .shortestFirst heap => heap.pop?.map fun (t, h) => (t, .shortestFirst h)
  | .priority heap => heap.pop?.map fun (t, h) => (t, .priority h)
  | .roundRobin quantum queue => queue.dequeue?.map fun (t, q) => (t, .roundRobin quantum q)

/-- The next ticket. -/
def peek? : Policy → Option Ticket
  | .fcfs queue => queue.peek?
  | .shortestFirst heap => heap.peek?
  | .priority heap => heap.peek?
  | .roundRobin _ queue => queue.peek?

/-- The number of tickets. -/
def size : Policy → Nat
  | .fcfs queue => queue.size
  | .shortestFirst heap => heap.size
  | .priority heap => heap.size
  | .roundRobin _ queue => queue.size

/-- The time quantum of a round-robin policy. -/
def quantum? : Policy → Option Span
  | .roundRobin quantum _ => some quantum
  | _ => none

/-- Puts a ticket whose time quantum is used up behind all others of a round-robin policy; the other
policies know no quantum. -/
def requeue? : Policy → Ticket → Option Policy
  | .roundRobin quantum queue, t => some (.roundRobin quantum (queue.enqueue t))
  | _, _ => none

@[simp] theorem kind_ofKind (k : PolicyKind) : (ofKind k).kind = k := by cases k <;> rfl

@[simp] theorem size_ofKind (k : PolicyKind) : (ofKind k).size = 0 := by cases k <;> rfl

@[simp] theorem kind_enqueue (p : Policy) (t : Ticket) : (p.enqueue t).kind = p.kind := by
  cases p <;> rfl

/-- Dequeuing takes one ticket away. -/
theorem size_of_dequeue? {p q : Policy} {t : Ticket} (h : p.dequeue? = some (t, q)) :
    p.size = q.size + 1 := by
  cases p <;> simp only [dequeue?, Option.map_eq_some_iff, Prod.mk.injEq, Prod.exists] at h <;>
    obtain ⟨_, _, hd, rfl, rfl⟩ := h
  · exact Fifo.size_of_dequeue? hd
  · exact StableHeap.size_of_pop? hd
  · exact StableHeap.size_of_pop? hd
  · exact Fifo.size_of_dequeue? hd

/-- What is looked at is what is dequeued next. -/
theorem peek?_eq (p : Policy) : p.peek? = p.dequeue?.map Prod.fst := by
  cases p with
  | fcfs queue => simp [peek?, dequeue?, Fifo.peek?_eq_dequeue?, Function.comp_def]
  | shortestFirst heap => simp [peek?, dequeue?, StableHeap.peek?_eq_pop?, Function.comp_def]
  | priority heap => simp [peek?, dequeue?, StableHeap.peek?_eq_pop?, Function.comp_def]
  | roundRobin quantum queue => simp [peek?, dequeue?, Fifo.peek?_eq_dequeue?, Function.comp_def]

/-! ### What the engine sees of them -/

instance : SchedulingPolicy Policy where
  name := name
  enqueue := enqueue
  dequeue? := dequeue?
  peek? := peek?
  size := size
  peek?_eq := peek?_eq
  size_lt_of_dequeue? h := by rw [size_of_dequeue? h]; exact Nat.lt_succ_self _

/-- Whether a policy holds nothing. -/
def isEmpty (p : Policy) : Bool := SchedulingPolicy.isEmpty p

/-- Adds several tickets, one after another. -/
def enqueueAll (p : Policy) (ts : List Ticket) : Policy := SchedulingPolicy.enqueueAll p ts

/-- Up to `n` tickets in the order in which they are dequeued, and the policy without them. -/
def dequeueMany (n : Nat) (p : Policy) : List Ticket × Policy := SchedulingPolicy.dequeueMany n p

/-- All tickets in the order in which they are dequeued, and the emptied policy. -/
def drain (p : Policy) : List Ticket × Policy := SchedulingPolicy.drain p

/-- Moves all tickets of `source` into `target`, in the order in which `source` dequeues them. -/
def drainInto (source target : Policy) : SchedulingPolicy.Drained Policy :=
  SchedulingPolicy.drainInto source target

/-- How a policy is shown: its name and its size. -/
def shown (p : Policy) : String := SchedulingPolicy.shown p

theorem drain_eq (p : Policy) : p.drain = p.dequeueMany p.size := rfl

theorem dequeueMany_zero (p : Policy) : p.dequeueMany 0 = ([], p) := rfl

theorem dequeueMany_succ (n : Nat) (p : Policy) : p.dequeueMany (n + 1) =
    match p.dequeue? with
    | none => ([], p)
    | some (t, q) => (t :: (q.dequeueMany n).1, (q.dequeueMany n).2) := by
  have hnext : SchedulingPolicy.dequeue? p = p.dequeue? := rfl
  rw [dequeueMany, SchedulingPolicy.dequeueMany, hnext]
  cases p.dequeue? <;> rfl

end Policy

end JobDispatch
