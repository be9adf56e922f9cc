import Mathlib.Data.List.Perm.Basic
import JobDispatch.Proofs.Job.RoundTrip

/-!
# The ready queue loses nothing

Many producers and consumers share one ready queue.  A consumer that finds the queue empty waits and
looks again, until it finds a message or its time is over; whatever the order of all these calls, the
messages leave the queue in the order in which they were put there, each for one consumer, and the
consumer is told what its message says.

## Main definitions

* `ReadyQueue` — a broker with the consumers that wait at it and those that have been answered.
* `QueueMove` — what a producer or consumer does next.
* `ReadyQueue.removed` — the messages that have left the queue, in their order.

## Main results

* `ReadyQueue.step_lossless` — no move loses a message.
* `ReadyQueue.lossless_fifo` — **the queue is a lossless first-in first-out list of tickets.**
* `Ticket.lost_of_marked` — a payload that is marked as the value of a text is lost, if the reader is built
  to take it for one.
-/

namespace JobDispatch

/-! ### Producers and consumers -/

/-- A call for a message that has returned. -/
structure Delivered where
  /-- The call, by its number. -/
  call : Nat
  /-- The message that was removed for it, if any. -/
  removed : Option String
  /-- What the caller was told. -/
  answer : Except BrokerError (Option Ticket)

/-- A broker whose ready queue is shared by many callers. -/
structure ReadyQueue where
  broker : Broker
  /-- How many calls for a message there have been. -/
  calls : Nat := 0
  /-- The calls that have not returned. -/
  waiting : List Nat := []
  /-- The calls that have returned, the first one first. -/
  delivered : List Delivered := []

/-- What a producer or consumer does next. -/
inductive QueueMove
  /-- A ticket is put on the queue. -/
  | push (t : Ticket)
  /-- A text is put on the queue as if it were a message. -/
  | pushRaw (message : String)
  /-- A new call for a message, at a given time, which is to wait for a given time at most. -/
  | call (now timeout : Span)
  /-- A call looks whether there is a message. -/
  | look (call : Nat)
  /-- The time of a call is over. -/
  | expire (call : Nat)

/-- The message that a move puts on the queue. -/
def QueueMove.message? : QueueMove → Option String
  | push t => some t.text
  | pushRaw m => some m
  | _ => none

/-- What a call is to be told: what the removed message says, or that there was none. -/
def Delivered.answered [Json.Dialect] (d : Delivered) : Prop :=
  d.answer = match d.removed with
    | none => .ok none
    | some m => (Ticket.ofMessage m).map some

namespace ReadyQueue

/-- A call returns. -/
def deliver (q : ReadyQueue) (d : Delivered) : ReadyQueue :=
  { q with waiting := q.waiting.erase d.call, delivered := q.delivered ++ [d] }

/-- The messages that have left the queue, in their order. -/
def removed (q : ReadyQueue) : List String := q.delivered.filterMap Delivered.removed

/-- The messages that moves put on the queue, in their order. -/
def pushed (ms : List QueueMove) : List String := ms.filterMap QueueMove.message?

/-! ### One move -/

variable {b : Broker} {all : List String} {q : ReadyQueue}

theorem removed_deliver (q : ReadyQueue) (d : Delivered) :
    (q.deliver d).removed = q.removed ++ d.removed.toList := by
  simp only [removed, deliver, List.filterMap_append]
  cases h : d.removed <;> simp [h]

/-- A call that returns is no longer waiting. -/
theorem perm_deliver {d : Delivered} (hd : d.call ∈ q.waiting) :
    ((q.deliver d).waiting ++ (q.deliver d).delivered.map Delivered.call).Perm
      (q.waiting ++ q.delivered.map Delivered.call) := by
  simp only [deliver, List.map_append, List.map_cons, List.map_nil]
  have hback : (d.call :: q.waiting.erase d.call).Perm q.waiting := (List.perm_cons_erase hd).symm
  rw [← List.append_assoc]
  exact (List.perm_append_singleton _ _).trans (hback.append_right _)

section Reading

variable [Json.Dialect]

/-- **What each move does.**  A call the end of which cannot be told comes to nothing; one that finds no
message goes on waiting. -/
def step (q : ReadyQueue) : QueueMove → ReadyQueue
  | .push t => { q with broker := (q.broker.perform (.pushReady t)).2 }
  | .pushRaw m => { q with broker := q.broker.pushRaw m }
  | .call now timeout =>
    if Span.hasDeadline now timeout then
      { q with calls := q.calls + 1, waiting := q.waiting ++ [q.calls] }
    else q
  | .look c =>
    match q.waiting.contains c, q.broker.ready with
    | true, m :: _ =>
      { q with broker := q.broker.popReady.2 }.deliver ⟨c, some m, q.broker.popReady.1⟩
    | _, _ => q
  | .expire c => if q.waiting.contains c then q.deliver ⟨c, none, .ok none⟩ else q

/-- The moves one after another. -/
def run (q : ReadyQueue) (ms : List QueueMove) : ReadyQueue := ms.foldl step q

/-- **Nothing is lost**: of the messages `all` the first have left the queue and the others are there,
every call waits or has been told what is right, and the rest of the broker is as it was. -/
structure Lossless (b : Broker) (all : List String) (q : ReadyQueue) : Prop where
  order : all = q.removed ++ q.broker.ready
  answered : ∀ d ∈ q.delivered, d.answered
  calls : (q.waiting ++ q.delivered.map Delivered.call).Perm (List.range q.calls)
  policy : q.broker.policy = b.policy
  deadLetters : q.broker.deadLetters = b.deadLetters

/-- A message behind all others. -/
theorem Lossless.pushRaw (h : Lossless b all q) (m : String) :
    Lossless b (all ++ [m]) { q with broker := q.broker.pushRaw m } where
  order := by
    show all ++ [m] = q.removed ++ (q.broker.ready ++ [m])
    rw [h.order, List.append_assoc]
  answered := h.answered
  calls := h.calls
  policy := h.policy
  deadLetters := h.deadLetters

/-- The first message leaves the queue for a call that waits. -/
theorem Lossless.look {c : Nat} {m : String} {rest : List String} (h : Lossless b all q)
    (hc : c ∈ q.waiting) (hr : q.broker.ready = m :: rest) :
    Lossless b all
      ({ q with broker := q.broker.popReady.2 }.deliver ⟨c, some m, q.broker.popReady.1⟩) := by
  rw [Broker.popReady_cons hr]
  constructor
  case order =>
    rw [removed_deliver]
    show all = (q.removed ++ [m]) ++ rest
    rw [h.order, hr, List.append_assoc, List.singleton_append]
  case answered =>
    intro d hd
    rcases List.mem_append.mp hd with hd | hd
    · exact h.answered d hd
    · rw [List.mem_singleton.mp hd]
      rfl
  case calls => exact (perm_deliver hc).trans h.calls
  case policy => exact h.policy
  case deadLetters => exact h.deadLetters

/-- A call that waits goes away empty-handed. -/
theorem Lossless.expire {c : Nat} (h : Lossless b all q) (hc : c ∈ q.waiting) :
    Lossless b all (q.deliver ⟨c, none, .ok none⟩) where
  order := by
    rw [removed_deliver]
    simpa [deliver] using h.order
  answered := by
    intro d hd
    rcases List.mem_append.mp hd with hd | hd
    · exact h.answered d hd
    · rw [List.mem_singleton.mp hd]
      rfl
  calls := (perm_deliver hc).trans h.calls
  policy := h.policy
  deadLetters := h.deadLetters

/-- **No move loses a message.** -/
theorem step_lossless (h : Lossless b all q) (m : QueueMove) :
    Lossless b (all ++ m.message?.toList) (q.step m) := by
  cases m with
  | push t => exact h.pushRaw t.text
  | pushRaw m => exact h.pushRaw m
  | call now timeout =>
    have hnone : all ++ (QueueMove.call now timeout).message?.toList = all := List.append_nil all
    rw [hnone, step]
    split
    · refine { h with calls := ?_ }
      show ((q.waiting ++ [q.calls]) ++ q.delivered.map Delivered.call).Perm (List.range (q.calls + 1))
      rw [List.range_succ]
      refine List.Perm.trans ?_ (h.calls.append_right [q.calls])
      rw [List.append_assoc, List.append_assoc]
      exact List.Perm.append_left _ List.perm_append_comm
    · exact h
  | look c =>
    have hnone : all ++ (QueueMove.look c).message?.toList = all := List.append_nil all
    rw [hnone, step]
    split
    · next hc hr => exact h.look (List.contains_iff_mem.mp hc) hr
    · exact h
  | expire c =>
    have hnone : all ++ (QueueMove.expire c).message?.toList = all := List.append_nil all
    rw [hnone, step]
    split
    · next hc => exact h.expire (List.contains_iff_mem.mp hc)
    · exact h

/-! ### Many moves -/

theorem run_lossless (h : Lossless b all q) (ms : List QueueMove) :
    Lossless b (all ++ pushed ms) (q.run ms) := by
  induction ms generalizing q all with
  | nil => simpa [pushed, run] using h
  | cons m ms ih =>
    have hrest := ih (step_lossless h m)
    rw [List.append_assoc] at hrest
    have hpushed : m.message?.toList ++ pushed ms = pushed (m :: ms) := by
      rw [pushed, pushed, List.filterMap_cons]
      cases m.message? <;> rfl
    rwa [hpushed] at hrest

/-- A broker that nobody has called yet. -/
theorem lossless_init (b : Broker) : Lossless b b.ready { broker := b } where
  order := rfl
  answered := fun _ hd => absurd hd List.not_mem_nil
  calls := List.Perm.refl _
  policy := rfl
  deadLetters := rfl

/-- **The ready queue is a lossless first-in first-out list of tickets.**  Whatever producers and
consumers do, a message can always be put on the queue, nothing is lost, the length is that of what was
put there less what was removed, a message that cannot be read is reported as what it is, and a
faithful ticket comes back as it was unless its duration is not finite or its payload is nested too
deep.  A ticket is faithful whatever the names in its payload are, unless the reader is built to take an
object with a certain name for the value of a text. -/
theorem lossless_fifo (b : Broker) (ms : List QueueMove) :
    Lossless b (b.ready ++ pushed ms) (run { broker := b } ms) ∧
      ((run { broker := b } ms).broker.perform .readyLength).1
        = .ok (b.ready.length + (pushed ms).length - (run { broker := b } ms).removed.length) ∧
      (∀ t : Ticket, ((run { broker := b } ms).broker.perform (.pushReady t)).1 = .ok ()) ∧
      (∀ (m : String) (e : BrokerError), Ticket.ofMessage m = .error e → e = .decoding m) ∧
      (∀ t : Ticket, t.Faithful → Ticket.ofMessage t.text
        = if t.estimatedDuration.isFinite = true ∧ t.payload.depth ≤ 126 then .ok t
          else .error (.decoding t.text)) ∧
      (Json.Dialect.embeds = false → ∀ v : Json, v.Plain) := by
  have hall := run_lossless (lossless_init b) ms
  refine ⟨hall, ?_, fun t => rfl, fun m e => Ticket.ofMessage_error,
    fun t => Ticket.ofMessage_text_of_faithful, Json.plain_of_embeds_eq_false⟩
  have hlen := congrArg List.length hall.order
  rw [List.length_append, List.length_append] at hlen
  show Except.ok (run { broker := b } ms).broker.ready.length = _
  congr 1
  omega

end Reading

end ReadyQueue

/-! ### Two tickets -/

namespace Ticket

/-- A ticket with values of every kind in its payload, the largest whole number and a double among
them. -/
def varied : Ticket where
  jobId := JobId.nil
  jobType := "sleep"
  priority := 5
  estimatedDuration := ⟨0x3FF0000000000000⟩
  payload := .object
    [("largest", .number (.int 18446744073709551615)),
     ("values", .array [.null, .bool true, .number (.double ⟨0x3FE0000000000000⟩), .string "\n"])]

theorem faithful_varied : varied.Faithful where
  wellFormed := by
    simp only [varied, Json.WellFormed, Json.FieldsWellFormed, Json.ItemsWellFormed,
      JsonNumber.WellFormed]
    exact ⟨⟨by decide, trivial⟩, by decide⟩
  plain := by
    simp only [varied, Json.Plain, Json.FieldsPlain, Json.ItemsPlain, Json.IsMarked]
    decide
  faithful := by
    intro x hx
    simp only [varied, Json.doubles, Json.fieldsDoubles, Json.itemsDoubles, List.append_nil,
      List.nil_append, List.mem_singleton] at hx
    subst hx
    exact (Json.faithful_iff_value?_written (by decide)).mpr (by decide +kernel)
  faithful_duration := fun h => (Json.faithful_iff_value?_written h).mpr (by decide +kernel)

/-- Somebody asks for the ticket, and somebody else would wait for ever. -/
def takenOnce : List QueueMove :=
  [.push varied, .call (Span.seconds 1) Span.longest, .call (Span.seconds 1) Span.zero, .look 0]

/-- **The ticket goes through the queue as it is.** -/
theorem taken_varied : varied.Faithful ∧ ofMessage varied.text = .ok varied ∧
    (ReadyQueue.run { broker := {} } takenOnce).removed = [varied.text] := by
  obtain ⟨-, -, -, -, hread, -⟩ := ReadyQueue.lossless_fifo {} takenOnce
  have hsent : varied.estimatedDuration.isFinite = true ∧ varied.payload.depth ≤ 126 := by
    constructor <;> decide
  have hvaried := hread varied faithful_varied
  rw [if_pos hsent] at hvaried
  exact ⟨faithful_varied, hvaried, rfl⟩

/-- A ticket whose payload is an object that is marked as the value of a text. -/
def marked : Ticket :=
  { varied with
    payload := .object [(Json.Document.embeddingName, .number (.int 5)), ("a", .number (.int 1))] }

/-- **A payload that is marked as the value of a text is lost** with the reader as it is built, flat and
without doubles as it is. -/
theorem lost_of_marked : marked.payload.WellFormed ∧ marked.payload.doubles = [] ∧
    marked.payload.depth ≤ 126 ∧ marked.estimatedDuration.isFinite = true ∧
    marked.estimatedDuration.Faithful ∧
    ({ ready := [marked.text] } : Broker).popReady = (.error (.decoding marked.text), {}) := by
  have hvalue : Json.Document.value? maxPayloadDepth marked.payload.document = none :=
    Option.isNone_iff_eq_none.mp (by decide +kernel)
  have hread : ofMessage marked.text = .error (.decoding marked.text) := by
    rw [ofMessage, decode?_text, hvalue]
    simp
  refine ⟨?_, ?_, by decide, by decide, (Json.faithful_iff_value?_written (by decide)).mpr
    (by decide +kernel), ?_⟩
  · simp only [marked, Json.WellFormed, Json.FieldsWellFormed, JsonNumber.WellFormed]
    exact ⟨⟨by decide, trivial⟩, by decide⟩
  · simp only [marked, Json.doubles, Json.fieldsDoubles, List.append_nil]
  · rw [Broker.popReady_cons rfl, hread]
    rfl

end Ticket

end JobDispatch
