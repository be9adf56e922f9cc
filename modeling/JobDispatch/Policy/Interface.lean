import JobDispatch.Job.Basic

/-!
# What a policy has to offer

The engine sees of a policy only what can be done with it.  Any type will do whose values take tickets
and give them back: each offers its next ticket to be looked at or to be taken, and is empty after as
many takes as it holds tickets.  In which order they come is its own affair.

## Main definitions

* `SchedulingPolicy` — the types of policies.
* `SchedulingPolicy.drain` — takes ticket after ticket until there is none.
* `SchedulingPolicy.drainInto` — moves all tickets of one policy into another.

## Main results

* `SchedulingPolicy.dequeue?_drain` — a policy that has been drained has no next ticket.
-/

namespace JobDispatch

/-- **The types of policies.** -/
class SchedulingPolicy (π : Type) where
  /-- The name of the policy's own kind. -/
  name : π → String
  /-- Adds a ticket. -/
  enqueue : π → Ticket → π
  /-- The next ticket and the policy without it. -/
  dequeue? : π → Option (Ticket × π)
  /-- The next ticket. -/
  peek? : π → Option Ticket
  /-- The number of tickets. -/
  size : π → Nat
  /-- What is looked at is what is taken next. -/
  peek?_eq (p : π) : peek? p = (dequeue? p).map Prod.fst
  /-- Taking a ticket leaves fewer of them. -/
  size_lt_of_dequeue? {p q : π} {t : Ticket} (h : dequeue? p = some (t, q)) : size q < size p

namespace SchedulingPolicy

variable {π : Type} [SchedulingPolicy π]

/-- Whether a policy holds nothing. -/
def isEmpty (p : π) : Bool := size p == 0

/-- A policy after its next ticket has been taken. -/
def withoutNext (p : π) : π := ((dequeue? p).map Prod.snd).getD p

/-- Adds several tickets, one after another. -/
def enqueueAll (p : π) (ts : List Ticket) : π := ts.foldl enqueue p

/-- Up to `n` tickets in the order in which they are taken, and the policy without them. -/
def dequeueMany : Nat → π → List Ticket × π
  | 0, p => ([], p)
  | n + 1, p =>
    match dequeue? p with
    | none => ([], p)
    | some (t, p) =>
      let (ts, p) := dequeueMany n p
      (t :: ts, p)

/-- All tickets in the order in which they are taken, and the emptied policy. -/
def drain (p : π) : List Ticket × π := dequeueMany (size p) p

/-- What moving all tickets of one policy into another leaves behind. -/
structure Drained (π : Type) where
  source : π
  target : π
  moved : Nat

/-- Moves all tickets of `source` into `target`, in the order in which `source` gives them. -/
def drainInto (source target : π) : Drained π :=
  let (ts, emptied) := drain source
  ⟨emptied, enqueueAll target ts, ts.length⟩

/-- How a policy is shown: its name and its size. -/
def shown (p : π) : String :=
  "SchedulingPolicy \x7b name: \"" ++ name p ++ "\", size: " ++ toString (size p) ++ " \x7d"

theorem peek?_of_dequeue? {p q : π} {t : Ticket} (h : dequeue? p = some (t, q)) : peek? p = some t := by
  rw [peek?_eq, h]
  rfl

theorem peek?_of_dequeue?_eq_none {p : π} (h : dequeue? p = none) : peek? p = none := by
  rw [peek?_eq, h]
  rfl

theorem withoutNext_of_dequeue? {p q : π} {t : Ticket} (h : dequeue? p = some (t, q)) :
    withoutNext p = q := by
  rw [withoutNext, h]
  rfl

/-- What is looked at can be taken. -/
theorem dequeue?_of_peek? {p : π} {t : Ticket} (h : peek? p = some t) :
    dequeue? p = some (t, withoutNext p) := by
  rw [peek?_eq] at h
  obtain ⟨⟨t', q⟩, hd, rfl⟩ := Option.map_eq_some_iff.mp h
  rw [withoutNext_of_dequeue? hd, hd]

/-- As many takes as there are tickets leave none. -/
theorem dequeue?_dequeueMany {n : Nat} {p : π} (h : size p ≤ n) : dequeue? (dequeueMany n p).2 = none := by
  induction n generalizing p with
  | zero =>
    cases hd : dequeue? p with
    | none => exact hd
    | some next => exact absurd (size_lt_of_dequeue? (q := next.2) hd) (by omega)
  | succ n ih =>
    rw [dequeueMany]
    split
    · next hd => exact hd
    · next t q hd =>
      have hfewer := size_lt_of_dequeue? hd
      exact ih (by omega)

/-- **A policy that has been drained has no next ticket.** -/
theorem dequeue?_drain (p : π) : dequeue? (drain p).2 = none := dequeue?_dequeueMany (Nat.le_refl _)

end SchedulingPolicy

end JobDispatch
