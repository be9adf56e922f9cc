/-!
# First-in first-out queues

A queue is two lists: the front, and what has arrived since in reverse.  Everything is said through
`toList`, the content in order of arrival.

## Main definitions

* `Fifo` — the queue, and its operations `enqueue`, `dequeue?`, `peek?` and `size`.

## Main results

* `Fifo.toList_enqueue`, `Fifo.toList_dequeue?`, `Fifo.peek?_eq`, `Fifo.size_eq` — the operations on
  the content.
-/

namespace JobDispatch

/-- A first-in first-out queue. -/
structure Fifo (α : Type) where
  /-- The oldest members, oldest first. -/
  front : List α := []
  /-- The newest members, newest first. -/
  back : List α := []

namespace Fifo

variable {α : Type}

/-- The content, oldest first. -/
def toList (q : Fifo α) : List α := q.front ++ q.back.reverse

/-- A queue without members. -/
def empty : Fifo α := {}

/-- Adds a member behind all others. -/
def enqueue (q : Fifo α) (a : α) : Fifo α := { q with back := a :: q.back }

/-- The oldest member and the queue without it. -/
def dequeue? (q : Fifo α) : Option (α × Fifo α) :=
  match q.front with
  | a :: r => some (a, { q with front := r })
  | [] =>
    match q.back.reverse with
    | a :: r => some (a, ⟨r, []⟩)
    | [] => none

/-- The oldest member. -/
def peek? (q : Fifo α) : Option α :=
  match q.front with
  | a :: _ => some a
  | [] => q.back.getLast?

/-- The number of members. -/
def size (q : Fifo α) : Nat := q.front.length + q.back.length

@[simp] theorem toList_empty : (empty : Fifo α).toList = [] := rfl

@[simp] theorem toList_enqueue (q : Fifo α) (a : α) : (q.enqueue a).toList = q.toList ++ [a] := by
  simp [enqueue, toList]

/-- Dequeuing splits off the head of the content. -/
theorem toList_dequeue? (q : Fifo α) :
    q.dequeue?.map (fun p => (p.1, p.2.toList)) =
      match q.toList with
      | [] => none
      | a :: r => some (a, r) := by
  obtain ⟨front, back⟩ := q
  cases front with
  | cons a r => simp [dequeue?, toList]
  | nil =>
    simp only [dequeue?, toList, List.nil_append]
    split <;> simp_all

theorem peek?_eq (q : Fifo α) : q.peek? = q.toList.head? := by
  obtain ⟨front, back⟩ := q
  cases front with
  | cons a r => simp [peek?, toList]
  | nil => simp [peek?, toList]

theorem size_eq (q : Fifo α) : q.size = q.toList.length := by simp [size, toList]

/-- Dequeuing takes one member away. -/
theorem size_of_dequeue? {q r : Fifo α} {a : α} (h : q.dequeue? = some (a, r)) :
    q.size = r.size + 1 := by
  have key := toList_dequeue? q
  rw [h] at key
  rw [size_eq, size_eq]
  cases hq : q.toList with
  | nil => simp [hq] at key
  | cons b t => simp_all

theorem toList_of_dequeue? {q r : Fifo α} {a : α} (h : q.dequeue? = some (a, r)) :
    q.toList = a :: r.toList := by
  have key := toList_dequeue? q
  rw [h] at key
  cases hq : q.toList with
  | nil => simp [hq] at key
  | cons b t => simp_all

theorem dequeue?_eq_none_iff (q : Fifo α) : q.dequeue? = none ↔ q.toList = [] := by
  have key := toList_dequeue? q
  cases hq : q.toList with
  | nil => simp_all
  | cons b t =>
    rw [hq] at key
    simp only [reduceCtorEq, iff_false]
    intro h
    simp [h] at key

theorem peek?_eq_dequeue? (q : Fifo α) : q.peek? = q.dequeue?.map Prod.fst := by
  rw [peek?_eq]
  cases hd : q.dequeue? with
  | none => simp [(dequeue?_eq_none_iff q).mp hd]
  | some d => simp [toList_of_dequeue? hd]

end Fifo

end JobDispatch
