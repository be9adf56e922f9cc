import JobDispatch.Proofs.Store.Frame

/-!
# A store in the course of time

Operations follow one another, of any kind and at any times.  A record keeps its place and its points in
time through all of them, so what has become of it at the end has come about at some operation.

## Main definitions

* `StoreStep` — an operation, with the time at which it is carried out and the id of a new job.
* `Store.after`, `Store.run` — the store after one operation and after several.
* `Store.GoesBack` — a record is made pending again by one of several operations.

## Main results

* `Store.getElem?_after`, `Store.getElem?_run` — a record keeps its place.
* `Store.goesBack_of_pending` — **a record that is not pending and ends so goes back.**
-/

namespace JobDispatch

/-- An operation, with the time at which it is carried out and the id that a new job gets. -/
structure StoreStep where
  {Answer : Type}
  call : StoreCall Answer
  now : Timestamp
  fresh : JobId

namespace Store

/-- The store after an operation. -/
def after (s : Store) (x : StoreStep) : Store := (s.perform x.now x.fresh x.call).2

/-- The store after several operations. -/
def run (s : Store) (xs : List StoreStep) : Store := xs.foldl after s

variable {s : Store} {n : Nat} {i j : Job}

@[simp] theorem run_nil (s : Store) : s.run [] = s := rfl

@[simp] theorem run_cons (s : Store) (x : StoreStep) (xs : List StoreStep) :
    s.run (x :: xs) = (s.after x).run xs := rfl

/-! ### Places -/

/-- **A record keeps its place**, and is changed by no operation that is not about it. -/
theorem getElem?_after (h : s.jobs[n]? = some i) (x : StoreStep) :
    ∃ j, (s.after x).jobs[n]? = some j ∧ (j = i ∨ x.call.Changes i j) := by
  obtain ⟨kept, added, hjobs, -, hkept⟩ := forall₂_perform s x.now x.fresh x.call
  obtain ⟨hn, rfl⟩ := List.getElem?_eq_some_iff.mp h
  have hn' : n < kept.length := hkept.length_eq ▸ hn
  refine ⟨kept[n], ?_, hkept.get hn hn'⟩
  rw [after, hjobs, List.getElem?_append_left hn', List.getElem?_eq_getElem hn']

/-- What is set in a record stays set, in its place. -/
theorem getElem?_run (h : s.jobs[n]? = some i) (xs : List StoreStep) :
    ∃ j, (s.run xs).jobs[n]? = some j ∧ i.Keeps j := by
  induction xs generalizing s i with
  | nil => exact ⟨i, h, .refl i⟩
  | cons x xs ih =>
    obtain ⟨k, hk, hchange⟩ := getElem?_after h x
    obtain ⟨j, hj, hkeeps⟩ := ih hk
    refine ⟨j, hj, ?_⟩
    rcases hchange with rfl | hchange
    · exact hkeeps
    · exact hchange.keeps.trans hkeeps

/-! ### Going back -/

/-- **A record goes back to those that wait**: one of the operations makes the record that was created at
the given time pending, which it was not. -/
def GoesBack (s : Store) (xs : List StoreStep) (created : Timestamp) : Prop :=
  ∃ earlier x later, xs = earlier ++ x :: later ∧
    ∃ i ∈ (s.run earlier).jobs, ∃ j ∈ ((s.run earlier).after x).jobs,
      i.createdAt = created ∧ i.status ≠ .pending ∧ j.status = .pending ∧ x.call.Changes i j

theorem GoesBack.cons {x : StoreStep} {xs : List StoreStep} {created : Timestamp}
    (h : (s.after x).GoesBack xs created) : s.GoesBack (x :: xs) created := by
  obtain ⟨earlier, y, later, rfl, h⟩ := h
  exact ⟨x :: earlier, y, later, rfl, h⟩

/-- **A record that is not pending, and is so after some operations, goes back.** -/
theorem goesBack_of_pending {xs : List StoreStep} (h : s.jobs[n]? = some i) (hi : i.status ≠ .pending)
    (h' : (s.run xs).jobs[n]? = some j) (hj : j.status = .pending) : s.GoesBack xs i.createdAt := by
  induction xs generalizing s i with
  | nil =>
    obtain rfl := Option.some.inj (h.symm.trans h')
    exact absurd hj hi
  | cons x xs ih =>
    obtain ⟨k, hk, hchange⟩ := getElem?_after h x
    by_cases hpending : k.status = .pending
    · rcases hchange with rfl | hchange
      · exact absurd hpending hi
      · exact ⟨[], x, xs, rfl, i, List.mem_of_getElem? h, k, List.mem_of_getElem? hk, rfl, hi, hpending,
          hchange⟩
    · -- the record is still not pending, so it goes back later
      have hback := (ih hk hpending h').cons
      rcases hchange with rfl | hchange
      · exact hback
      · rwa [hchange.keeps.createdAt] at hback

end Store

end JobDispatch
