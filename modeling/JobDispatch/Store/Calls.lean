import JobDispatch.Store.Listing

/-!
# The operations of a store

## Main definitions

* `StoreCall` — the operations of a store, by what they give back.
* `Store.perform` — what each operation does.

## Main results

* `Store.perform_error` — an operation that fails leaves the store as it was.
-/

namespace JobDispatch

/-- The operations of a store, by what they give back. -/
inductive StoreCall : Type → Type
  /-- Stores a new job, which gets an id. -/
  | insert (new : NewJob) : StoreCall JobId
  /-- The record with an id. -/
  | load (id : JobId) : StoreCall (Option Job)
  /-- The oldest pending jobs become scheduled. -/
  | claimPending (limit : Nat) : StoreCall (List Job)
  /-- A scheduled job starts to run. -/
  | start (id : JobId) : StoreCall Unit
  /-- A job has finished with a result. -/
  | complete (id : JobId) (result : Json) : StoreCall Unit
  /-- An attempt has failed and another will follow. -/
  | giveBack (id : JobId) (retryCount : UInt16) (error : String) : StoreCall Unit
  /-- The last attempt has failed. -/
  | exhaust (id : JobId) (retryCount : UInt16) (error : String) : StoreCall Unit
  /-- A pending or scheduled job is cancelled. -/
  | cancel (id : JobId) : StoreCall Unit
  /-- All scheduled jobs become pending again. -/
  | resetScheduled : StoreCall Nat
  /-- One page of the matching jobs. -/
  | query (filter : JobFilter) : StoreCall JobPage
  /-- How many jobs there are in each state. -/
  | stats : StoreCall JobStats

/-- The job that an operation is about. -/
def StoreCall.subject? {α : Type} : StoreCall α → Option JobId
  | .load id => some id
  | .start id => some id
  | .complete id _ => some id
  | .giveBack id _ _ => some id
  | .exhaust id _ _ => some id
  | .cancel id => some id
  | _ => none

namespace Store

/-- The outcome of a change to one record, and the store after it. -/
def outcome (s : Store) : Except StoreError Store → Except StoreError Unit × Store
  | .ok s' => (.ok (), s')
  | .error e => (.error e, s)

/-- **What each operation does** at a given time; a new job gets the given id. -/
def perform {α : Type} (now : Timestamp) (fresh : JobId) (call : StoreCall α) (s : Store) :
    Except StoreError α × Store :=
  match call with
  | .insert new => (.ok fresh, s.insert new fresh now)
  | .load id => (.ok (s.find? id), s)
  | .claimPending limit =>
    let (claimed, s') := s.claimPending limit now
    (.ok claimed, s')
  | .start id => s.outcome (s.start id now)
  | .complete id result => s.outcome (s.complete id result now)
  | .giveBack id retryCount error => s.outcome (s.giveBack id retryCount error)
  | .exhaust id retryCount error => s.outcome (s.exhaust id retryCount error now)
  | .cancel id => s.outcome (s.cancel id now)
  | .resetScheduled =>
    let (reset, s') := s.resetScheduled
    (.ok reset, s')
  | .query filter => (.ok (s.query filter), s)
  | .stats => (.ok s.stats, s)

theorem outcome_error {s s' : Store} {r : Except StoreError Store} {e : StoreError}
    (h : s.outcome r = (.error e, s')) : s' = s := by
  cases r <;> simp_all [outcome]

/-- An operation that fails leaves the store as it was. -/
theorem perform_error {α : Type} {now : Timestamp} {fresh : JobId} {call : StoreCall α}
    {s s' : Store} {e : StoreError} (h : s.perform now fresh call = (.error e, s')) : s' = s := by
  cases call <;> simp only [perform, Prod.mk.injEq, reduceCtorEq, false_and] at h <;>
    exact outcome_error h

end Store

end JobDispatch
