import JobDispatch.Job.Basic

/-!
# The job store

The store keeps the records of all jobs in the order in which they were inserted.  Every operation is
one atomic step; an operation that fails leaves the store as it was.  The current time and the id of
a new job are arguments.

## Main definitions

* `Store` — the records.
* `StoreError` — the ways in which an operation can fail, and what is said about each.
* `Store.insert`, `Store.find?` — adding and looking up a record.
* `Store.claimPending` — the oldest pending jobs become scheduled.
* `Store.start`, `Store.complete`, `Store.giveBack`, `Store.exhaust`, `Store.cancel` — the moves of
  one job.
* `Store.resetScheduled` — all scheduled jobs become pending again.
-/

namespace JobDispatch

/-- The ways in which an operation on a store can fail. -/
inductive StoreError
  /-- No record has the id. -/
  | jobNotFound (id : JobId)
  /-- The job is not scheduled, so it cannot start. -/
  | notScheduled (id : JobId)
  /-- The job is neither pending nor scheduled, so it cannot be cancelled. -/
  | notCancellable (id : JobId) (status : JobStatus)
  /-- A record could not be written or read. -/
  | encoding
  /-- The records are in a state that cannot be trusted. -/
  | badState
  /-- The store could not be reached. -/
  | unavailable (reason : String)
  deriving DecidableEq

/-- What is said about a failed operation. -/
def StoreError.message : StoreError → String
  | jobNotFound id => "Job " ++ id.text ++ " not found"
  | notScheduled id => "Job " ++ id.text ++ " is no longer scheduled"
  | notCancellable id status =>
    "Job " ++ id.text ++ " cannot be cancelled in status " ++ status.text
  | encoding => "Error encoding or decoding data"
  | badState => "System in bad state"
  | unavailable reason => "Store unavailable: " ++ reason

/-- The records of all jobs, in the order in which they were inserted. -/
structure Store where
  jobs : List Job := []

namespace Store

/-- A store without jobs. -/
def empty : Store := {}

/-- Adds the record of a new job behind all others. -/
def insert (s : Store) (new : NewJob) (id : JobId) (now : Timestamp) : Store :=
  ⟨s.jobs ++ [new.record id now]⟩

/-- The record with the given id. -/
def find? (s : Store) (id : JobId) : Option Job := s.jobs.find? fun j => j.id == id

/-! ### Claiming -/

/-- The pending records with their places in the store, oldest first. -/
def pendingByAge (s : Store) : List (Job × Nat) :=
  (s.jobs.zipIdx.filter fun p => p.1.status == .pending).mergeSort
    fun p q => p.1.createdAt.le q.1.createdAt

/-- **The oldest pending jobs become scheduled**, at most `limit` of them; they are returned in the
order of their creation, as they are after the move. -/
def claimPending (s : Store) (limit : Nat) (now : Timestamp) : List Job × Store :=
  let chosen := s.pendingByAge.take limit
  let places := chosen.map Prod.snd
  (chosen.map fun p => p.1.claimed now,
    ⟨s.jobs.mapIdx fun i j => if places.contains i then j.claimed now else j⟩)

/-- All scheduled jobs become pending again; their number is returned. -/
def resetScheduled (s : Store) : Nat × Store :=
  (s.jobs.countP fun j => j.status == .scheduled,
    ⟨s.jobs.map fun j => if j.status == .scheduled then j.unclaimed else j⟩)

/-! ### Moves of one job -/

/-- Changes the first record with the given id. -/
def updateJobs (id : JobId) (change : Job → Except StoreError Job) :
    List Job → Except StoreError (List Job)
  | [] => .error (.jobNotFound id)
  | j :: js =>
    if j.id = id then (change j).map (· :: js) else (updateJobs id change js).map (j :: ·)

/-- Changes the record with the given id. -/
def update (s : Store) (id : JobId) (change : Job → Except StoreError Job) : Except StoreError Store :=
  (updateJobs id change s.jobs).map Store.mk

/-- A scheduled job starts to run; no other job can. -/
def start (s : Store) (id : JobId) (now : Timestamp) : Except StoreError Store :=
  s.update id fun j =>
    if j.status = .scheduled then .ok (j.started now) else .error (.notScheduled id)

/-- A job has finished with a result. -/
def complete (s : Store) (id : JobId) (result : Json) (now : Timestamp) : Except StoreError Store :=
  s.update id fun j => .ok (j.completed result now)

/-- An attempt has failed and another will follow. -/
def giveBack (s : Store) (id : JobId) (retryCount : UInt16) (error : String) :
    Except StoreError Store :=
  s.update id fun j => .ok (j.returned retryCount error)

/-- The last attempt of a job has failed. -/
def exhaust (s : Store) (id : JobId) (retryCount : UInt16) (error : String) (now : Timestamp) :
    Except StoreError Store :=
  s.update id fun j => .ok (j.exhausted retryCount error now)

/-- A pending or scheduled job is cancelled; no other job can be. -/
def cancel (s : Store) (id : JobId) (now : Timestamp) : Except StoreError Store :=
  s.update id fun j =>
    if j.status.isCancellable then .ok (j.cancelled now)
    else .error (.notCancellable id j.status)

@[simp] theorem jobs_insert (s : Store) (new : NewJob) (id : JobId) (now : Timestamp) :
    (s.insert new id now).jobs = s.jobs ++ [new.record id now] := rfl

@[simp] theorem length_claimPending (s : Store) (limit : Nat) (now : Timestamp) :
    (s.claimPending limit now).2.jobs.length = s.jobs.length := by
  simp [claimPending]

@[simp] theorem length_resetScheduled (s : Store) :
    s.resetScheduled.2.jobs.length = s.jobs.length := by
  simp [resetScheduled]

@[simp] theorem updateJobs_nil (id : JobId) (change : Job → Except StoreError Job) :
    updateJobs id change [] = .error (.jobNotFound id) := rfl

theorem updateJobs_cons_self (j : Job) (change : Job → Except StoreError Job) (js : List Job) :
    updateJobs j.id change (j :: js) = (change j).map (· :: js) := by
  simp [updateJobs]

theorem updateJobs_cons_of_ne {id : JobId} {j : Job} (h : j.id ≠ id)
    (change : Job → Except StoreError Job) (js : List Job) :
    updateJobs id change (j :: js) = (updateJobs id change js).map (j :: ·) := by
  simp [updateJobs, h]

end Store

end JobDispatch
