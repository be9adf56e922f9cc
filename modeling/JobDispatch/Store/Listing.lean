import JobDispatch.Job.Filter
import JobDispatch.Store.Basic

/-!
# Listing and counting the records of a store

## Main definitions

* `Store.query` — one page of the matching jobs, newest first.
* `Store.stats` — how many jobs there are in each state, and their mean run time.
-/

namespace JobDispatch

/-- The counts with one more job in the given state; a job that is retried has no count. -/
def JobStats.tally (counts : JobStats) : JobStatus → JobStats
  | .pending => { counts with pending := counts.pending + 1 }
  | .scheduled => { counts with scheduled := counts.scheduled + 1 }
  | .running => { counts with running := counts.running + 1 }
  | .completed => { counts with completed := counts.completed + 1 }
  | .failed => { counts with failed := counts.failed + 1 }
  | .retried => counts

namespace Store

/-- The records that match a filter, newest first. -/
def newestFirst (s : Store) (f : JobFilter) : List Job :=
  (s.jobs.filter f.isMatch).mergeSort fun a b => b.createdAt.le a.createdAt

/-- **One page of the matching jobs**, newest first, and how many match in all. -/
def query (s : Store) (f : JobFilter) : JobPage :=
  let found := s.newestFirst f
  { jobs := (found.drop f.offset.toNat).take f.pageSize.toNat
    total := found.length
    page := f.page
    pageSize := f.pageSize }

/-! ### Counting -/

/-- How many records are in the given state. -/
def countIn (s : Store) (status : JobStatus) : Nat := s.jobs.countP fun j => j.status == status

/-- The whole microseconds of a number of nanoseconds; the largest number of 63 bits stands for those
that do not fit. -/
def wholeMicros (nanos : Int) : Int :=
  let micros := nanos.tdiv 1000
  if -9223372036854775808 ≤ micros ∧ micros ≤ 9223372036854775807 then micros
  else 9223372036854775807

/-- The time from start to completion of a completed job, in milliseconds, on whole microseconds. -/
def executionTimeMs? (j : Job) : Option Double :=
  match j.status, j.startedAt, j.completedAt with
  | .completed, some start, some stop =>
    some ((Double.ofInt (wholeMicros (stop.nanosSince start))).div (Double.ofNat 1000))
  | _, _, _ => none

/-- The mean of some numbers, if there are any. -/
def mean? (xs : List Double) : Option Double :=
  if xs.isEmpty then none
  else some ((xs.foldl Double.add Double.zero).div (Double.ofNat xs.length))

/-- The counts once the records have been gone through, one after the other. -/
def counted (counts : JobStats) (jobs : List Job) : JobStats :=
  jobs.foldl (fun counts j => counts.tally j.status) counts

/-- **How many jobs there are**, in all and in each state, and the mean run time of the completed ones. -/
def stats (s : Store) : JobStats :=
  { counted { total := s.jobs.length } s.jobs with
    avgExecutionTimeMs := mean? (s.jobs.filterMap executionTimeMs?) }

theorem total_query (s : Store) (f : JobFilter) :
    (s.query f).total = s.jobs.countP f.isMatch := by
  simp [query, newestFirst, List.countP_eq_length_filter]

end Store

end JobDispatch
