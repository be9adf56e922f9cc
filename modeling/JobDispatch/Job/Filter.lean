import JobDispatch.Job.Basic

/-!
# Listing jobs

Jobs are listed page by page, newest first.  A filter narrows the list and names the page.

## Main definitions

* `JobFilter` — conditions on the jobs, a page and a page size within their limits.
* `JobFilter.offset` — how many matching jobs stand before the page.
* `JobPage`, `JobStats` — what a listing and a count of all jobs give.
-/

namespace JobDispatch

/-- Conditions on the jobs of a list, and the page that is wanted. -/
structure JobFilter where
  status : Option JobStatus := none
  jobType : Option String := none
  /-- The page, from 1. -/
  page : UInt32 := 1
  /-- How many jobs a page holds. -/
  pageSize : UInt32 := 20
  one_le_page : 1 ≤ page := by decide
  one_le_pageSize : 1 ≤ pageSize := by decide
  pageSize_le : pageSize ≤ 100 := by decide
  deriving DecidableEq

namespace JobFilter

/-- The filter that every job matches, at its first page. -/
def everything : JobFilter := {}

/-- Only jobs in the given state. -/
def withStatus (f : JobFilter) (status : JobStatus) : JobFilter := { f with status := some status }

/-- Only jobs of the given type. -/
def withJobType (f : JobFilter) (jobType : String) : JobFilter := { f with jobType := some jobType }

/-- Selects a page; anything below the first page is the first page. -/
def atPage (f : JobFilter) (page : UInt32) : JobFilter :=
  if h : 1 ≤ page then { f with page := page, one_le_page := h }
  else { f with page := 1, one_le_page := by decide }

/-- Sets the page size to the nearest one between 1 and 100. -/
def withPageSize (f : JobFilter) (size : UInt32) : JobFilter :=
  if h : 1 ≤ size then
    if h' : size ≤ 100 then { f with pageSize := size, one_le_pageSize := h, pageSize_le := h' }
    else { f with pageSize := 100, one_le_pageSize := by decide, pageSize_le := by decide }
  else { f with pageSize := 1, one_le_pageSize := by decide, pageSize_le := by decide }

/-- How many matching jobs stand before the page. -/
def offset (f : JobFilter) : UInt64 := (f.page - 1).toUInt64 * f.pageSize.toUInt64

/-- Whether a job meets the conditions. -/
def isMatch (f : JobFilter) (j : Job) : Bool :=
  (match f.status with
    | some status => j.status == status
    | none => true) &&
  (match f.jobType with
    | some jobType => j.jobType == jobType
    | none => true)

@[simp] theorem isMatch_everything (j : Job) : everything.isMatch j = true := rfl

end JobFilter

/-- A page of jobs, and how many jobs match in all. -/
structure JobPage where
  jobs : List Job
  total : Nat
  page : UInt32
  pageSize : UInt32

/-- How many jobs there are, in all and in each state. -/
structure JobStats where
  total : Nat := 0
  pending : Nat := 0
  scheduled : Nat := 0
  running : Nat := 0
  completed : Nat := 0
  failed : Nat := 0
  /-- The mean time from start to completion of the completed jobs, in milliseconds. -/
  avgExecutionTimeMs : Option Double := none
  deriving DecidableEq

end JobDispatch
