/-!
# Job status

Where a job stands in its life:

```text
PENDING --claimed--> SCHEDULED --started--> RUNNING --success--> COMPLETED
                                            RUNNING --failure, retries left--> PENDING
                                            RUNNING --failure, no retry left--> FAILED
```

A job that is PENDING or SCHEDULED can be cancelled, which makes it FAILED.

## Main definitions

* `JobStatus` — the six states.
* `JobStatus.ofText?` — the state that a text names, in any case of its letters.
-/

namespace JobDispatch

/-- Where a job stands in its life. -/
inductive JobStatus
  /-- Waiting to be claimed by the engine. -/
  | pending
  /-- Claimed: in the active policy or on the ready queue. -/
  | scheduled
  /-- Being executed. -/
  | running
  /-- Finished with a result. -/
  | completed
  /-- Out of retries, or cancelled. -/
  | failed
  /-- Reserved: a failed job goes straight back to `pending`. -/
  | retried
  deriving DecidableEq, Inhabited

namespace JobStatus

/-- All states, in the order of a life. -/
def all : List JobStatus := [pending, scheduled, running, completed, failed, retried]

/-- The name of a state. -/
def text : JobStatus → String
  | pending => "PENDING"
  | scheduled => "SCHEDULED"
  | running => "RUNNING"
  | completed => "COMPLETED"
  | failed => "FAILED"
  | retried => "RETRIED"

instance : ToString JobStatus := ⟨text⟩

/-- Whether a job in this state can be cancelled. -/
def isCancellable : JobStatus → Bool
  | pending | scheduled => true
  | _ => false

/-- Whether a job's life ends in this state. -/
def isTerminal : JobStatus → Bool
  | completed | failed => true
  | _ => false

/-- The state with exactly this name. -/
def named? (s : String) : Option JobStatus := all.find? fun st => st.text == s

/-- The state that a text names, whatever the case of its letters. -/
def ofText? (s : String) : Option JobStatus :=
  all.find? fun st => st.text.toList == s.toList.map Char.toUpper

/-- A text that names no state. -/
structure Unknown where
  text : String
  deriving DecidableEq

/-- What is said about a text that names no state. -/
def Unknown.message (e : Unknown) : String := "Unknown job status: " ++ e.text

/-- The state that a text names, or the complaint about it. -/
def parse (s : String) : Except Unknown JobStatus :=
  match ofText? s with
  | some st => .ok st
  | none => .error ⟨s⟩

theorem named?_text (st : JobStatus) : named? st.text = some st := by cases st <;> decide

theorem not_isCancellable_of_isTerminal {st : JobStatus} (h : st.isTerminal = true) :
    st.isCancellable = false := by
  cases st <;> simp_all [isTerminal, isCancellable]

end JobStatus

end JobDispatch
