import JobDispatch.Files.Tree
import JobDispatch.Json.Value
import JobDispatch.Text.Quoted
import JobDispatch.Time.Span

/-!
# Handlers

A handler is a unit of work that a job can ask for: it turns the payload of the job into a result.
Handlers are found by the job's type.

## Main definitions

* `HandlerError` — the ways in which a handler can fail, and what is said about each.
* `HandlerOutcome` — how a run of a handler can end.
* `Handler` — a unit of work: what it does at its start, how long it then sleeps, and what it does
  after that.
* `HandlerRegistry` — handlers by job type.
-/

namespace JobDispatch

/-- The ways in which a handler can fail. -/
inductive HandlerError
  /-- The payload does not say what to do. -/
  | invalidPayload (reason : String)
  /-- A file could not be reached. -/
  | file (error : FileError)
  /-- The work could not be done. -/
  | failed (reason : String)
  deriving DecidableEq

/-- What is said about a failure. -/
def HandlerError.message : HandlerError → String
  | invalidPayload reason => "Invalid payload: " ++ reason
  | file error => error.message
  | failed reason => reason

/-- How a run of a handler can end. -/
inductive HandlerOutcome
  /-- With a result. -/
  | returned (result : Json)
  /-- With a failure. -/
  | failed (error : HandlerError)
  /-- In a panic; what is said about it is its own message, or else what whoever ran it says. -/
  | panicked (message : String)
  /-- It was stopped from outside. -/
  | cancelled

/-- A run of a handler that has begun, over a world `ω`. -/
structure HandlerRun (ω : Type) where
  /-- How long it sleeps. -/
  sleep : Span
  /-- What it does after that. -/
  finish : ω → HandlerOutcome × ω

/-- A unit of work over a world `ω`: what it does with a payload. -/
abbrev Handler (ω : Type) := Json → ω → HandlerRun ω × ω

namespace HandlerRun

/-- A run that ends at once. -/
def ended {ω : Type} (outcome : HandlerOutcome) : HandlerRun ω := ⟨Span.zero, fun w => (outcome, w)⟩

/-- A run that ends at once, with a result or a failure. -/
def ofExcept {ω : Type} : Except HandlerError Json → HandlerRun ω
  | .ok result => ended (.returned result)
  | .error e => ended (.failed e)

end HandlerRun

namespace Handler

/-- A handler over a part of a larger world. -/
def within {ω ω' : Type} (part : ω' → ω) (replace : ω → ω' → ω') (h : Handler ω) : Handler ω' :=
  fun payload w =>
    let (run, inner) := h payload (part w)
    (⟨run.sleep, fun w =>
      let (outcome, inner) := run.finish (part w)
      (outcome, replace inner w)⟩, replace inner w)

end Handler

/-- Handlers by job type, in the order of the types. -/
structure HandlerRegistry (ω : Type) where
  handlers : List (String × Handler ω) := []

namespace HandlerRegistry

variable {ω : Type}

/-- A registry without handlers. -/
def empty : HandlerRegistry ω := {}

/-- Sets the handler of a job type. -/
def register (r : HandlerRegistry ω) (jobType : String) (h : Handler ω) : HandlerRegistry ω :=
  ⟨Dictionary.insert jobType h r.handlers⟩

/-- The handler of a job type. -/
def find? (r : HandlerRegistry ω) (jobType : String) : Option (Handler ω) :=
  Dictionary.find? jobType r.handlers

/-- The job types, in order. -/
def jobTypes (r : HandlerRegistry ω) : List String := Dictionary.names r.handlers

/-- How a registry is shown: by its job types. -/
def shown (r : HandlerRegistry ω) : String :=
  "HandlerRegistry \x7b job_types: " ++ Text.quoteList r.jobTypes ++ " \x7d"

/-- All handlers, over a larger world. -/
def within {ω' : Type} (part : ω' → ω) (replace : ω → ω' → ω') (r : HandlerRegistry ω) :
    HandlerRegistry ω' :=
  ⟨r.handlers.map fun h => (h.1, h.2.within part replace)⟩

end HandlerRegistry

end JobDispatch
