import JobDispatch.Execution.Basic

/-!
# Executing without interruption

## Main definitions

* `Execution.perform` — an execution from its start to its end, its handler included.
-/

namespace JobDispatch

namespace Execution

variable {σ ω : Type}

/-- A handler from its start to its end: how it ended, how long it slept, and the world after it. -/
def handle (h : Handler ω) (payload : Json) (w : ω) : HandlerOutcome × Span × ω :=
  let (run, w) := h payload w
  let (outcome, w) := run.finish w
  (outcome, run.sleep, w)

/-- The outcome of an execution that has ended. -/
def outcome? : Execution → Option ExecutionOutcome
  | finished outcome => some outcome
  | _ => none

/-- **An execution of a job from its start to its end**, over the services and the handlers' world. -/
def perform (v : Services σ) (handlers : HandlerRegistry ω) (id : JobId) (s : σ) (w : ω) :
    Execution × σ × ω :=
  let (x, s) := settle v handlers.jobTypes (loading id) s
  match x.work? with
  | none => (x, s, w)
  | some job =>
    match handlers.find? job.jobType with
    | none => (x, s, w)
    | some h =>
      let (outcome, slept, w) := handle h job.payload w
      let (x, s) := settle v handlers.jobTypes (x.resume outcome slept) s
      (x, s, w)

end Execution

end JobDispatch
