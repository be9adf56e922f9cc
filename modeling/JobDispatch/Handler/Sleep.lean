import JobDispatch.Handler.Basic
import JobDispatch.Number.Layout

/-!
# Sleeping

The handler `sleep` waits for as many seconds as its payload asks for, and fails as often as the
payload asks for; whether it fails is decided before it sleeps.

## Main definitions

* `Sleep.plan` — what a payload asks for.
* `Sleep.begin` — the run of a payload, given a number drawn from those between zero and one.
-/

namespace JobDispatch

namespace Sleep

/-- A number of the payload; one that is missing or null is `fallback`. -/
def number (payload : Json) (key : String) (fallback : Double) : Except HandlerError Double :=
  match payload.field? key with
  | none => .ok fallback
  | some .null => .ok fallback
  | some v =>
    match v.double? with
    | some x => .ok x
    | none => .error (.invalidPayload ("'" ++ key ++ "' must be a number"))

/-- What a payload asks for: the seconds, the same as a span, and how likely a failure is. -/
structure Plan where
  seconds : Double
  span : Span
  failProbability : Double

/-- What a payload asks for. -/
def plan (payload : Json) : Except HandlerError Plan := do
  let seconds ← number payload "duration" Double.one
  let failProbability ← number payload "fail_probability" Double.zero
  match Span.ofSeconds? seconds with
  | some span => return ⟨seconds, span, failProbability⟩
  | none =>
    throw (.invalidPayload ("'duration' must be a non-negative number of seconds, got " ++
      seconds.messageText))

/-- The failure that was asked for. -/
def simulatedFailure (probability : Double) : HandlerError :=
  .failed ("Simulated failure (fail_probability=" ++ probability.messageText ++ ")")

/-- What is returned after the sleep. -/
def result (p : Plan) : Json :=
  Json.ofFields
    [("slept_for", Json.ofDouble p.seconds),
     ("message", .string ("Completed sleep of " ++ p.seconds.messageText ++ "s"))]

/-- **The run of a payload.**  It fails if the number drawn is below the probability of failure. -/
def begin {ω : Type} (draw : Double) (payload : Json) : HandlerRun ω :=
  match plan payload with
  | .error e => HandlerRun.ended (.failed e)
  | .ok p =>
    if draw.lessThan p.failProbability then
      HandlerRun.ended (.failed (simulatedFailure p.failProbability))
    else ⟨p.span, fun w => (.returned (result p), w)⟩

end Sleep

end JobDispatch
