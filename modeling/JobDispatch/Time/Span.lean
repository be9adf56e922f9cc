import JobDispatch.Number.Double

/-!
# Spans of time

A span is a whole number of nanoseconds, just under `2 ^ 64` seconds at most.  A reading of a clock is the
span since some fixed moment.

## Main definitions

* `Span` — a number of nanoseconds; `Span.longest`, the greatest.
* `Span.ofSeconds?` — a number of seconds, rounded to the nearest nanosecond.
* `Span.toSeconds` — a number of seconds as a double.
* `Span.hasDeadline` — whether the end of a wait can be told.
-/

namespace JobDispatch

/-- A span of time, in nanoseconds. -/
structure Span where
  nanos : Nat
  deriving DecidableEq, Inhabited

namespace Span

/-- No time at all. -/
def zero : Span := ⟨0⟩

/-- The longest span: a nanosecond less than `2 ^ 64` seconds. -/
def longest : Span := ⟨Nat.pow 2 64 * 1000000000 - 1⟩

/-- Whole seconds. -/
def seconds (n : Nat) : Span := ⟨n * 1000000000⟩

/-- Whole milliseconds. -/
def millis (n : Nat) : Span := ⟨n * 1000000⟩

/-- Whole microseconds. -/
def micros (n : Nat) : Span := ⟨n * 1000⟩

/-- The longer of two spans. -/
def max (a b : Span) : Span := ⟨Nat.max a.nanos b.nanos⟩

/-- The whole milliseconds that a span fills or begins. -/
def ceilMillis (s : Span) : Nat := (s.nanos + 999999) / 1000000

/-- **Seconds to a span.**  A number of seconds is rounded to the nearest nanosecond, a tie to the
even one, on the exact value of the double.  Negative numbers, NaNs and `2 ^ 64` seconds or more are
no span; minus zero is. -/
def ofSeconds? (x : Double) : Option Span :=
  if !x.isFinite || (x.isNegative && !x.isZero) then none
  else if Nat.pow 2 64 * Double.unitsPerOne ≤ x.units then none
  else some ⟨roundDiv (x.units * 1000000000) Double.unitsPerOne⟩

/-- A number of seconds as a double.  The whole seconds and the part of a second are rounded each for
itself, and their sum once more. -/
def toSeconds (s : Span) : Double :=
  (Double.ofNat (s.nanos / 1000000000)).add
    ((Double.ofNat (s.nanos % 1000000000)).div (Double.ofNat 1000000000))

/-- The first second that lies too far in the future for a deadline. -/
def endOfTime : Nat := Nat.pow 2 63

/-- Whether the end of a wait that begins at `now` can be told. -/
def hasDeadline (now timeout : Span) : Bool :=
  decide ((now.nanos + timeout.nanos) / 1000000000 < endOfTime)

@[simp] theorem max_nanos (a b : Span) : (a.max b).nanos = Nat.max a.nanos b.nanos := rfl

end Span

end JobDispatch
