import JobDispatch.Time.Span

/-!
# Configuration of the pool

## Main definitions

* `PoolConfig` — how many jobs run at a time, how long an empty ready queue is waited on, and how long
  the pool pauses when the broker has failed.
-/

namespace JobDispatch

/-- How the pool works. -/
structure PoolConfig where
  /-- How many jobs run at a time. -/
  size : Nat := 4
  /-- How long an empty ready queue is waited on. -/
  popTimeout : Span := Span.seconds 1
  /-- How long the pool pauses when the broker has failed. -/
  errorBackoff : Span := Span.seconds 1
  one_le_size : 1 ≤ size := by decide
  tenMillis_le_popTimeout : (Span.millis 10).nanos ≤ popTimeout.nanos := by decide

namespace PoolConfig

/-- The shortest wait on an empty ready queue. -/
def minPopTimeout : Span := Span.millis 10

theorem one_le_max_one (n : Nat) : 1 ≤ max n 1 := Nat.le_max_right n 1

/-- Sets how many jobs run at a time, at least one. -/
def withSize (c : PoolConfig) (size : Nat) : PoolConfig :=
  { c with size := max size 1, one_le_size := one_le_max_one size }

/-- Sets how long an empty ready queue is waited on; a shorter time than the shortest becomes that. -/
def withPopTimeout (c : PoolConfig) (timeout : Span) : PoolConfig :=
  { c with
    popTimeout := timeout.max minPopTimeout
    tenMillis_le_popTimeout := Nat.le_max_right .. }

/-- Sets how long the pool pauses when the broker has failed. -/
def withErrorBackoff (c : PoolConfig) (backoff : Span) : PoolConfig :=
  { c with errorBackoff := backoff }

end PoolConfig

end JobDispatch
