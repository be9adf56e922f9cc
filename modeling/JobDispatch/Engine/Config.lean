import JobDispatch.Time.Span

/-!
# Configuration of the engine

## Main definitions

* `EngineConfig` — how often the engine ticks, how much it takes up at a time, and its first policy.
-/

namespace JobDispatch

/-- How the engine works. -/
structure EngineConfig where
  /-- The time from one tick to the next. -/
  tickInterval : Span := Span.millis 500
  /-- The most jobs that are claimed in one tick. -/
  batchSize : Nat := 50
  /-- The policy that is used until another is wanted. -/
  defaultPolicy : String := "fcfs"
  /-- Whether jobs without a message become pending again at the start. -/
  recoverOnStart : Bool := true
  millis_le_tickInterval : (Span.millis 1).nanos ≤ tickInterval.nanos := by decide
  one_le_batchSize : 1 ≤ batchSize := by decide
  deriving DecidableEq

namespace EngineConfig

/-- The shortest time from one tick to the next. -/
def minTickInterval : Span := Span.millis 1

/-- Sets the time between ticks; a shorter one than the shortest becomes that. -/
def withTickInterval (c : EngineConfig) (interval : Span) : EngineConfig :=
  { c with
    tickInterval := interval.max minTickInterval
    millis_le_tickInterval := Nat.le_max_right .. }

/-- Sets how many jobs are claimed in one tick, at least one. -/
def withBatchSize (c : EngineConfig) (size : Nat) : EngineConfig :=
  { c with batchSize := max size 1, one_le_batchSize := Nat.le_max_right .. }

/-- Sets the policy that is used until another is wanted. -/
def withDefaultPolicy (c : EngineConfig) (name : String) : EngineConfig :=
  { c with defaultPolicy := name }

/-- Sets whether jobs without a message become pending again at the start. -/
def withRecoverOnStart (c : EngineConfig) (recover : Bool) : EngineConfig :=
  { c with recoverOnStart := recover }

end EngineConfig

end JobDispatch
