import JobDispatch.Proofs.Pool.Slots
import JobDispatch.Proofs.Settings.Acceptance

/-!
# When a pool breaks down

The dispatcher of a pool can count its slots up to a limit and can tell the end of a wait up to a certain
second.  The builders of a configuration see to it that there are slots and that waits and ticks take
their time, and set no upper limits.  So a pool breaks down at its start if it has too many slots, and
later on when it begins a wait whose end cannot be told, and never otherwise.  Once it has broken down it
takes no message any more.

## Main definitions

* `PoolRun.Overlong` — the dispatcher is about to begin a wait whose end cannot be told.
* `PoolRun.Withstands` — no run breaks a pool down as long as the clock does not go beyond a point.

## Main results

* `PoolRun.broken_step_iff`, `PoolRun.broken_run_iff` — **when a dispatcher breaks down.**
* `PoolRun.run_of_broken` — one that has broken down takes nothing any more.
* `PoolRun.withstands_iff` — **the configurations that no run breaks down.**
* `PoolRun.withstands_iff_of_settings` — of settings only the pool size matters.
* `PoolRun.breaks_down_exactly` — **what the limits of the background loops come to.**
-/

namespace JobDispatch

/-- The time from one tick to the next is never empty. -/
theorem EngineConfig.tickInterval_ne_zero (c : EngineConfig) : c.tickInterval ≠ Span.zero := by
  intro h
  have hpos := c.millis_le_tickInterval
  rw [h] at hpos
  cases hpos

namespace PoolRun

variable {c : PoolConfig} {s : PoolRun} {e : PoolMove} {es : List PoolMove} {now latest : Span}
variable {handlers : List String} {shared : Shared}

/-! ### One move -/

/-- **The dispatcher is about to begin a wait whose end cannot be told**: it looks for a slot, is not to
end, and a slot is free. -/
structure Overlong (s : PoolRun) (now : Span) : Prop where
  acquiring : s.pool.dispatcher = .acquiring
  working : s.pool.isStopping = false
  free : 0 < s.pool.free
  late : Span.hasDeadline now s.pool.config.popTimeout = false

/-- It then breaks down. -/
theorem Overlong.broken (h : s.Overlong now) : (s.step (.acquire now)).pool.dispatcher = .broken := by
  simp [step, Pool.acquire, h.acquiring, h.working, h.free, h.late]

/-- A dispatcher breaks down in no other way. -/
theorem Overlong.of_broken (h : (s.step (.acquire now)).pool.dispatcher = .broken)
    (hbefore : s.pool.dispatcher ≠ .broken) : s.Overlong now := by
  simp only [step, Pool.acquire] at h
  split at h
  · next hacquiring =>
    split at h
    · cases h
    · next hworking =>
      split at h
      · next hfree =>
        split at h
        · cases h
        · next hlate => exact ⟨hacquiring, by simpa using hworking, hfree, by simpa using hlate⟩
      · exact absurd h hbefore
  · exact absurd h hbefore

/-- A dispatcher that has broken down stays so and takes nothing. -/
theorem step_of_broken (h : s.pool.dispatcher = .broken) (e : PoolMove) :
    (s.step e).pool.dispatcher = .broken ∧ (s.step e).taken = s.taken := by
  have heffect := step_effect s e
  generalize s.step e = s' at heffect
  cases heffect with
  | elsewhere => exact ⟨h, rfl⟩
  | turned he p hp => exact ⟨hp.stays_broken h, rfl⟩
  | broke now he hp => exact absurd (h.symm.trans hp) (by decide)
  | handed he hp => exact absurd (h.symm.trans hp) (by decide)
  | discarded he hp => exact absurd (h.symm.trans hp) (by decide)
  | advanced => exact ⟨h, rfl⟩
  | left => exact ⟨h, rfl⟩

/-- **A dispatcher has broken down after a move exactly if it had before or begins a wait whose end
cannot be told.** -/
theorem broken_step_iff : (s.step e).pool.dispatcher = .broken ↔
    s.pool.dispatcher = .broken ∨ ∃ now, e = .acquire now ∧ s.Overlong now := by
  constructor
  · intro h
    by_cases hbefore : s.pool.dispatcher = .broken
    · exact Or.inl hbefore
    · rcases broken_step h with hbroken | ⟨now, rfl, -⟩
      · exact absurd hbroken hbefore
      · exact Or.inr ⟨now, rfl, .of_broken h hbefore⟩
  · rintro (hbefore | ⟨now, rfl, hlong⟩)
    · exact (step_of_broken hbefore e).1
    · exact hlong.broken

/-! ### Runs -/

theorem run_append (s : PoolRun) (es fs : List PoolMove) : s.run (es ++ fs) = (s.run es).run fs :=
  List.foldl_append

/-- **A dispatcher that has broken down takes nothing any more.** -/
theorem run_of_broken (h : s.pool.dispatcher = .broken) (es : List PoolMove) :
    (s.run es).pool.dispatcher = .broken ∧ (s.run es).taken = s.taken := by
  induction es generalizing s with
  | nil => exact ⟨h, rfl⟩
  | cons e es ih =>
    obtain ⟨hbroken, htaken⟩ := step_of_broken h e
    obtain ⟨hbroken', htaken'⟩ := ih hbroken
    exact ⟨hbroken', htaken'.trans htaken⟩

/-- **A dispatcher has broken down in a run exactly if it had before or has begun a wait whose end could
not be told.** -/
theorem broken_run_iff : (s.run es).pool.dispatcher = .broken ↔ s.pool.dispatcher = .broken ∨
    ∃ earlier now later, es = earlier ++ .acquire now :: later ∧ (s.run earlier).Overlong now := by
  constructor
  · intro h
    induction es generalizing s with
    | nil => exact Or.inl h
    | cons e es ih =>
      rcases ih h with hfirst | ⟨earlier, now, later, rfl, hlong⟩
      · rcases broken_step_iff.mp hfirst with hbefore | ⟨now, rfl, hlong⟩
        · exact Or.inl hbefore
        · exact Or.inr ⟨[], now, es, rfl, hlong⟩
      · exact Or.inr ⟨e :: earlier, now, later, rfl, hlong⟩
  · rintro (hbefore | ⟨earlier, now, later, rfl, hlong⟩)
    · exact (run_of_broken hbefore es).1
    · rw [run_append, run_cons]
      exact (run_of_broken hlong.broken later).1

/-- A pool has broken down at its start exactly if it has too many slots. -/
theorem broken_start_iff :
    (start c handlers shared).pool.dispatcher = .broken ↔ Pool.maxSlots < c.size := by
  rw [start, Pool.start]
  split
  · next hsize => exact iff_of_false (by simp) (Nat.not_lt_of_le hsize)
  · next hsize => exact iff_of_true rfl (Nat.lt_of_not_le hsize)

/-- At its start, a pool that has not broken down looks for a slot, and all of them are free. -/
theorem overlong_start (handlers : List String) (shared : Shared) (hsize : c.size ≤ Pool.maxSlots)
    (hlate : Span.hasDeadline now c.popTimeout = false) :
    (start c handlers shared).Overlong now where
  acquiring := if_pos hsize
  working := rfl
  free := c.one_le_size
  late := hlate

/-! ### Configurations -/

/-- **No run breaks a pool down** as long as the clock does not go beyond `latest`. -/
def Withstands (c : PoolConfig) (latest : Span) : Prop :=
  ∀ handlers shared es, (∀ now, .acquire now ∈ es → now.nanos ≤ latest.nanos) →
    ((start c handlers shared).run es).pool.dispatcher ≠ .broken

/-- If the end of a wait can be told, so can that of one that begins before. -/
theorem hasDeadline_of_le {timeout : Span} (h : Span.hasDeadline latest timeout = true)
    (hnow : now.nanos ≤ latest.nanos) : Span.hasDeadline now timeout = true := by
  simp only [Span.hasDeadline, decide_eq_true_eq] at *
  omega

/-- **The configurations that no run breaks down**: the slots can be counted, and the end of a wait can
be told up to the last moment. -/
theorem withstands_iff : Withstands c latest ↔
    c.size ≤ Pool.maxSlots ∧ Span.hasDeadline latest c.popTimeout = true := by
  constructor
  · intro h
    have hsize : c.size ≤ Pool.maxSlots := by
      by_contra hlarge
      have hstart := h [] {} [] fun now hnow => absurd hnow List.not_mem_nil
      exact hstart (broken_start_iff.mpr (Nat.lt_of_not_le hlarge))
    refine ⟨hsize, ?_⟩
    by_contra hlate
    have hlong := overlong_start [] {} hsize (Bool.eq_false_iff.mpr hlate)
    refine h [] {} [.acquire latest] (fun now hnow => ?_) hlong.broken
    obtain rfl := PoolMove.acquire.inj (List.mem_singleton.mp hnow)
    exact Nat.le_refl _
  · rintro ⟨hsize, hdeadline⟩ handlers shared es hclock hbroken
    rcases broken_run_start hbroken with hlarge | ⟨now, hnow, hlate⟩
    · exact Nat.not_lt_of_le hsize hlarge
    · rw [hasDeadline_of_le hdeadline (hclock now hnow)] at hlate
      cases hlate

/-- **Of settings that are accepted only the pool size matters**, as long as the clock can tell the next
second. -/
theorem withstands_iff_of_settings {env : Settings.Environment} {s : Settings}
    (h : Settings.read env = .ok s) (hdeadline : Span.hasDeadline latest (Span.seconds 1) = true) :
    Withstands s.poolConfig latest ↔ s.poolSize ≤ Pool.maxSlots := by
  have hfits := (Settings.Carries.of_read h).fits
  rw [withstands_iff, hfits.size, hfits.popTimeout, hdeadline, and_iff_left rfl]

/-- **What the limits of the background loops come to.**  The time from one tick of the engine to the
next is never empty.  A pool has broken down exactly if it has too many slots or its dispatcher has begun
a wait whose end could not be told, and then it takes nothing any more.  So as long as the clock does not
go beyond some point, no run breaks down the pool of a configuration exactly if its slots can be counted
and the end of a wait can be told up to there; of settings that are accepted, exactly if the pool size can
be counted. -/
theorem breaks_down_exactly (c : PoolConfig) (handlers : List String) (shared : Shared)
    (es : List PoolMove) :
    let first := start c handlers shared
    (∀ d : EngineConfig, d.tickInterval ≠ Span.zero) ∧
    ((first.run es).pool.dispatcher = .broken ↔ Pool.maxSlots < c.size ∨
      ∃ earlier now later, es = earlier ++ .acquire now :: later ∧
        (first.run earlier).Overlong now) ∧
    ((first.run es).pool.dispatcher = .broken → ∀ fs, (first.run (es ++ fs)).pool.dispatcher = .broken ∧
      (first.run (es ++ fs)).taken = (first.run es).taken) ∧
    (∀ latest, Withstands c latest ↔
      c.size ≤ Pool.maxSlots ∧ Span.hasDeadline latest c.popTimeout = true) ∧
    ∀ env s latest, Settings.read env = .ok s → Span.hasDeadline latest (Span.seconds 1) = true →
      (Withstands s.poolConfig latest ↔ s.poolSize ≤ Pool.maxSlots) := by
  refine ⟨EngineConfig.tickInterval_ne_zero, ?_, fun hbroken fs => ?_, fun latest => withstands_iff,
    fun env s latest => withstands_iff_of_settings⟩
  · rw [broken_run_iff, broken_start_iff]
  · rw [run_append]
    exact run_of_broken hbroken fs

/-- Every number that is at least one is accepted as a pool size. -/
theorem read_poolSize (text : String) (n : Nat)
    (h : Numeral.whole? Settings.maxNumber (Text.trim text.toList) = some n) (hn : 1 ≤ n) :
    ∃ s, Settings.read (Settings.setting [("WORKER_POOL_SIZE", text)]) = .ok s ∧ s.poolSize = n := by
  have hfine : ∀ v, Settings.Fine (Settings.setting [("WORKER_POOL_SIZE", text)]) v := by
    rintro (_ | _ | _ | _ | _) value hvalue
    · obtain rfl := Option.some.inj hvalue
      exact ⟨n, .count n h hn⟩
    all_goals cases hvalue
  obtain ⟨s, hs⟩ := Settings.exists_read_of_fine hfine
  have hsize : Settings.Demand.count.Means text s.poolSize :=
    (Settings.Carries.of_read hs).given .poolSize
  refine ⟨s, hs, ?_⟩
  cases hsize with
  | count _ h' => exact Option.some.inj (h'.symm.trans h)

/-- The largest pool that can be counted works from the first second to the last but one. -/
theorem withstands_of_largestPool :
    ∃ s, Settings.read (Settings.setting [("WORKER_POOL_SIZE", "2305843009213693951")]) = .ok s ∧
      Withstands s.poolConfig (Span.seconds (2 ^ 63 - 2)) := by
  obtain ⟨s, hs, hsize⟩ := read_poolSize "2305843009213693951" 2305843009213693951
    (by decide +kernel) (by decide)
  obtain ⟨-, -, -, -, haccepted⟩ := breaks_down_exactly s.poolConfig [] {} []
  refine ⟨s, hs, (haccepted _ s _ hs (by decide +kernel)).mpr ?_⟩
  rw [hsize]
  decide +kernel

/-- **A pool with one slot more is accepted, and takes no message in any run**; and a pool that waits for
the longest time breaks down when it begins to wait, at whatever time. -/
theorem broken_of_largerPool :
    (∃ s, Settings.read (Settings.setting [("WORKER_POOL_SIZE", "2305843009213693952")]) = .ok s ∧
      ∀ handlers shared es, ((start s.poolConfig handlers shared).run es).pool.dispatcher = .broken ∧
        ((start s.poolConfig handlers shared).run es).taken = []) ∧
    ∀ handlers shared now, ((start (({} : PoolConfig).withPopTimeout Span.longest) handlers shared).run
      [.acquire now]).pool.dispatcher = .broken := by
  constructor
  · obtain ⟨s, hs, hsize⟩ := read_poolSize "2305843009213693952" 2305843009213693952
      (by decide +kernel) (by decide)
    have hlarge : Pool.maxSlots < s.poolConfig.size := by
      rw [(Settings.Carries.of_read hs).fits.size, hsize]
      decide +kernel
    exact ⟨s, hs, fun handlers shared es => run_of_broken (broken_start_iff.mpr hlarge) es⟩
  · intro handlers shared now
    have hlate : Span.hasDeadline now (({} : PoolConfig).withPopTimeout Span.longest).popTimeout
        = false := by
      have htimeout : (({} : PoolConfig).withPopTimeout Span.longest).popTimeout = Span.longest := by
        decide +kernel
      rw [htimeout]
      refine decide_eq_false ?_
      simp only [Span.endOfTime, Span.longest, Nat.pow_eq]
      omega
    exact (overlong_start handlers shared (by decide +kernel) hlate).broken

end PoolRun

end JobDispatch
