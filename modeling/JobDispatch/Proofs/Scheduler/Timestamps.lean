import JobDispatch.Proofs.Job.Stamps
import JobDispatch.Proofs.Scheduler.Sound

/-!
# The points in time of a job's life

Four points in time are kept of a job: when it was created, first claimed, first started and ended.  The
store writes each of them only if it is not set, and looks at nothing else.  That they are in order is
due to the course of a life: what is not set yet is set behind all that is, because the states at which
something is written leave no room for a later point to be set already, and because the clock does not go
back.

## Main definitions

* `Job.stamps` — the points in time that are set, in the order of a life.
* `Job.Timed` — **the invariant**: the points are in order, lie in the past and fit the state.

## Main results

* `Job.Timed.of_stamps` — a point set now comes last.
* `Scheduler.Change.keeps`, `Scheduler.Change.timed` — a step keeps what is set and the invariant.
* `Scheduler.Sound.keeps_run`, `Scheduler.Sound.timed_run` — so does a run.
* `Scheduler.timestamps_ordered` — **in every run the points in time of a job are set once, in order, and
  fit its state.**
-/

namespace JobDispatch

namespace Job

variable {j k : Job} {now : Timestamp}

/-! ### The order of what is set -/

/-- The points in time that are set, in the order of a life. -/
def stamps (j : Job) : List Timestamp :=
  j.createdAt :: (j.scheduledAt.toList ++ j.startedAt.toList ++ j.completedAt.toList)

/-- **The points in time of a job are in order**, lie in the past and fit its state. -/
structure Timed (now : Timestamp) (j : Job) : Prop where
  ordered : j.stamps.Pairwise (· ≤ ·)
  past : ∀ t ∈ j.stamps, t ≤ now
  /-- A job that was started, by this or an earlier attempt, was claimed before. -/
  scheduled : j.status = .scheduled ∨ j.startedAt.isSome = true → j.scheduledAt.isSome = true
  running : j.status = .running ∨ j.status = .completed → j.startedAt.isSome = true
  ended : j.completedAt.isSome = true ↔ j.status = .completed ∨ j.status = .failed

namespace Timed

/-- As time goes by the past grows. -/
theorem later {later : Timestamp} (h : j.Timed now) (hle : now ≤ later) : j.Timed later :=
  ⟨h.ordered, fun t ht => Timestamp.le_trans (h.past t ht) hle, h.scheduled, h.running, h.ended⟩

/-- **A point that is set now comes last.** -/
theorem of_stamps (h : j.Timed now) (hs : k.stamps = j.stamps ∨ k.stamps = j.stamps ++ [now]) :
    k.stamps.Pairwise (· ≤ ·) ∧ ∀ t ∈ k.stamps, t ≤ now := by
  rcases hs with hs | hs
  · rw [hs]
    exact ⟨h.ordered, h.past⟩
  · rw [hs, List.pairwise_append]
    refine ⟨⟨h.ordered, List.pairwise_singleton _ now, fun t ht t' ht' => ?_⟩, fun t ht => ?_⟩
    · rw [List.mem_singleton.mp ht']
      exact h.past t ht
    · rcases List.mem_append.mp ht with ht | ht
      · exact h.past t ht
      · rw [List.mem_singleton.mp ht]
        exact Timestamp.le_refl now

/-- A job whose life goes on has not ended. -/
theorem completedAt_eq_none (h : j.Timed now) (hj : j.status.isTerminal = false) :
    j.completedAt = none := by
  rw [← Option.not_isSome_iff_eq_none, h.ended]
  rintro (hs | hs) <;> simp [hs, JobStatus.isTerminal] at hj

/-- A job that was never claimed was never started. -/
theorem startedAt_eq_none (h : j.Timed now) (hj : j.scheduledAt = none) : j.startedAt = none := by
  rw [← Option.not_isSome_iff_eq_none]
  intro hs
  have hclaimed := h.scheduled (Or.inr hs)
  rw [hj] at hclaimed
  cases hclaimed

/-! ### Transitions -/

/-- A new job. -/
theorem record (new : NewJob) (id : JobId) (now : Timestamp) : (new.record id now).Timed now where
  ordered := List.pairwise_singleton _ _
  past := fun t ht => List.mem_singleton.mp ht ▸ Timestamp.le_refl now
  scheduled := by simp [NewJob.record]
  running := by simp [NewJob.record]
  ended := by simp [NewJob.record]

theorem claimed (h : j.Timed now) (hj : j.status = .pending) : (j.claimed now).Timed now := by
  have hcompleted := h.completedAt_eq_none (by rw [hj]; rfl)
  have hstamps : (j.claimed now).stamps = j.stamps ∨ (j.claimed now).stamps = j.stamps ++ [now] := by
    cases hs : j.scheduledAt with
    | some t => simp [stamps, Job.claimed, hs]
    | none => simp [stamps, Job.claimed, hs, h.startedAt_eq_none hs, hcompleted]
  obtain ⟨hordered, hpast⟩ := h.of_stamps hstamps
  exact ⟨hordered, hpast, fun _ => rfl, by simp, by simp [Job.claimed, hcompleted]⟩

theorem started (h : j.Timed now) (hj : j.status = .scheduled) : (j.started now).Timed now := by
  have hcompleted := h.completedAt_eq_none (by rw [hj]; rfl)
  have hstamps : (j.started now).stamps = j.stamps ∨ (j.started now).stamps = j.stamps ++ [now] := by
    cases hs : j.startedAt <;> simp [stamps, Job.started, hs, hcompleted]
  obtain ⟨hordered, hpast⟩ := h.of_stamps hstamps
  exact ⟨hordered, hpast, fun _ => h.scheduled (Or.inl hj), fun _ => rfl,
    by simp [Job.started, hcompleted]⟩

/-- A job that goes back to those that wait sets nothing. -/
theorem waiting (h : j.Timed now) (hj : j.status.isTerminal = false) (hk : k.status = .pending)
    (hcreated : k.createdAt = j.createdAt) (hscheduled : k.scheduledAt = j.scheduledAt)
    (hstarted : k.startedAt = j.startedAt) (hcompleted : k.completedAt = j.completedAt) :
    k.Timed now := by
  have hnone := h.completedAt_eq_none hj
  have hstamps : k.stamps = j.stamps := by
    rw [stamps, hcreated, hscheduled, hstarted, hcompleted, stamps]
  obtain ⟨hordered, hpast⟩ := h.of_stamps (Or.inl hstamps)
  refine ⟨hordered, hpast, ?_, by simp [hk], by simp [hk, hcompleted, hnone]⟩
  rw [hscheduled, hstarted]
  rintro (hs | hs)
  · simp [hk] at hs
  · exact h.scheduled (Or.inr hs)

/-- A job that ends sets the last point. -/
theorem ending (h : j.Timed now) (hj : j.status.isTerminal = false)
    (hk : k.status = .failed ∨ k.status = .completed ∧ j.status = .running)
    (hcreated : k.createdAt = j.createdAt) (hscheduled : k.scheduledAt = j.scheduledAt)
    (hstarted : k.startedAt = j.startedAt) (hcompleted : k.completedAt = some (j.completedAt.getD now)) :
    k.Timed now := by
  have hnone := h.completedAt_eq_none hj
  have hstamps : k.stamps = j.stamps ++ [now] := by
    rw [stamps, hcreated, hscheduled, hstarted, hcompleted, stamps, hnone]
    simp
  obtain ⟨hordered, hpast⟩ := h.of_stamps (Or.inr hstamps)
  refine ⟨hordered, hpast, ?_, ?_, ?_⟩
  · rw [hscheduled, hstarted]
    rintro (hs | hs)
    · rcases hk with hk | ⟨hk, -⟩ <;> simp [hk] at hs
    · exact h.scheduled (Or.inr hs)
  · rw [hstarted]
    intro hs
    rcases hk with hk | ⟨-, hrunning⟩
    · simp [hk] at hs
    · exact h.running (Or.inl hrunning)
  · rw [hcompleted]
    simp only [Option.isSome_some, true_iff]
    exact hk.symm.imp_left And.left

end Timed

end Job

/-! ### Steps -/

/-- A step of an execution keeps what is set. -/
theorem Execution.Advance.keeps {now : Timestamp} {handlers : List String} {j j' : Job}
    {x x' : Execution} (h : Advance now handlers (some j) x (some j') x') : j.Keeps j' := by
  cases h with
  | started job _ hj => exact Job.keeps_started now j
  | completed id result elapsed _ hj => exact Job.keeps_completed _ now j
  | exhausted e job error _ n hj hd => exact Job.keeps_exhausted n error now j
  | returned e id error _ n max hj hd => exact Job.keeps_returned n error j
  | _ => exact .refl j

/-- A step of an execution keeps the points in order. -/
theorem Execution.Advance.timed {now : Timestamp} {handlers : List String} {j j' : Job}
    {x x' : Execution} (h : Advance now handlers (some j) x (some j') x') (hj : j.Timed now) :
    j'.Timed now := by
  cases h with
  | started job _ hs => exact hj.started hs
  | completed id result elapsed _ hs =>
    exact hj.ending (by rw [hs]; rfl) (Or.inr ⟨rfl, hs⟩) rfl rfl rfl rfl
  | exhausted e job error _ n hs hd => exact hj.ending (by rw [hs]; rfl) (Or.inl rfl) rfl rfl rfl rfl
  | returned e id error _ n max hs hd => exact hj.waiting (by rw [hs]; rfl) rfl rfl rfl rfl rfl
  | _ => exact hj

namespace Scheduler

variable {s : Scheduler} {e : Event} {a : Timestamp}

/-- **A step keeps what is set.** -/
theorem Change.keeps {id : JobId} {j j' : Job} (h : Change s e id j j') : j.Keeps j' := by
  cases h with
  | kept => exact .refl j
  | claimed i l _ hm hl hp hs => exact Job.keeps_claimed _ j
  | reset i _ hm hr hs => exact Job.keeps_unclaimed j
  | cancelled i _ hm hc hs => exact Job.keeps_cancelled _ j
  | executed k d x _ _ hm hd hid ha => exact ha.keeps

/-- **A step keeps the points in order.** -/
theorem Change.timed {id : JobId} {j j' : Job} (h : Change s e id j j') (hj : j.Timed e.moment.now) :
    j'.Timed e.moment.now := by
  cases h with
  | kept => exact hj
  | claimed i l _ hm hl hp hs => exact hj.claimed hs
  | reset i _ hm hr hs => exact hj.waiting (by rw [hs]; rfl) rfl rfl rfl rfl rfl
  | cancelled i _ hm hc hs =>
    refine hj.ending ?_ (Or.inl rfl) rfl rfl rfl rfl
    cases hst : j.status <;> simp_all [JobStatus.isCancellable, JobStatus.isTerminal]
  | executed k d x _ _ hm hd hid ha => exact ha.timed hj

/-- The points in time of every job are in order, and none lies in the future. -/
def Timed (s : Scheduler) (now : Timestamp) : Prop := ∀ id j, s.record? id = some j → j.Timed now

/-- A step of a clock that does not go back keeps the points of every job in order. -/
theorem Timed.step (ht : s.Timed a) (hs : s.Sound) (he : e.StoreAnswers) (hle : a ≤ e.moment.now) :
    (s.step e).Timed e.moment.now := by
  intro id j' hj'
  cases hj : s.record? id with
  | none =>
    rcases record?_step_of_none hs.distinct hs.fitting he hj with hnone | ⟨new, -, hnew⟩
    · exact absurd (hnone.symm.trans hj') (by simp)
    · obtain rfl := Option.some.inj (hnew.symm.trans hj')
      exact Job.Timed.record new id e.moment.now
  | some j =>
    obtain ⟨i, hi, hchange⟩ := record?_step hs.distinct hs.fitting he hj
    obtain rfl := Option.some.inj (hi.symm.trans hj')
    exact hchange.timed ((ht id j hj).later hle)

/-! ### Runs -/

/-- **What is set stays set**, whatever the clock shows. -/
theorem Sound.keeps_run (hs : s.Sound) {es : List Event} (hes : ∀ e ∈ es, e.StoreAnswers) {id : JobId}
    {j : Job} (hj : s.record? id = some j) :
    ∃ j', (s.run es).record? id = some j' ∧ j.Keeps j' := by
  induction es generalizing s j with
  | nil => exact ⟨j, hj, .refl j⟩
  | cons e es ih =>
    have he : e.StoreAnswers := hes e List.mem_cons_self
    obtain ⟨i, hi, hchange⟩ := record?_step hs.distinct hs.fitting he hj
    obtain ⟨j', hj', hkeeps⟩ := ih (hs.step he) (fun f hf => hes f (List.mem_cons_of_mem e hf)) hi
    exact ⟨j', hj', hchange.keeps.trans hkeeps⟩

/-- **A clock that does not go back keeps the points of every job in order.** -/
theorem Sound.timed_run (hs : s.Sound) (ht : s.Timed a) {es : List Event}
    (hes : ∀ e ∈ es, e.StoreAnswers)
    (hclock : (a :: es.map fun e => e.moment.now).Pairwise (· ≤ ·)) : ∃ b, (s.run es).Timed b := by
  induction es generalizing s a with
  | nil => exact ⟨a, ht⟩
  | cons e es ih =>
    have he : e.StoreAnswers := hes e List.mem_cons_self
    rw [List.map_cons, List.pairwise_cons] at hclock
    have hle : a ≤ e.moment.now := hclock.1 _ List.mem_cons_self
    exact ih (hs.step he) (ht.step hs he hle) (fun f hf => hes f (List.mem_cons_of_mem e hf)) hclock.2

/-- At the start there is no job. -/
theorem timed_start (engines : List Engine) (now : Timestamp) : (start engines).Timed now :=
  fun _ _ hj => absurd hj (by simp [record?, Store.find?, start])

/-- **In every run the points in time of a job are set once, in order, and fit its state.**  Any parties
may take steps at any time, any number of attempts may fail, and jobs may be reset and cancelled; the
store can be reached, and the clock does not go back. -/
theorem timestamps_ordered (engines : List Engine) {es : List Event}
    (hes : ∀ e ∈ es, e.StoreAnswers)
    (hclock : (es.map fun e => e.moment.now).Pairwise (· ≤ ·)) (id : JobId) :
    ∀ fs gs, es = fs ++ gs → ∀ j, ((start engines).run fs).record? id = some j →
      j.stamps.Pairwise (· ≤ ·) ∧
      (j.completedAt.isSome = true ↔ j.status = .completed ∨ j.status = .failed) ∧
      (j.status = .scheduled → j.scheduledAt.isSome = true) ∧
      (j.status = .running ∨ j.status = .completed →
        j.scheduledAt.isSome = true ∧ j.startedAt.isSome = true) ∧
      ∃ j', ((start engines).run es).record? id = some j' ∧ j.Keeps j' := by
  rintro fs gs rfl j hj
  have hfs : ∀ e ∈ fs, e.StoreAnswers := fun e he => hes e (List.mem_append_left gs he)
  have hgs : ∀ e ∈ gs, e.StoreAnswers := fun e he => hes e (List.mem_append_right fs he)
  rw [List.map_append, List.pairwise_append] at hclock
  -- the job is in order at what the clock showed last
  obtain ⟨now, htimed⟩ : ∃ now, ((start engines).run fs).Timed now := by
    cases fs with
    | nil => exact ⟨default, timed_start engines default⟩
    | cons e fs =>
      refine (sound_start engines).timed_run (timed_start engines e.moment.now) hfs ?_
      rw [List.map_cons, List.pairwise_cons] at hclock ⊢
      refine ⟨?_, by simpa using hclock.1⟩
      intro t ht
      rcases List.mem_cons.mp ht with rfl | ht
      · exact Timestamp.le_refl _
      · exact hclock.1.1 t ht
  have hj' := htimed id j hj
  refine ⟨hj'.ordered, hj'.ended, fun h => hj'.scheduled (Or.inl h), fun h => ?_, ?_⟩
  · exact ⟨hj'.scheduled (Or.inr (hj'.running h)), hj'.running h⟩
  · rw [run_append]
    exact (sound_run engines hfs).keeps_run hgs hj

/-- A job with a second attempt fails for want of a handler and goes back to those that wait. -/
def returnedOnce : List Event :=
  [(Move.submit { NewJob.oneShot with maxRetries := 1 }).at 0, (Move.tick 0).at 1, (Move.tick 0).at 2,
    (Move.hand [] ⟨.nil, "report", 5, Double.one, .object []⟩).at 3, (Move.execute 0).at 4,
    (Move.execute 0).at 5, (Move.execute 0).at 6, (Move.execute 0).at 7]

/-- Then it is claimed again, and cancelled. -/
def claimedTwice : List Event :=
  returnedOnce ++ [(Move.tick 0).at 8, (Move.tick 0).at 9, (Move.tick 0).at 10, (Move.tick 0).at 11,
    (Move.tick 0).at 12, (Move.cancel .nil).at 13, (Move.pursue 0).at 14]

/-- The points that the first attempt has set are those of the end. -/
theorem stamps_of_claimedTwice :
    (∀ e ∈ claimedTwice, e.StoreAnswers) ∧
      (claimedTwice.map fun e => e.moment.now).Pairwise (· ≤ ·) ∧
      ∃ j j', ((start [.firstComeFirstServed]).run returnedOnce).record? .nil = some j ∧
        j.status = .pending ∧ j.stamps = [⟨0, 0⟩, ⟨2, 0⟩, ⟨5, 0⟩] ∧
        ((start [.firstComeFirstServed]).run claimedTwice).record? .nil = some j' ∧
        j'.status = .failed ∧ j'.stamps = [⟨0, 0⟩, ⟨2, 0⟩, ⟨5, 0⟩, ⟨14, 0⟩] ∧
        j.Keeps j' ∧ j'.stamps.Pairwise (· ≤ ·) := by
  have hanswers : ∀ e ∈ claimedTwice, e.StoreAnswers := by decide
  have hclock : (claimedTwice.map fun e => e.moment.now).Pairwise (· ≤ ·) := by decide
  have hbefore : (((start [.firstComeFirstServed]).run returnedOnce).record? .nil).map
      (fun j => (j.status, j.stamps)) = some (.pending, [⟨0, 0⟩, ⟨2, 0⟩, ⟨5, 0⟩]) := by
    decide +kernel
  have hafter : (((start [.firstComeFirstServed]).run claimedTwice).record? .nil).map
      (fun j => (j.status, j.stamps)) = some (.failed, [⟨0, 0⟩, ⟨2, 0⟩, ⟨5, 0⟩, ⟨14, 0⟩]) := by
    decide +kernel
  obtain ⟨j, hj, hseen⟩ := Option.map_eq_some_iff.mp hbefore
  obtain ⟨hpending, hstamps⟩ := Prod.mk.inj hseen
  have htimes := timestamps_ordered [.firstComeFirstServed] hanswers hclock .nil
  obtain ⟨-, -, -, -, j', hj', hkeeps⟩ := htimes returnedOnce _ rfl j hj
  obtain ⟨hordered, -⟩ := htimes claimedTwice [] (List.append_nil _).symm j' hj'
  rw [hj'] at hafter
  obtain ⟨hfailed, hstamps'⟩ := Prod.mk.inj (Option.some.inj hafter)
  exact ⟨hanswers, hclock, j, j', hj, hpending, hstamps, hj', hfailed, hstamps', hkeeps, hordered⟩

end Scheduler

end JobDispatch
