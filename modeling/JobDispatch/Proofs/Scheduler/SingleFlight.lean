import JobDispatch.Proofs.Scheduler.Sound

/-!
# Single flight

However many messages of a job there are and however many executions of it are under way, at most one
of them has the job to itself: the one whose own write has started the job and which has not yet written
how the attempt ended.  So no two handlers ever work on one job at the same time.

## Main definitions

* `Step.hasHandler` — the executor that takes a step has a handler for the job.

## Main results

* `Scheduler.moves_iff` — a job starts to run when an execution that is about to start it takes its
  step.
* `Scheduler.holds_begins_iff`, `Scheduler.holds_ends_iff` — an execution has the job to itself from
  its own successful start to its own write of the end.
* `Scheduler.startsHandler_eq` — a handler starts when a job starts to run, if there is one.
* `Scheduler.single_flight` — **a job is running exactly while one execution has it to itself, and
  never do two.**
-/

namespace JobDispatch

namespace Step

/-- Whether the executor that takes a step has a handler for the job. -/
def hasHandler (p : Step) (id : JobId) : Bool :=
  match p.event.move with
  | .execute k =>
    match p.before.deliveries[k]?, p.before.record? id with
    | some d, some j => d.handlers.contains j.jobType
    | _, _ => false
  | _ => false

theorem moves_eq_true {p : Step} {id : JobId} {a b : JobStatus} :
    p.moves id a b = true ↔ (∃ j, p.before.record? id = some j ∧ j.status = a) ∧
      ∃ j', p.after.record? id = some j' ∧ j'.status = b := by
  simp only [moves, Scheduler.status?, decide_eq_true_eq, Option.map_eq_some_iff]

end Step

namespace Execution

variable {now : Timestamp} {handlers : List String} {r r' : Option Job} {x x' : Execution}

/-- A step by which a waiting job comes to run is one that starts it. -/
theorem Advance.starts_iff (h : Advance now handlers r x r' x') :
    ((∃ j, r = some j ∧ j.status = .scheduled) ∧ ∃ j', r' = some j' ∧ j'.status = .running) ↔
      ∃ job j, x = starting job ∧ r = some j ∧ j.status = .scheduled := by
  constructor
  · rintro ⟨⟨j, rfl, hj⟩, j', rfl, hj'⟩
    cases h with
    | started job _ hs => exact ⟨job, j, rfl, rfl, hj⟩
    | _ => simp_all
  · rintro ⟨job, j, rfl, rfl, hj⟩
    cases h with
    | started _ _ hs => exact ⟨⟨j, rfl, hj⟩, _, rfl, rfl⟩
    | lost _ _ hs => exact absurd hj hs
    | resting _ _ hr => simp [isResting] at hr

/-- A handler begins to work when its job starts to run. -/
theorem Advance.begins_work_iff (h : Advance now handlers r x r' x') :
    (x.isWorking = false ∧ x'.isWorking = true) ↔
      ∃ job j, x = starting job ∧ r = some j ∧ j.status = .scheduled ∧
        handlers.contains job.jobType = true := by
  constructor
  · rintro ⟨hx, hx'⟩
    cases h with
    | started job j hj =>
      refine ⟨job, j, rfl, rfl, hj, ?_⟩
      by_cases hc : handlers.contains job.jobType = true
      · exact hc
      · rw [engaged, if_neg hc] at hx'
        simp [failing, isWorking] at hx'
    | resting _ _ hr => simp_all
    | _ => simp [isWorking] at hx'
  · rintro ⟨job, j, rfl, rfl, hj, hc⟩
    cases h with
    | started _ _ hs =>
      rw [engaged, if_pos hc]
      exact ⟨rfl, rfl⟩
    | lost _ _ hs => exact absurd hj hs
    | resting _ _ hr => simp [isResting] at hr

/-- An execution comes to hold its job when it starts it. -/
theorem Advance.begins_iff (h : Advance now handlers r x r' x') :
    (x.holds = false ∧ x'.holds = true) ↔
      ∃ job j, x = starting job ∧ r = some j ∧ j.status = .scheduled := by
  constructor
  · rintro ⟨hx, hx'⟩
    cases h with
    | started job j hj => exact ⟨job, j, rfl, rfl, hj⟩
    | resting _ _ hr => simp_all
    | _ => simp [holds] at hx hx'
  · rintro ⟨job, j, rfl, rfl, hj⟩
    cases h with
    | started _ _ hs => exact ⟨rfl, holds_engaged handlers job⟩
    | lost _ _ hs => exact absurd hj hs
    | resting _ _ hr => simp [isResting] at hr

/-- An execution ceases to hold its job when it takes it out of the running state. -/
theorem Advance.ends_iff (h : Advance now handlers r x r' x') :
    (x.holds = true ∧ x'.holds = false) ↔
      (∃ j, r = some j ∧ j.status = .running) ∧ ∃ j', r' = some j' ∧ j'.status ≠ .running := by
  constructor
  · rintro ⟨hx, hx'⟩
    cases h with
    | completed id result elapsed j hj => exact ⟨⟨j, rfl, hj⟩, _, rfl, by simp⟩
    | returned e id error j n max hj hd => exact ⟨⟨j, rfl, hj⟩, _, rfl, by simp⟩
    | exhausted e job error j n hj hd => exact ⟨⟨j, rfl, hj⟩, _, rfl, by simp⟩
    | resting _ _ hr => simp_all
    | _ => simp [holds] at hx hx'
  · rintro ⟨⟨j, rfl, hj⟩, j', rfl, hj'⟩
    cases h with
    | completed id result elapsed _ hs => exact ⟨rfl, rfl⟩
    | returned e id error _ n max hs hd => exact ⟨rfl, rfl⟩
    | exhausted e job error _ n hs hd => exact ⟨rfl, rfl⟩
    | _ => simp_all

end Execution

namespace Scheduler

variable {s : Scheduler} {e : Event} {k : Nat} {d : Delivery}

/-! ### The start of a job -/

/-- Where no execution takes a step, no job starts to run. -/
theorem moves_of_others (h : s.Sound) (ha : e.StoreAnswers) (he : ∀ k, e.move ≠ .execute k)
    (id : JobId) : (Step.mk s e (s.step e)).moves id .scheduled .running = false := by
  rw [Bool.eq_false_iff]
  intro hmoves
  obtain ⟨⟨j, hj, hs⟩, j', hj', hr⟩ := Step.moves_eq_true.mp hmoves
  obtain ⟨i, hi, hchange⟩ := record?_step h.distinct h.fitting ha hj
  obtain rfl := Option.some.inj (hj'.symm.trans hi)
  cases hchange with
  | kept => exact absurd (hs.symm.trans hr) (by simp)
  | claimed => simp at hr
  | reset => simp at hr
  | cancelled => simp at hr
  | executed k d x _ _ hm hd hid hadv => exact he k hm

/-- An execution's step is an advance of it and of the record of its job. -/
theorem Sound.advance (h : s.Sound) (ha : e.StoreAnswers) (hm : e.move = .execute k)
    (hd : s.deliveries[k]? = some d) :
    Execution.Advance e.moment.now d.handlers (s.record? d.job) d.execution
      ((s.step e).record? d.job) (d.execution.step e.moment.services d.handlers s.shared).1 := by
  rw [record?_step_of_execute hm hd]
  exact h.fitting.advance h.distinct ha hd

/-- **A job starts to run when an execution that is about to start it takes its step** and finds it
waiting. -/
theorem moves_iff (h : s.Sound) (ha : e.StoreAnswers) (hm : e.move = .execute k)
    (hd : s.deliveries[k]? = some d) (id : JobId) :
    (Step.mk s e (s.step e)).moves id .scheduled .running = true ↔
      d.job = id ∧ ∃ job j, d.execution = .starting job ∧ s.record? id = some j ∧
        j.status = .scheduled := by
  rw [Step.moves_eq_true]
  constructor
  · intro hmoves
    by_cases hid : d.job = id
    · subst hid
      exact ⟨rfl, (h.advance ha hm hd).starts_iff.mp hmoves⟩
    · -- the record of another job stays as it is
      exfalso
      obtain ⟨⟨j, hj, hs⟩, j', hj', hr⟩ := hmoves
      rw [record?_step_of_execute hm hd, Execution.find?_step_of_ne h.distinct
        (h.fitting.of_getElem? hd) d.handlers (Ne.symm hid)] at hj'
      obtain rfl := Option.some.inj (hj'.symm.trans hj)
      exact absurd (hs.symm.trans hr) (by simp)
  · rintro ⟨rfl, hstart⟩
    exact (h.advance ha hm hd).starts_iff.mpr hstart

/-! ### The start of a handler -/

/-- More executions of a job are at a certain point after one of them has gone on if this one is there
now and was not before. -/
theorem count_lt_advanced_iff {s' : Scheduler} {x : Execution} (hd : s.deliveries[k]? = some d)
    (hs' : s'.deliveries = s.deliveries.set k (d.advanced x)) (p : Execution → Bool) :
    s.count d.job p < s'.count d.job p ↔ p d.execution = false ∧ p x = true := by
  have hcount := count_advanced hd hs' p
  cases hx : p d.execution <;> cases hx' : p x <;> simp [hx, hx'] at hcount ⊢ <;> omega

/-- The end of a handler starts none. -/
theorem working_le_of_resumed {s' : Scheduler} {outcome : HandlerOutcome} {elapsed : Span}
    (hd : s.deliveries[k]? = some d)
    (hs' : s'.deliveries = s.deliveries.set k (d.advanced (d.execution.resume outcome elapsed)))
    (id : JobId) : s'.count id Execution.isWorking ≤ s.count id Execution.isWorking := by
  by_cases hid : d.job = id
  · subst hid
    have hcount := count_advanced hd hs' Execution.isWorking
    have hrest : (d.execution.resume outcome elapsed).isWorking = false := by
      cases d.execution <;> cases outcome <;> rfl
    rw [hrest] at hcount
    simp only [Bool.toNat_false, Nat.add_zero] at hcount
    omega
  · exact Nat.le_of_eq (count_advanced_of_ne hd hs' hid _)

/-- Where no execution takes a step, no handler starts; one may end. -/
theorem working_le_of_others (hs : s.shared.store.Distinct) (he : ∀ k, e.move ≠ .execute k)
    (id : JobId) : (s.step e).count id Execution.isWorking ≤ s.count id Execution.isWorking := by
  rcases deliveries_step hs he with hkept | ⟨handlers, t, hnew⟩ |
    ⟨k, d, outcome, elapsed, -, hd, hended⟩
  · exact Nat.le_of_eq (count_congr hkept id _)
  · exact Nat.le_of_eq ((count_congr hnew id _).trans (count_hand (fun _ => rfl) handlers t id))
  · exact working_le_of_resumed hd hended id

theorem not_moves_of_ne (h : s.Sound) (ha : e.StoreAnswers) (hm : e.move = .execute k)
    (hd : s.deliveries[k]? = some d) {id : JobId} (hid : d.job ≠ id) :
    (Step.mk s e (s.step e)).moves id .scheduled .running = false := by
  rw [Bool.eq_false_iff]
  exact fun hmoves => hid ((moves_iff h ha hm hd id).mp hmoves).1

/-- **A handler starts when a job starts to run**, if the executor that starts it has one for it; and
never else. -/
theorem startsHandler_eq (h : s.Sound) (ha : e.StoreAnswers) (id : JobId) :
    (Step.mk s e (s.step e)).startsHandler id
      = ((Step.mk s e (s.step e)).moves id .scheduled .running &&
          (Step.mk s e (s.step e)).hasHandler id) := by
  rcases execute_or s e with ⟨k, d, hm, hd⟩ | ⟨k, hm, hd⟩ | he
  · rw [Bool.eq_iff_iff, Bool.and_eq_true, moves_iff h ha hm hd, Step.startsHandler,
      decide_eq_true_iff]
    by_cases hid : d.job = id
    · subst hid
      rw [count_lt_advanced_iff hd (deliveries_step_of_execute hm hd),
        (h.advance ha hm hd).begins_work_iff]
      -- the executor goes by the job type that it has loaded, which is that of the record
      have htype : ∀ job j, d.execution = .starting job → s.record? d.job = some j →
          (d.handlers.contains job.jobType = true ↔
            (Step.mk s e (s.step e)).hasHandler d.job = true) := by
        intro job j hx hj
        have hfits := h.fitting.of_getElem? hd
        rw [hx, hj] at hfits
        obtain ⟨-, i, hi, hreq⟩ := hfits
        obtain rfl := Option.some.inj hi
        rw [Job.jobType_eq_of_request_eq hreq]
        simp [Step.hasHandler, hm, hd, hj]
      constructor
      · rintro ⟨job, j, hx, hj, hs, hc⟩
        exact ⟨⟨rfl, job, j, hx, hj, hs⟩, (htype job j hx hj).mp hc⟩
      · rintro ⟨⟨-, job, j, hx, hj, hs⟩, hc⟩
        exact ⟨job, j, hx, hj, hs, (htype job j hx hj).mpr hc⟩
    · have hsame := count_advanced_of_ne hd (deliveries_step_of_execute hm hd) hid Execution.isWorking
      rw [hsame]
      simp [hid]
  · simp [Step.startsHandler, Step.hasHandler, hm, hd, step_of_execute_none hm hd]
  · rw [moves_of_others h ha he, Bool.false_and, Step.startsHandler, decide_eq_false_iff_not]
    exact Nat.not_lt.mpr (working_le_of_others h.distinct he id)

/-! ### Having a job to oneself -/

/-- What becomes of one execution in one step. -/
theorem delivery_step (hs : s.shared.store.Distinct) {d' : Delivery} (hd : s.deliveries[k]? = some d)
    (hd' : (s.step e).deliveries[k]? = some d') :
    d' = d ∨
      (e.move = .execute k ∧
        d' = d.advanced (d.execution.step e.moment.services d.handlers s.shared).1) ∨
      ∃ outcome elapsed, d' = d.advanced (d.execution.resume outcome elapsed) := by
  have hlt : k < s.deliveries.length := (List.getElem?_eq_some_iff.mp hd).1
  have h := step_effect s e hs
  generalize s.step e = s' at h hd'
  cases h with
  | taken handlers message rest t hr ht =>
    rw [hand, List.getElem?_append_left hlt] at hd'
    exact Or.inl (Option.some.inj (hd'.symm.trans hd))
  | handed handlers t =>
    rw [hand, List.getElem?_append_left hlt] at hd'
    exact Or.inl (Option.some.inj (hd'.symm.trans hd))
  | executed i c hm hc =>
    rw [List.getElem?_set] at hd'
    split at hd'
    · next hik =>
      subst hik
      obtain rfl := Option.some.inj (hc.symm.trans hd)
      rw [if_pos hlt] at hd'
      exact Or.inr (Or.inl ⟨hm, (Option.some.inj hd').symm⟩)
    · exact Or.inl (Option.some.inj (hd'.symm.trans hd))
  | concluded i c outcome elapsed hm hc =>
    rw [List.getElem?_set] at hd'
    split at hd'
    · next hik =>
      subst hik
      obtain rfl := Option.some.inj (hc.symm.trans hd)
      rw [if_pos hlt] at hd'
      exact Or.inr (Or.inr ⟨outcome, elapsed, (Option.some.inj hd').symm⟩)
    · exact Or.inl (Option.some.inj (hd'.symm.trans hd))
  | _ => exact Or.inl (Option.some.inj (hd'.symm.trans hd))

/-- An execution that holds its job otherwise than before has taken a step. -/
theorem move_of_holds_ne (hs : s.shared.store.Distinct) {d' : Delivery}
    (hd : s.deliveries[k]? = some d) (hd' : (s.step e).deliveries[k]? = some d')
    (hne : d'.execution.holds ≠ d.execution.holds) :
    e.move = .execute k ∧
      d' = d.advanced (d.execution.step e.moment.services d.handlers s.shared).1 := by
  rcases delivery_step hs hd hd' with rfl | hstep | ⟨outcome, elapsed, rfl⟩
  · exact absurd rfl hne
  · exact hstep
  · exact absurd (passive_holds.resume d.execution outcome elapsed) hne

/-- The execution after its step. -/
theorem getElem?_step_of_execute (hm : e.move = .execute k) (hd : s.deliveries[k]? = some d) :
    (s.step e).deliveries[k]?
      = some (d.advanced (d.execution.step e.moment.services d.handlers s.shared).1) := by
  have hlt : k < s.deliveries.length := (List.getElem?_eq_some_iff.mp hd).1
  rw [step_of_execute hm hd, List.getElem?_set_self hlt]

/-- **An execution comes to have its job to itself by its own successful start.** -/
theorem holds_begins_iff (h : s.Sound) (ha : e.StoreAnswers) {d' : Delivery}
    (hd : s.deliveries[k]? = some d) (hd' : (s.step e).deliveries[k]? = some d') :
    (d.execution.holds = false ∧ d'.execution.holds = true) ↔
      e.move = .execute k ∧ (Step.mk s e (s.step e)).moves d.job .scheduled .running = true := by
  constructor
  · rintro ⟨hx, hx'⟩
    obtain ⟨hm, rfl⟩ := move_of_holds_ne h.distinct hd hd' (by simp [hx, hx'])
    exact ⟨hm, (moves_iff h ha hm hd d.job).mpr ⟨rfl, (h.advance ha hm hd).begins_iff.mp ⟨hx, hx'⟩⟩⟩
  · rintro ⟨hm, hmoves⟩
    obtain rfl := Option.some.inj (hd'.symm.trans (getElem?_step_of_execute hm hd))
    exact (h.advance ha hm hd).begins_iff.mpr ((moves_iff h ha hm hd d.job).mp hmoves).2

/-- **An execution ceases to have its job to itself by its own write of the end.** -/
theorem holds_ends_iff (h : s.Sound) (ha : e.StoreAnswers) {d' : Delivery}
    (hd : s.deliveries[k]? = some d) (hd' : (s.step e).deliveries[k]? = some d') :
    (d.execution.holds = true ∧ d'.execution.holds = false) ↔
      e.move = .execute k ∧ s.status? d.job = some .running ∧
        (s.step e).status? d.job ≠ some .running := by
  have hstatus : ∀ hm : e.move = .execute k,
      (s.status? d.job = some .running ∧ (s.step e).status? d.job ≠ some .running) ↔
        (∃ j, s.record? d.job = some j ∧ j.status = .running) ∧
          ∃ j', (s.step e).record? d.job = some j' ∧ j'.status ≠ .running := by
    intro hm
    simp only [status?, ne_eq, Option.map_eq_some_iff, not_exists, not_and]
    constructor
    · rintro ⟨⟨j, hj, hr⟩, hne⟩
      obtain ⟨j', hj', -⟩ := record?_step h.distinct h.fitting ha hj
      exact ⟨⟨j, hj, hr⟩, j', hj', hne j' hj'⟩
    · rintro ⟨hrun, j', hj', hne⟩
      refine ⟨hrun, ?_⟩
      intro i hi
      obtain rfl := Option.some.inj (hi.symm.trans hj')
      exact hne
  constructor
  · rintro ⟨hx, hx'⟩
    obtain ⟨hm, rfl⟩ := move_of_holds_ne h.distinct hd hd' (by simp [hx, hx'])
    exact ⟨hm, (hstatus hm).mpr ((h.advance ha hm hd).ends_iff.mp ⟨hx, hx'⟩)⟩
  · rintro ⟨hm, hrun⟩
    obtain rfl := Option.some.inj (hd'.symm.trans (getElem?_step_of_execute hm hd))
    exact (h.advance ha hm hd).ends_iff.mpr ((hstatus hm).mp hrun)

/-- An execution whose handler works holds its job. -/
theorem working_le_holds (s : Scheduler) (id : JobId) :
    s.count id Execution.isWorking ≤ s.count id Execution.holds := by
  refine count_mono s id fun x hx => ?_
  cases x <;> simp_all [Execution.isWorking, Execution.holds]

/-- As many executions hold a job as it is running. -/
theorem Sound.holds_eq (h : s.Sound) (id : JobId) :
    s.count id Execution.holds = (decide (s.status? id = some .running)).toNat := by
  rw [h.holders, status?]
  cases s.record? id with
  | none => rfl
  | some j => simp [Ledger.running]

/-- **Single flight.**  In every state of every run a job is running exactly if one execution has it to
itself, and never do two; an execution has a job to itself from the step in which it starts it to the
step in which it takes it out of the running state; no two handlers work on one job at the same time;
and a handler starts in exactly those steps in which the job is started by an executor that has one for
it. -/
theorem single_flight (engines : List Engine) {es : List Event} (hes : ∀ e ∈ es, e.StoreAnswers)
    (id : JobId) :
    (((start engines).run es).status? id = some .running ↔
        ((start engines).run es).count id Execution.holds = 1) ∧
      ((start engines).run es).count id Execution.holds ≤ 1 ∧
      ((start engines).run es).count id Execution.isWorking ≤ 1 ∧
      (∀ p ∈ (start engines).trail es, ∀ k d d', p.before.deliveries[k]? = some d →
        p.after.deliveries[k]? = some d' → d.job = id →
          (d.execution.holds = false ∧ d'.execution.holds = true ↔
            p.event.move = .execute k ∧ p.moves id .scheduled .running = true) ∧
          (d.execution.holds = true ∧ d'.execution.holds = false ↔
            p.event.move = .execute k ∧ p.before.status? id = some .running ∧
              p.after.status? id ≠ some .running)) ∧
      ∀ p ∈ (start engines).trail es,
        p.startsHandler id = (p.moves id .scheduled .running && p.hasHandler id) := by
  have hsound := sound_run engines hes
  have hholds := hsound.holds_eq id
  -- whoever works holds, so the second bound follows from the first
  have hworking := working_le_holds ((start engines).run es) id
  have hsteps : ∀ p ∈ (start engines).trail es, p.before.Sound ∧ p.event.StoreAnswers ∧
      p = ⟨p.before, p.event, p.before.step p.event⟩ := by
    intro p hp
    obtain ⟨hs, ha, hafter⟩ := (sound_start engines).of_mem_trail hes hp
    exact ⟨hs, ha, p.eq_mk hafter⟩
  have hone : ((start engines).run es).count id Execution.holds ≤ 1 := by
    rw [hholds]
    exact Bool.toNat_le _
  refine ⟨?_, hone, by omega, ?_, ?_⟩
  · -- the number of holders is one for a running job and zero for any other
    rw [hholds]
    simp
  · rintro p hp k d d' hd hd' rfl
    obtain ⟨hs, ha, hstep⟩ := hsteps p hp
    rw [hstep] at hd' ⊢
    exact ⟨holds_begins_iff hs ha hd hd', holds_ends_iff hs ha hd hd'⟩
  · intro p hp
    obtain ⟨hs, ha, hstep⟩ := hsteps p hp
    rw [hstep]
    exact startsHandler_eq hs ha id

/-- While the handler of the job that was started works, the job is running and no other execution has
it to itself. -/
theorem holds_of_startedOnce :
    (∀ e ∈ startedOnce ["report"], e.StoreAnswers) ∧
      ((start [.firstComeFirstServed]).run (startedOnce ["report"])).status? .nil = some .running ∧
      ((start [.firstComeFirstServed]).run (startedOnce ["report"])).count .nil Execution.holds
        = 1 := by
  have hrunning : ((start [.firstComeFirstServed]).run (startedOnce ["report"])).status? .nil
      = some .running := by
    decide +kernel
  have hanswers : ∀ e ∈ startedOnce ["report"], e.StoreAnswers := by decide
  have hflight := single_flight [.firstComeFirstServed] hanswers .nil
  exact ⟨hanswers, hrunning, hflight.1.mp hrunning⟩

/-- Without a handler for its type, a job starts to run and no handler starts to work on it: the starts
of handlers are fewer than those of jobs. -/
theorem starts_ne_of_no_handler :
    ¬ ∀ (engines : List Engine) (es : List Event) (id : JobId), (∀ e ∈ es, e.StoreAnswers) →
      ((start engines).trail es).countP (·.startsHandler id)
        = ((start engines).trail es).countP (·.moves id .scheduled .running) := by
  intro hall
  have heq := hall [.firstComeFirstServed] (startedOnce []) .nil (by decide)
  have hstarts : ((start [.firstComeFirstServed]).trail (startedOnce [])).countP
      (·.startsHandler .nil) = 0 := by
    decide +kernel
  have hmoves : ((start [.firstComeFirstServed]).trail (startedOnce [])).countP
      (·.moves .nil .scheduled .running) = 1 := by
    decide +kernel
  omega

end Scheduler

end JobDispatch
