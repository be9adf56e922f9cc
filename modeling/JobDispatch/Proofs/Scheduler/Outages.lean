import JobDispatch.Proofs.Scheduler.Carriers

/-!
# Executions and outages

Until it has started its job an execution only looks: it loads the record, and the one write that it
makes is the start, which asks for a scheduled job.  If the job is not there or not scheduled, the
execution ends.  So an execution whose start does not succeed leaves everything as it is, as long as the
store answers it up to there.

If the store does not answer, the execution takes this for a failed attempt of the job and has it
recorded; the recording loads the record again and writes to any job whose life has not ended.  By then
the job may belong to another execution, or may never have run.

## Main definitions

* `Execution.isHarmless` — an execution is before the start of its job, or at its end.
* `Step.starts` — an execution starts its job in a step.
* `Step.foils` — the store does not answer an execution that is about to load its job or to start it.

## Main results

* `Store.start_error` — a start only fails because the job is not there or not scheduled.
* `Execution.step_of_isHarmless` — **such an execution changes nothing in a step.**
* `Scheduler.untouched_of_not_started` — **an execution that never starts its job and is never foiled
  changes nothing along any run.**
* `Scheduler.seized_of_foiledOnce` — an execution that is foiled fails and buries a job on which the
  handler of another one works.
-/

namespace JobDispatch

/-! ### Why a start fails -/

namespace Store

/-- A change of one record fails because the record is not there, or in the change itself. -/
theorem updateJobs_error {id : JobId} {change : Job → Except StoreError Job} {js : List Job}
    {e : StoreError} (h : updateJobs id change js = .error e) :
    e = .jobNotFound id ∨ ∃ j, change j = .error e := by
  induction js with
  | nil =>
    rw [updateJobs_nil] at h
    exact .inl (Except.error.inj h).symm
  | cons j js ih =>
    by_cases hid : j.id = id
    · -- the record is the first one
      subst hid
      rw [updateJobs_cons_self] at h
      cases hj : change j with
      | error e' =>
        rw [hj] at h
        obtain rfl : e' = e := Except.error.inj h
        exact .inr ⟨j, hj⟩
      | ok j' =>
        rw [hj] at h
        cases h
    · rw [updateJobs_cons_of_ne hid] at h
      cases hrest : updateJobs id change js with
      | error e' =>
        rw [hrest] at h
        obtain rfl : e' = e := Except.error.inj h
        exact ih hrest
      | ok js' =>
        rw [hrest] at h
        cases h

/-- **A start only fails because the job is not there or not scheduled.** -/
theorem start_error {s : Store} {id : JobId} {now : Timestamp} {e : StoreError}
    (h : s.start id now = .error e) : e = .jobNotFound id ∨ e = .notScheduled id := by
  rw [start, update] at h
  cases hu : updateJobs id (fun j => if j.status = .scheduled then .ok (j.started now)
      else .error (.notScheduled id)) s.jobs with
  | ok js =>
    rw [hu] at h
    cases h
  | error e' =>
    rw [hu] at h
    obtain rfl : e' = e := Except.error.inj h
    rcases updateJobs_error hu with hmissing | ⟨j, hj⟩
    · exact .inl hmissing
    · split at hj
      · cases hj
      · exact .inr (Except.error.inj hj).symm

end Store

/-! ### Before the start -/

namespace Execution

/-- Whether an execution is before the start of its job, or at its end. -/
def isHarmless : Execution → Bool
  | loading _ => true
  | starting _ => true
  | finished _ => true
  | _ => false

/-- Whether the next step of an execution starts its job. -/
def startsNow {σ : Type} (v : Services σ) (s : σ) : Execution → Bool
  | starting job => (v.store (.start job.id) s).1.isOk
  | _ => false

theorem isHarmless_judged (id : JobId) (found : Option Job) :
    (judged id found).1.isHarmless = true := by
  unfold judged
  cases found with
  | none => rfl
  | some job =>
    simp only
    split <;> rfl

/-- The end of a handler does not concern such an execution. -/
theorem resume_of_isHarmless {x : Execution} (h : x.isHarmless = true) (outcome : HandlerOutcome)
    (elapsed : Span) : x.resume outcome elapsed = x := by
  cases x with
  | working job => cases h
  | _ => rfl

/-- **A step before the start changes nothing**, if it is not the start and the store answers. -/
theorem step_of_isHarmless {m : Moment} {sh : Shared} {x : Execution} (hx : x.isHarmless = true)
    (handlers : List String) (hstart : x.startsNow m.services sh = false)
    (hanswers : x.isClaiming = true → m.storeOutage = none) :
    (x.step m.services handlers sh).2 = sh ∧
      (x.step m.services handlers sh).1.isHarmless = true := by
  cases x with
  | loading id =>
    have hm : m.storeOutage = none := hanswers rfl
    have hnext := isHarmless_judged id (sh.store.find? id)
    simp only [step, Moment.services_store hm, Store.perform]
    rcases hj : judged id (sh.store.find? id) with ⟨x', _ | notice⟩
    all_goals
      rw [hj] at hnext
      exact ⟨rfl, hnext⟩
  | starting job =>
    have hm : m.storeOutage = none := hanswers rfl
    simp only [startsNow, Moment.services_store hm, Store.perform] at hstart
    simp only [step, Moment.services_store hm, Store.perform]
    cases hs : sh.store.start job.id m.now with
    | ok s' =>
      rw [hs] at hstart
      cases hstart
    | error e =>
      -- the job is not there or not scheduled, so the execution ends
      refine ⟨rfl, ?_⟩
      rcases Store.start_error hs with rfl | rfl <;> rfl
  | finished outcome => exact ⟨rfl, rfl⟩
  | working job => cases hx
  | completing id result elapsed => cases hx
  | recovering error recording => cases hx

end Execution

/-! ### The steps of one execution -/

namespace Step

/-- The execution that takes a step, if it is the `k`-th. -/
def executed? (p : Step) (k : Nat) : Option Delivery :=
  match p.event.move with
  | .execute i => if i = k then p.before.deliveries[k]? else none
  | _ => none

/-- Whether the `k`-th execution starts its job in a step: its start succeeds. -/
def starts (p : Step) (k : Nat) : Bool :=
  (p.executed? k).any fun d => d.execution.startsNow p.event.moment.services p.before.shared

/-- Whether the store does not answer the `k`-th execution in a step in which it loads its job or
starts it. -/
def foils (p : Step) (k : Nat) : Bool :=
  (p.executed? k).any fun d => d.execution.isClaiming && !decide p.event.StoreAnswers

theorem executed?_of_execute {p : Step} {k : Nat} (hm : p.event.move = .execute k) :
    p.executed? k = p.before.deliveries[k]? := by
  rw [executed?, hm]
  exact if_pos rfl

end Step

namespace Scheduler

variable {s : Scheduler} {e : Event} {k : Nat}

/-- The `k`-th execution, if there is one, is before the start of its job or at its end. -/
def Harmless (s : Scheduler) (k : Nat) : Prop :=
  ∀ d, s.deliveries[k]? = some d → d.execution.isHarmless = true

theorem Harmless.hand (h : s.Harmless k) (handlers : List String) (t : Ticket) :
    (s.hand handlers t).Harmless k := by
  intro d hd
  rw [Scheduler.hand] at hd
  rcases Nat.lt_trichotomy k s.deliveries.length with hlt | rfl | hgt
  · rw [List.getElem?_append_left hlt] at hd
    exact h d hd
  · rw [List.getElem?_concat_length] at hd
    obtain rfl := Option.some.inj hd
    rfl
  · -- there is no such execution yet
    rw [List.getElem?_eq_none (by rw [List.length_append]; exact hgt)] at hd
    cases hd

theorem harmless_set {s' : Scheduler} {i : Nat} {c : Delivery} (h : s.Harmless k)
    (hs' : s'.deliveries = s.deliveries.set i c)
    (hc : i = k → c.execution.isHarmless = true) : s'.Harmless k := by
  intro d hd
  rw [hs', List.getElem?_set] at hd
  split at hd
  · next hik =>
    split at hd
    · obtain rfl := Option.some.inj hd
      exact hc hik
    · cases hd
  · exact h d hd

theorem Harmless.take (h : s.Harmless k) (m : Moment) (handlers : List String) (timeout : Span) :
    (s.take m handlers timeout).Harmless k := by
  rw [Scheduler.take]
  rcases m.services.broker (.popReady timeout) s.shared with ⟨problem | t, sh⟩
  · cases problem <;> exact h
  · cases t with
    | none => exact h
    | some t => exact Harmless.hand (s := { s with shared := sh }) h handlers t

/-- The steps of others bring no execution past its start. -/
theorem Harmless.step_of_ne (h : s.Harmless k) (hm : e.move ≠ .execute k) :
    (s.step e).Harmless k := by
  unfold step
  cases hmove : e.move with
  | submit new =>
    simp only [submit]
    split <;> exact h
  | wish name => exact h
  | inject message => exact h
  | tick i =>
    simp only [tick]
    split <;> exact h
  | recover => exact h
  | proceed i =>
    simp only [proceed]
    split <;> exact h
  | take handlers timeout => exact h.take e.moment handlers timeout
  | hand handlers t => exact h.hand handlers t
  | execute i =>
    have hik : i ≠ k := fun hik => hm (hik ▸ hmove)
    simp only [execute]
    split
    · exact h
    · exact harmless_set h rfl fun hi => absurd hi hik
  | conclude i outcome elapsed =>
    simp only [conclude]
    split
    · exact h
    · next d hd =>
      refine harmless_set h rfl ?_
      rintro rfl
      rw [Delivery.execution_advanced, Execution.resume_of_isHarmless (h d hd)]
      exact h d hd
  | cancel id => exact h
  | pursue i =>
    simp only [pursue]
    split <;> exact h

/-- **The step of an execution that does not start its job and is not foiled changes nothing.** -/
theorem Harmless.step_of_execute (h : s.Harmless k) (hm : e.move = .execute k)
    (hstart : (Step.mk s e (s.step e)).starts k = false)
    (hfoil : (Step.mk s e (s.step e)).foils k = false) :
    (s.step e).shared = s.shared ∧ (s.step e).Harmless k := by
  cases hd : s.deliveries[k]? with
  | none =>
    rw [step_of_execute_none hm hd]
    exact ⟨rfl, h⟩
  | some d =>
    have hexecuted : (Step.mk s e (s.step e)).executed? k = some d :=
      (Step.executed?_of_execute hm).trans hd
    rw [Step.starts, hexecuted, Option.any_some] at hstart
    rw [Step.foils, hexecuted, Option.any_some] at hfoil
    have hanswers : d.execution.isClaiming = true → e.moment.storeOutage = none := by
      intro hclaiming
      rw [hclaiming, Bool.true_and, Bool.not_eq_false', decide_eq_true_iff] at hfoil
      exact hfoil
    obtain ⟨hshared, hnext⟩ :=
      Execution.step_of_isHarmless (h d hd) d.handlers hstart hanswers
    rw [Scheduler.step_of_execute hm hd]
    exact ⟨hshared, harmless_set h rfl fun _ => hnext⟩

theorem Harmless.step (h : s.Harmless k) (hstart : (Step.mk s e (s.step e)).starts k = false)
    (hfoil : (Step.mk s e (s.step e)).foils k = false) : (s.step e).Harmless k := by
  by_cases hm : e.move = .execute k
  · exact (h.step_of_execute hm hstart hfoil).2
  · exact h.step_of_ne hm

/-- **An execution that never starts its job and is never foiled changes nothing.**  Nothing is assumed
of the state at first, of the other parties, or of the services at any other step. -/
theorem untouched_of_not_started (s : Scheduler) (k : Nat) (es : List Event)
    (hk : ∀ d, s.deliveries[k]? = some d → ∃ id, d.execution = .loading id)
    (hstart : ∀ p ∈ s.trail es, p.starts k = false)
    (hfoil : ∀ p ∈ s.trail es, p.foils k = false) :
    ∀ p ∈ s.trail es, p.event.move = .execute k → p.after.shared = p.before.shared := by
  have hharmless : s.Harmless k := by
    intro d hd
    obtain ⟨id, hid⟩ := hk d hd
    rw [hid]
    rfl
  clear hk
  -- from here on the execution may also have loaded its job or have ended
  induction es generalizing s with
  | nil =>
    intro p hp
    exact (List.not_mem_nil hp).elim
  | cons e es ih =>
    have hs := hstart _ List.mem_cons_self
    have hf := hfoil _ List.mem_cons_self
    intro p hp hm
    rcases List.mem_cons.mp hp with rfl | hp
    · exact (hharmless.step_of_execute hm hs hf).1
    · refine ih (s.step e) ?_ ?_ (hharmless.step hs hf) p hp hm
      · exact fun q hq => hstart q (List.mem_cons_of_mem _ hq)
      · exact fun q hq => hfoil q (List.mem_cons_of_mem _ hq)

/-! ### What an outage can do -/

/-- While the handler of one execution works on a job, a second execution is given the job as well. -/
def handedTwice : List Event :=
  startedOnce ["report"] ++ [(Move.hand ["report"] ⟨.nil, "report", 5, Double.one, .object []⟩).at 6]

/-- The second execution loads the record and ends. -/
def skippedOnce : List Event := handedTwice ++ [(Move.execute 1).at 7, (Move.execute 1).at 8]

/-- The store does not answer the second execution at first. -/
def foiledOnce : List Event :=
  handedTwice ++ [⟨⟨⟨7, 0⟩, .nil, some "down", none⟩, .execute 1⟩, (Move.execute 1).at 8,
    (Move.execute 1).at 9, (Move.execute 1).at 10]

/-- The second execution of a running job, if the store answers it, leaves the job alone. -/
theorem untouched_of_skippedOnce :
    (∀ p ∈ (start [.firstComeFirstServed]).trail skippedOnce, p.starts 1 = false) ∧
      (∀ p ∈ (start [.firstComeFirstServed]).trail skippedOnce, p.foils 1 = false) ∧
      ∀ p ∈ (start [.firstComeFirstServed]).trail skippedOnce,
        p.event.move = .execute 1 → p.after.shared = p.before.shared := by
  have hstart : ∀ p ∈ (start [.firstComeFirstServed]).trail skippedOnce, p.starts 1 = false := by
    decide +kernel
  have hfoil : ∀ p ∈ (start [.firstComeFirstServed]).trail skippedOnce, p.foils 1 = false := by
    decide +kernel
  have hnone : ∀ d, (start [.firstComeFirstServed]).deliveries[1]? = some d →
      ∃ id, d.execution = .loading id := by
    intro d hd
    cases hd
  exact ⟨hstart, hfoil, untouched_of_not_started _ 1 _ hnone hstart hfoil⟩

/-- **A second execution that has never started the job**, because the store did not answer it once,
**fails the running job and buries it**, while the handler of the first one goes on. -/
theorem seized_of_foiledOnce :
    (∀ p ∈ (start [.firstComeFirstServed]).trail foiledOnce, p.starts 1 = false) ∧
      (∃ p ∈ (start [.firstComeFirstServed]).trail foiledOnce,
        (p.executed? 1).isSome = true ∧ p.moves .nil .running .failed = true) ∧
      ((start [.firstComeFirstServed]).run foiledOnce).shared.broker.deadLetters.length = 1 ∧
      ((start [.firstComeFirstServed]).run foiledOnce).count .nil Execution.isWorking = 1 := by
  decide +kernel

end Scheduler

end JobDispatch
