import JobDispatch.Proofs.Scheduler.Advance
import JobDispatch.Proofs.Scheduler.Parties

/-!
# Jobs and their submissions

A record is made when a submission is accepted, from what was submitted, a new id and what the clock
shows.  None of this is ever written again, whoever changes the record, and no record is removed or
moved.  So the records of a store are at any time the submissions that have been accepted, in the order
in which they came.

## Main definitions

* `Submission` — what was submitted, under which id, and when.
* `Store.submissions` — what the records were made from.
* `Step.submission?` — the submission that is accepted in a step.

## Main results

* `Store.submissions_perform_of_subject` — no operation on one job changes what a job was made from.
* `Scheduler.submissions_step` — a step adds the submission that it accepts, and changes nothing else.
* `Scheduler.submissions_run` — **the records are the accepted submissions, in their order.**
-/

namespace JobDispatch

/-- What was submitted, under which id, and when. -/
structure Submission where
  id : JobId
  new : NewJob
  time : Timestamp

/-- The record that an accepted submission becomes. -/
def Submission.record (u : Submission) : Job := u.new.record u.id u.time

/-- What a record was made from. -/
def Job.submission (j : Job) : Submission := ⟨j.id, j.request, j.createdAt⟩

/-! ### Operations of a store -/

namespace Store

variable {s : Store}

/-- What the records were made from, in the order of insertion. -/
def submissions (s : Store) : List Submission := s.jobs.map Job.submission

theorem submissions_insert (s : Store) (new : NewJob) (id : JobId) (now : Timestamp) :
    (s.insert new id now).submissions = s.submissions ++ [⟨id, new, now⟩] := by
  rw [submissions, jobs_insert, List.map_append]
  rfl

theorem submissions_claimPending (s : Store) (limit : Nat) (now : Timestamp) :
    (s.claimPending limit now).2.submissions = s.submissions := by
  apply List.ext_getElem?
  intro i
  simp only [submissions, claimPending, List.getElem?_map, List.getElem?_mapIdx, Option.map_map]
  cases s.jobs[i]? with
  | none => rfl
  | some j =>
    simp only [Option.map_some, Function.comp]
    split <;> rfl

theorem submissions_resetScheduled (s : Store) : s.resetScheduled.2.submissions = s.submissions := by
  simp only [submissions, resetScheduled, List.map_map]
  apply List.map_congr_left
  intro j _
  simp only [Function.comp]
  split <;> rfl

/-- A change of one record that keeps what it was made from keeps that of all. -/
theorem submissions_updateJobs {id : JobId} {change : Job → Except StoreError Job}
    (hc : ∀ i j, change i = .ok j → j.submission = i.submission) {js js' : List Job}
    (h : updateJobs id change js = .ok js') : js'.map Job.submission = js.map Job.submission := by
  induction js generalizing js' with
  | nil => cases h
  | cons j js ih =>
    by_cases hid : j.id = id
    · subst hid
      rw [updateJobs_cons_self] at h
      cases hj : change j with
      | error e =>
        rw [hj] at h
        cases h
      | ok j' =>
        rw [hj] at h
        obtain rfl := Except.ok.inj h
        rw [List.map_cons, List.map_cons, hc j j' hj]
    · rw [updateJobs_cons_of_ne hid] at h
      cases hrest : updateJobs id change js with
      | error e =>
        rw [hrest] at h
        cases h
      | ok rest =>
        rw [hrest] at h
        obtain rfl := Except.ok.inj h
        rw [List.map_cons, List.map_cons, ih hrest]

/-- The same, whether or not the change succeeds. -/
theorem submissions_outcome_update (s : Store) (id : JobId) {change : Job → Except StoreError Job}
    (hc : ∀ i j, change i = .ok j → j.submission = i.submission) :
    (s.outcome (s.update id change)).2.submissions = s.submissions := by
  rw [update]
  cases h : updateJobs id change s.jobs with
  | error e => rfl
  | ok js => exact submissions_updateJobs hc h

/-- **No operation on one job changes what a job was made from.** -/
theorem submissions_perform_of_subject (s : Store) {α : Type} {call : StoreCall α} {id : JobId}
    (h : call.subject? = some id) (now : Timestamp) (fresh : JobId) :
    (s.perform now fresh call).2.submissions = s.submissions := by
  cases call <;> simp only [StoreCall.subject?, Option.some.injEq, reduceCtorEq] at h <;> subst h <;>
    simp only [perform]
  case start =>
    refine submissions_outcome_update s _ fun i j h => ?_
    obtain ⟨-, rfl⟩ := of_guarded h
    rfl
  case cancel =>
    refine submissions_outcome_update s _ fun i j h => ?_
    obtain ⟨-, rfl⟩ := of_guarded h
    rfl
  all_goals
    refine submissions_outcome_update s _ fun i j h => ?_
    rw [← Except.ok.inj h]
    rfl

end Store

/-! ### Steps of the parties -/

theorem Moment.submissions_services_store (m : Moment) (sh : Shared) {α : Type} (call : StoreCall α)
    {id : JobId} (h : call.subject? = some id) :
    (m.services.store call sh).2.store.submissions = sh.store.submissions := by
  cases hm : m.storeOutage with
  | some reason => simp only [services, onStore, hm]
  | none =>
    rw [services_store hm]
    exact Store.submissions_perform_of_subject sh.store h m.now m.fresh

theorem Execution.submissions_step (m : Moment) (sh : Shared) (x : Execution)
    (handlers : List String) :
    (x.step m.services handlers sh).2.store.submissions = sh.store.submissions := by
  rw [shared_step]
  cases x with
  | loading i => exact m.submissions_services_store sh _ rfl
  | starting job => exact m.submissions_services_store sh _ rfl
  | working job => rfl
  | completing i result elapsed => exact m.submissions_services_store sh _ rfl
  | recovering e rec =>
    cases rec with
    | loading i error => exact m.submissions_services_store sh _ rfl
    | givingBack i error n max => exact m.submissions_services_store sh _ rfl
    | exhausting job error n => exact m.submissions_services_store sh _ rfl
    | burying job error n =>
      rw [sharedAfter, Moment.services_broker_store]
    | finished result => rfl
  | finished outcome => rfl

theorem EngineLoop.submissions_step (m : Moment) (sh : Shared) (l : EngineLoop) :
    (l.step m.services sh).2.store.submissions = sh.store.submissions := by
  have ha := l.step_advance m sh
  generalize (l.step m.services sh).1 = l' at ha
  generalize (l.step m.services sh).2 = sh' at ha
  cases ha with
  | kept => rfl
  | claimed _ _ limit => exact Store.submissions_claimPending _ _ _
  | sent => rfl

theorem Recovery.submissions_step (m : Moment) (sh : Shared) (r : Recovery) :
    (r.step m.services sh).2.store.submissions = sh.store.submissions := by
  have ha := r.step_advance m sh
  generalize (r.step m.services sh).1 = r' at ha
  generalize (r.step m.services sh).2 = sh' at ha
  cases ha with
  | kept => rfl
  | reset => exact Store.submissions_resetScheduled _

theorem Cancellation.submissions_step (m : Moment) (sh : Shared) (c : Cancellation) :
    (c.step m.services sh).2.store.submissions = sh.store.submissions := by
  cases c with
  | requesting id =>
    have hkept := m.submissions_services_store sh (.cancel id) rfl
    rcases hr : m.services.store (.cancel id) sh with ⟨e | u, sh'⟩
    all_goals
      rw [hr] at hkept
      simp only [step, Control.onStore, hr]
      exact hkept
  | reading id => exact m.submissions_services_store sh (.load id) rfl
  | finished id result => rfl

/-! ### Submitting -/

namespace Control

variable {m : Moment} {new : NewJob} {sh : Shared}

/-- **A submission that is refused changes nothing.** -/
theorem shared_submit_of_error {e : SchedulerError} (h : (submit m.services new sh).1 = .error e) :
    (submit m.services new sh).2 = sh := by
  simp only [submit, NewJob.submit] at h ⊢
  cases hp : new.problem? with
  | some problem => rfl
  | none =>
    cases hm : m.storeOutage with
    | some reason => simp only [Moment.services, Moment.onStore, hm]
    | none =>
      simp only [hp, Moment.services_store hm, Store.perform] at h
      cases h

/-- A submission that is accepted keeps the limits and is stored under its new id. -/
theorem of_submit_ok {id : JobId} (h : (submit m.services new sh).1 = .ok id) :
    id = m.fresh ∧ new.problem? = none ∧
      (submit m.services new sh).2 = { sh with store := sh.store.insert new m.fresh m.now } := by
  simp only [submit, NewJob.submit] at h ⊢
  cases hp : new.problem? with
  | some problem =>
    simp only [hp] at h
    cases h
  | none =>
    cases hm : m.storeOutage with
    | some reason =>
      simp only [hp, Moment.services, Moment.onStore, hm] at h
      cases h
    | none =>
      simp only [hp, Moment.services_store hm, Store.perform] at h
      refine ⟨(Except.ok.inj h).symm, rfl, ?_⟩
      simp only [Moment.services_store hm, Store.perform]

end Control

/-- What becomes of a submission, if it is accepted: its id must not be in use. -/
def Scheduler.accepted? (s : Scheduler) (m : Moment) (new : NewJob) : Option Submission :=
  if (s.shared.store.find? m.fresh).isSome then none
  else
    match (Control.submit m.services new s.shared).1 with
    | .ok id => some ⟨id, new, m.now⟩
    | .error _ => none

/-- **The submission that is accepted in a step.** -/
def Step.submission? (p : Step) : Option Submission :=
  match p.event.move with
  | .submit new => p.before.accepted? p.event.moment new
  | _ => none

namespace Scheduler

variable {s : Scheduler} {e : Event}

/-- A submission adds what is accepted of it. -/
theorem submissions_submit (s : Scheduler) (m : Moment) (new : NewJob) :
    (s.submit m new).shared.store.submissions
      = s.shared.store.submissions ++ (s.accepted? m new).toList := by
  unfold submit accepted?
  split
  · exact (List.append_nil _).symm
  · cases hr : (Control.submit m.services new s.shared).1 with
    | error problem =>
      rw [Control.shared_submit_of_error hr]
      exact (List.append_nil _).symm
    | ok id =>
      obtain ⟨rfl, -, hsh⟩ := Control.of_submit_ok hr
      rw [hsh]
      exact Store.submissions_insert _ _ _ _

/-- **A step adds the submission that it accepts**, and changes nothing else that a job was made from. -/
theorem submissions_step (s : Scheduler) (e : Event) :
    (s.step e).shared.store.submissions
      = s.shared.store.submissions ++ (Step.mk s e (s.step e)).submission?.toList := by
  rw [Step.submission?, step]
  cases hm : e.move with
  | submit new => exact s.submissions_submit e.moment new
  | wish name =>
    simp only [Option.toList_none, List.append_nil]
    exact congrArg Store.submissions (Moment.services_broker_store _ _)
  | inject message => exact (List.append_nil _).symm
  | tick i =>
    simp only [tick, Option.toList_none, List.append_nil]
    cases s.engines[i]? with
    | none => rfl
    | some l => exact l.submissions_step _ _
  | recover => exact (List.append_nil _).symm
  | proceed i =>
    simp only [proceed, Option.toList_none, List.append_nil]
    cases s.recoveries[i]? with
    | none => rfl
    | some r => exact r.submissions_step _ _
  | take handlers timeout =>
    have hstore := Moment.services_broker_store (m := e.moment) (.popReady timeout) s.shared
    simp only [take, receive, Option.toList_none, List.append_nil]
    split <;> exact congrArg Store.submissions hstore
  | hand handlers t => exact (List.append_nil _).symm
  | execute k =>
    simp only [execute, Option.toList_none, List.append_nil]
    cases s.deliveries[k]? with
    | none => rfl
    | some d => exact Execution.submissions_step _ _ _ _
  | conclude k outcome elapsed =>
    simp only [conclude, Option.toList_none, List.append_nil]
    cases s.deliveries[k]? <;> rfl
  | cancel id => exact (List.append_nil _).symm
  | pursue i =>
    simp only [pursue, Option.toList_none, List.append_nil]
    cases s.cancellations[i]? with
    | none => rfl
    | some c => exact c.submissions_step _ _

/-- What is accepted in a step keeps the limits, and its id is new. -/
theorem of_submission? {p : Step} {u : Submission} (h : p.submission? = some u) :
    p.event.move = .submit u.new ∧ u.new.problem? = none ∧ p.before.record? u.id = none := by
  unfold Step.submission? accepted? at h
  split at h
  · next new hm =>
    split at h
    · cases h
    · next hfree =>
      split at h
      · next id hr =>
        obtain rfl := Option.some.inj h
        obtain ⟨rfl, hv, -⟩ := Control.of_submit_ok hr
        exact ⟨hm, hv, Option.not_isSome_iff_eq_none.mp hfree⟩
      · cases h
  · cases h

/-- **The records are the accepted submissions, in their order.** -/
theorem submissions_run (s : Scheduler) (es : List Event) :
    (s.run es).shared.store.submissions
      = s.shared.store.submissions ++ (s.trail es).filterMap Step.submission? := by
  induction es generalizing s with
  | nil => exact (List.append_nil _).symm
  | cons e es ih =>
    have hcons : (s.trail (e :: es)).filterMap Step.submission?
        = (Step.mk s e (s.step e)).submission?.toList
          ++ ((s.step e).trail es).filterMap Step.submission? := by
      rw [trail, List.filterMap_cons]
      cases (Step.mk s e (s.step e)).submission? <;> rfl
    rw [run_cons, ih, submissions_step, hcons, List.append_assoc]

end Scheduler

end JobDispatch
