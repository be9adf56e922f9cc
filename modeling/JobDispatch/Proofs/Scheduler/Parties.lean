import JobDispatch.Proofs.Policy.Content
import JobDispatch.Proofs.Scheduler.Basic
import JobDispatch.Proofs.Store.Records

/-!
# One step of an engine, a recovery or a cancellation

## Main definitions

* `EngineLoop.Advance`, `Recovery.Advance`, `Cancellation.Advance` — all that a step of each party can
  do to it and to what is shared.

## Main results

* `EngineLoop.step_advance`, `Recovery.step_advance`, `Cancellation.step_advance` — a step is an
  advance.
* `Moment.shared_submit` — a submission adds a record or does nothing.
-/

namespace JobDispatch

variable {m : Moment}

/-! ### Engines -/

/-- The tickets that an engine holds, in no particular order. -/
def EngineLoop.tickets (l : EngineLoop) : List Ticket := l.engine.policy.tickets

/-- **All that a step of an engine can do**: the engine and what is shared before it, and both after
it. -/
inductive EngineLoop.Advance (m : Moment) : EngineLoop → Shared → EngineLoop → Shared → Prop
  /-- The engine reads which policy is wanted, ends its tick, begins a new one or fails. -/
  | kept (l l' : EngineLoop) (sh : Shared) (h : l'.tickets.Perm l.tickets) : Advance m l sh l' sh
  /-- Jobs are claimed. -/
  | claimed (l l' : EngineLoop) (sh : Shared) (limit : Nat) (hp : l.phase = .ingesting)
    (h : l'.tickets.Perm ((sh.store.claimPending limit m.now).1.map Job.ticket ++ l.tickets)) :
    Advance m l sh l' { sh with store := (sh.store.claimPending limit m.now).2 }
  /-- A ticket is sent. -/
  | sent (l l' : EngineLoop) (sh : Shared) (t : Ticket) (h : l.tickets.Perm (t :: l'.tickets)) :
    Advance m l sh l' { sh with broker := sh.broker.pushRaw t.text }

/-- A policy that has just been created holds nothing. -/
theorem PolicyRegistry.tickets_of_create {r r' : PolicyRegistry} {name : String} {p : Policy}
    (h : r.create name = .ok (p, r')) : p.tickets = [] := by
  unfold create at h
  split at h
  · obtain ⟨rfl, -⟩ := Prod.mk.inj (Except.ok.inj h)
    exact Policy.tickets_ofKind _
  · exact absurd h (by simp)

/-- Following the wanted policy neither loses nor invents a ticket. -/
theorem Engine.perm_tickets_follow (e : Engine) (desired : Option String) :
    (e.follow desired).1.policy.tickets.Perm e.policy.tickets := by
  unfold Engine.follow
  split
  · exact List.Perm.refl _
  · split
    · exact List.Perm.refl _
    · split
      · next fresh registry hf =>
        have hmoved := Policy.perm_drainInto e.policy fresh
        rwa [PolicyRegistry.tickets_of_create hf, List.append_nil] at hmoved
      · split <;> exact List.Perm.refl _

/-- Reading which policy is wanted changes nothing. -/
theorem Moment.shared_desiredPolicy (sh : Shared) : (m.services.broker .desiredPolicy sh).2 = sh := by
  simp only [services, onBroker]
  split <;> rfl

/-- **A step is an advance.** -/
theorem EngineLoop.step_advance (m : Moment) (l : EngineLoop) (sh : Shared) :
    Advance m l sh (l.step m.services sh).1 (l.step m.services sh).2 := by
  obtain ⟨engine, phase⟩ := l
  cases phase with
  | reconciling =>
    have hshared := Moment.shared_desiredPolicy (m := m) sh
    simp only [step, Engine.step]
    rcases hb : m.services.broker .desiredPolicy sh with ⟨problem | desired, sh'⟩
    all_goals
      rw [hb] at hshared
      obtain rfl : sh' = sh := hshared
    · exact .kept _ _ _ (List.Perm.refl _)
    · have hperm := Engine.perm_tickets_follow engine desired
      simp only
      rcases hf : engine.follow desired with ⟨e, _ | notice⟩
      all_goals
        rw [hf] at hperm
        exact .kept _ _ _ hperm
  | ingesting =>
    simp only [step, Engine.step]
    cases hm : m.storeOutage with
    | some reason =>
      simp only [Moment.services, Moment.onStore, hm]
      exact .kept _ _ _ (List.Perm.refl _)
    | none =>
      simp only [Moment.services_store hm, Store.perform]
      exact .claimed _ _ _ engine.config.batchSize rfl (Policy.perm_enqueueAll _ _)
  | dispatching ingested dispatched =>
    simp only [step]
    cases hd : engine.policy.dequeue? with
    | none =>
      rw [Engine.step_dispatching_of_dequeue?_eq_none hd]
      exact .kept _ _ _ (List.Perm.refl _)
    | some p =>
      obtain ⟨t, rest⟩ := p
      have hperm := Policy.perm_dequeue? hd
      rw [Engine.step_dispatching_of_dequeue? hd]
      -- the ticket leaves the policy only if its message has been sent
      cases hm : m.brokerOutage with
      | some reason =>
        simp only [Moment.services_broker_outage hm]
        exact .kept _ _ _ (List.Perm.refl _)
      | none =>
        simp only [Moment.services_broker hm, Broker.perform]
        exact .sent _ _ _ t hperm
  | finished result => exact .kept _ _ _ (List.Perm.refl _)

/-! ### Recoveries -/

/-- **All that a step of a recovery can do.** -/
inductive Recovery.Advance : Recovery → Shared → Recovery → Shared → Prop
  /-- The recovery looks at the ready queue, has ended or fails. -/
  | kept (r r' : Recovery) (sh : Shared) : Advance r sh r' sh
  /-- Scheduled jobs become pending. -/
  | reset (r' : Recovery) (sh : Shared) :
    Advance .resetting sh r' { sh with store := sh.store.resetScheduled.2 }

/-- Looking at the length of the ready queue changes nothing. -/
theorem Moment.shared_readyLength (sh : Shared) : (m.services.broker .readyLength sh).2 = sh := by
  simp only [services, onBroker]
  split <;> rfl

/-- **A step is an advance.** -/
theorem Recovery.step_advance (m : Moment) (r : Recovery) (sh : Shared) :
    Advance r sh (r.step m.services sh).1 (r.step m.services sh).2 := by
  cases r with
  | checking =>
    have hshared := Moment.shared_readyLength (m := m) sh
    simp only [step]
    rcases hb : m.services.broker .readyLength sh with ⟨problem | n, sh'⟩
    all_goals
      rw [hb] at hshared
      obtain rfl : sh' = sh := hshared
      exact .kept _ _ _
  | resetting =>
    simp only [step]
    cases hm : m.storeOutage with
    | some reason =>
      simp only [Moment.services, Moment.onStore, hm]
      exact .kept _ _ _
    | none =>
      simp only [Moment.services_store hm, Store.perform]
      exact .reset _ _
  | finished result => exact .kept _ _ _

/-- No recovery changes anything of the broker. -/
theorem Recovery.broker_step (m : Moment) (sh : Shared) (r : Recovery) :
    (r.step m.services sh).2.broker = sh.broker := by
  have ha := r.step_advance m sh
  generalize (r.step m.services sh).1 = r' at ha
  generalize (r.step m.services sh).2 = sh' at ha
  cases ha <;> rfl

/-! ### Cancellations -/

/-- **All that a step of a cancellation can do.** -/
inductive Cancellation.Advance (m : Moment) : Cancellation → Shared → Cancellation → Shared → Prop
  /-- The job is not there, cannot be cancelled any more, or the store cannot be reached. -/
  | refused (id : JobId) (problem : SchedulerError) (sh : Shared) :
    Advance m (requesting id) sh (finished id (.error problem)) sh
  /-- The job is cancelled. -/
  | made (id : JobId) (j : Job) (sh : Shared) (hj : sh.store.find? id = some j)
    (hc : j.status.isCancellable = true) :
    Advance m (requesting id) sh (reading id) { sh with store := sh.store.put (j.cancelled m.now) }
  /-- The record has been read. -/
  | read (id : JobId) (result : Except SchedulerError Job) (sh : Shared)
    (hr : m.storeOutage = none → result = Control.found id (.ok (sh.store.find? id))) :
    Advance m (reading id) sh (finished id result) sh
  /-- The cancellation has ended. -/
  | resting (id : JobId) (result : Except SchedulerError Job) (sh : Shared) :
    Advance m (finished id result) sh (finished id result) sh

/-- **A step is an advance.** -/
theorem Cancellation.step_advance (m : Moment) (c : Cancellation) {sh : Shared}
    (hs : sh.store.Distinct) : Advance m c sh (c.step m.services sh).1 (c.step m.services sh).2 := by
  cases c with
  | requesting id =>
    simp only [step, Control.onStore]
    cases hm : m.storeOutage with
    | some reason =>
      simp only [Moment.services, Moment.onStore, hm]
      exact .refused _ _ _
    | none =>
      simp only [Moment.services_store hm, Store.perform, Store.cancel_eq hs]
      cases hj : sh.store.find? id with
      | none => exact .refused _ _ _
      | some j =>
        by_cases hc : j.status.isCancellable = true
        · simp only [hc, if_true, Store.outcome]
          exact .made id j sh hj hc
        · simp only [hc]
          exact .refused _ _ _
  | reading id =>
    simp only [step, Control.get, Control.onStore]
    cases hm : m.storeOutage with
    | some reason =>
      simp only [Moment.services, Moment.onStore, hm]
      exact .read _ _ _ (by simp [hm])
    | none =>
      simp only [Moment.services_store hm, Store.perform]
      exact .read _ _ _ fun _ => rfl
  | finished id result => exact .resting _ _ _

/-- No cancellation changes anything of the broker. -/
theorem Cancellation.broker_step (m : Moment) (sh : Shared) (c : Cancellation) :
    (c.step m.services sh).2.broker = sh.broker := by
  cases c with
  | requesting id =>
    have hbroker := Moment.services_store_broker (m := m) (.cancel id) sh
    rcases hr : m.services.store (.cancel id) sh with ⟨e | u, sh'⟩
    all_goals
      rw [hr] at hbroker
      simp only [step, Control.onStore, hr]
      exact hbroker
  | reading id => exact Moment.services_store_broker (m := m) (.load id) sh
  | finished id result => rfl

/-! ### Submissions -/

/-- **A submission adds a record or does nothing.** -/
theorem Moment.shared_submit (m : Moment) (new : NewJob) (sh : Shared) :
    (Control.submit m.services new sh).2 = sh ∨
      (new.problem? = none ∧
        (Control.submit m.services new sh).2
          = { sh with store := sh.store.insert new m.fresh m.now }) := by
  simp only [Control.submit, NewJob.submit]
  cases hp : new.problem? with
  | some problem => exact Or.inl rfl
  | none =>
    cases hm : m.storeOutage with
    | some reason =>
      refine Or.inl ?_
      simp only [services, onStore, hm]
    | none =>
      refine Or.inr ⟨rfl, ?_⟩
      simp only [services_store hm, Store.perform]

end JobDispatch
