import JobDispatch.Proofs.Job.Messages
import JobDispatch.Proofs.Scheduler.Advance
import JobDispatch.Proofs.Scheduler.Parties

/-!
# What a step can do

A step of a scheduler is a step of one of its parties.  From what each party can do it follows what can
become of a record: which of its states it can leave, for which other, and by whom.

## Main definitions

* `Scheduler.Effect` — **all that a step can do to a scheduler.**
* `Scheduler.Change` — **all that a step can do to a record**, with the party that does it.

## Main results

* `Scheduler.step_effect` — every step has one of these effects.
* `Scheduler.record?_step` — a record is never lost, and changes only in one of these ways.
* `Scheduler.record?_step_of_none` — a new record is that of a valid submission.
-/

namespace JobDispatch

namespace Scheduler

/-! ### The scheduler after a step -/

/-- **All that a step can do to a scheduler.** -/
inductive Effect (s : Scheduler) (e : Event) : Scheduler → Prop
  /-- The submission is refused, the party does not exist, or there is no message to take. -/
  | nothing : Effect s e s
  /-- A job is stored. -/
  | submitted (new : NewJob) (hv : new.problem? = none) (hf : s.record? e.moment.fresh = none) :
    Effect s e { s with shared :=
      { s.shared with store := s.shared.store.insert new e.moment.fresh e.moment.now } }
  /-- A policy is wanted. -/
  | wished (b : Broker) (hr : b.ready = s.shared.broker.ready)
    (hd : b.deadLetters = s.shared.broker.deadLetters) :
    Effect s e { s with shared := { s.shared with broker := b } }
  /-- A text is put on the ready queue. -/
  | injected (message : String) :
    Effect s e { s with shared := { s.shared with broker := s.shared.broker.pushRaw message } }
  /-- An engine takes a step. -/
  | ticked (i : Nat) (l l' : EngineLoop) (sh : Shared) (hm : e.move = .tick i)
    (hl : s.engines[i]? = some l) (ha : l.Advance e.moment s.shared l' sh) :
    Effect s e { s with engines := s.engines.set i l', shared := sh }
  /-- A recovery begins. -/
  | recovering : Effect s e { s with recoveries := s.recoveries ++ [.checking] }
  /-- A recovery takes a step. -/
  | proceeded (i : Nat) (r r' : Recovery) (sh : Shared) (hm : e.move = .proceed i)
    (hr : s.recoveries[i]? = some r) (ha : r.Advance s.shared r' sh) :
    Effect s e { s with recoveries := s.recoveries.set i r', shared := sh }
  /-- A message is taken. -/
  | taken (handlers : List String) (message : String) (rest : List String) (t : Ticket)
    (hr : s.shared.broker.ready = message :: rest) (ht : Ticket.ofMessage message = .ok t) :
    Effect s e
      ({ s with shared := { s.shared with broker := { s.shared.broker with ready := rest } } }.hand
        handlers t)
  /-- A message cannot be read. -/
  | discarded (message : String) (rest : List String) (hr : s.shared.broker.ready = message :: rest)
    (ht : Ticket.ofMessage message = .error (.decoding message)) :
    Effect s e { s with
      shared := { s.shared with broker := { s.shared.broker with ready := rest } },
      discarded := s.discarded ++ [message] }
  /-- An executor is given a ticket by hand. -/
  | handed (handlers : List String) (t : Ticket) : Effect s e (s.hand handlers t)
  /-- An execution takes a step. -/
  | executed (k : Nat) (d : Delivery) (hm : e.move = .execute k) (hd : s.deliveries[k]? = some d) :
    Effect s e { s with
      deliveries := s.deliveries.set k
        (d.advanced (d.execution.step e.moment.services d.handlers s.shared).1),
      shared := (d.execution.step e.moment.services d.handlers s.shared).2 }
  /-- The handler of an execution ends. -/
  | concluded (k : Nat) (d : Delivery) (outcome : HandlerOutcome) (elapsed : Span)
    (hm : e.move = .conclude k outcome elapsed) (hd : s.deliveries[k]? = some d) :
    Effect s e { s with
      deliveries := s.deliveries.set k (d.advanced (d.execution.resume outcome elapsed)) }
  /-- A cancellation begins. -/
  | cancelling (id : JobId) :
    Effect s e { s with cancellations := s.cancellations ++ [.requesting id] }
  /-- A cancellation takes a step. -/
  | pursued (i : Nat) (c c' : Cancellation) (sh : Shared) (hm : e.move = .pursue i)
    (hc : s.cancellations[i]? = some c) (ha : c.Advance e.moment s.shared c' sh) :
    Effect s e { s with cancellations := s.cancellations.set i c', shared := sh }

/-- What taking a message can do. -/
theorem effect_take (s : Scheduler) (e : Event) (handlers : List String) (timeout : Span) :
    Effect s e (s.take e.moment handlers timeout) := by
  simp only [take]
  cases hm : e.moment.brokerOutage with
  | some reason =>
    simp only [Moment.services_broker_outage hm, receive]
    exact .nothing
  | none =>
    simp only [Moment.services_broker hm, Broker.perform_popReady]
    cases hr : s.shared.broker.ready with
    | nil =>
      simp only [Broker.popReady_nil hr, receive]
      exact .nothing
    | cons message rest =>
      rw [Broker.popReady_cons hr]
      cases ht : Ticket.ofMessage message with
      | ok t => exact .taken handlers message rest t hr ht
      | error problem =>
        obtain rfl := Ticket.ofMessage_error ht
        exact .discarded message rest hr ht

/-- **Every step has one of these effects.** -/
theorem step_effect (s : Scheduler) (e : Event) (hs : s.shared.store.Distinct) :
    Effect s e (s.step e) := by
  unfold step
  cases hmove : e.move with
  | submit new =>
    simp only [submit]
    split
    · exact .nothing
    · next hf =>
      rcases e.moment.shared_submit new s.shared with hsh | ⟨hv, hsh⟩
      · rw [hsh]
        exact .nothing
      · rw [hsh]
        exact .submitted new hv (by simpa [record?] using hf)
  | wish name =>
    simp only
    cases hm : e.moment.brokerOutage with
    | some reason =>
      simp only [Moment.services_broker_outage hm]
      exact .nothing
    | none =>
      simp only [Moment.services_broker hm, Broker.perform]
      exact .wished _ rfl rfl
  | inject message => exact .injected message
  | tick i =>
    simp only [tick]
    cases hl : s.engines[i]? with
    | none => exact .nothing
    | some l => exact .ticked i l _ _ hmove hl (l.step_advance e.moment s.shared)
  | recover => exact .recovering
  | proceed i =>
    simp only [proceed]
    cases hr : s.recoveries[i]? with
    | none => exact .nothing
    | some r => exact .proceeded i r _ _ hmove hr (r.step_advance e.moment s.shared)
  | take handlers timeout => exact effect_take s e handlers timeout
  | hand handlers t => exact .handed handlers t
  | execute k =>
    simp only [execute]
    cases hd : s.deliveries[k]? with
    | none => exact .nothing
    | some d => exact .executed k d hmove hd
  | conclude k outcome elapsed =>
    simp only [conclude]
    cases hd : s.deliveries[k]? with
    | none => exact .nothing
    | some d => exact .concluded k d outcome elapsed hmove hd
  | cancel id => exact .cancelling id
  | pursue i =>
    simp only [pursue]
    cases hc : s.cancellations[i]? with
    | none => exact .nothing
    | some c => exact .pursued i c _ _ hmove hc (c.step_advance e.moment hs)

/-! ### A record after a step -/

/-- **All that a step can do to a record**, with the party that does it. -/
inductive Change (s : Scheduler) (e : Event) (id : JobId) : Job → Job → Prop
  /-- Nobody touches the record. -/
  | kept (j : Job) : Change s e id j j
  /-- An engine that claims jobs claims a pending job. -/
  | claimed (i : Nat) (l : EngineLoop) (j : Job) (hm : e.move = .tick i)
    (hl : s.engines[i]? = some l) (hp : l.phase = .ingesting) (hj : j.status = .pending) :
    Change s e id j (j.claimed e.moment.now)
  /-- A recovery that resets jobs resets a scheduled job. -/
  | reset (i : Nat) (j : Job) (hm : e.move = .proceed i)
    (hr : s.recoveries[i]? = some .resetting) (hj : j.status = .scheduled) :
    Change s e id j j.unclaimed
  /-- A cancellation of the job cancels it before it runs. -/
  | cancelled (i : Nat) (j : Job) (hm : e.move = .pursue i)
    (hc : s.cancellations[i]? = some (.requesting id)) (hj : j.status.isCancellable = true) :
    Change s e id j (j.cancelled e.moment.now)
  /-- An execution of the job takes a step. -/
  | executed (k : Nat) (d : Delivery) (x : Execution) (j j' : Job) (hm : e.move = .execute k)
    (hd : s.deliveries[k]? = some d) (hid : d.job = id)
    (ha : Execution.Advance e.moment.now d.handlers (some j) d.execution (some j') x) :
    Change s e id j j'

variable {s : Scheduler} {e : Event}

/-- What every execution knows agrees with the record of its job. -/
def Fitting (s : Scheduler) : Prop := ∀ d ∈ s.deliveries, d.execution.Fits d.job (s.record? d.job)

theorem Fitting.of_getElem? (h : s.Fitting) {k : Nat} {d : Delivery} (hd : s.deliveries[k]? = some d) :
    d.execution.Fits d.job (s.record? d.job) :=
  h d (List.mem_of_getElem? hd)

/-- An execution's step is an advance of it and of the record of its job. -/
theorem Fitting.advance (h : s.Fitting) (hs : s.shared.store.Distinct) (he : e.StoreAnswers) {k : Nat}
    {d : Delivery} (hd : s.deliveries[k]? = some d) :
    Execution.Advance e.moment.now d.handlers (s.record? d.job) d.execution
      ((d.execution.step e.moment.services d.handlers s.shared).2.store.find? d.job)
      (d.execution.step e.moment.services d.handlers s.shared).1 :=
  (Execution.step_advance he hs (h.of_getElem? hd) d.handlers).1

/-- No step gives two records the same id. -/
theorem distinct_step (hs : s.shared.store.Distinct) (hf : s.Fitting) (he : e.StoreAnswers) :
    (s.step e).shared.store.Distinct := by
  have h := step_effect s e hs
  generalize s.step e = s' at h
  cases h with
  | nothing => exact hs
  | submitted new hv hfresh => exact hs.insert hfresh new e.moment.now
  | wished b hr hd => exact hs
  | injected message => exact hs
  | ticked i l l' sh hm hl ha =>
    cases ha with
    | kept _ _ hp => exact hs
    | claimed _ _ limit hp ht => exact hs.claimPending limit e.moment.now
    | sent _ _ t ht => exact hs
  | recovering => exact hs
  | proceeded i r r' sh hm hr ha =>
    cases ha with
    | kept => exact hs
    | reset => exact hs.resetScheduled
  | taken handlers message rest t hr ht => exact hs
  | discarded message rest hr ht => exact hs
  | handed handlers t => exact hs
  | executed k d hm hd => exact (Execution.step_advance he hs (hf.of_getElem? hd) d.handlers).2
  | concluded k d outcome elapsed hm hd => exact hs
  | cancelling id => exact hs
  | pursued i c c' sh hm hc ha =>
    cases ha with
    | refused => exact hs
    | made id j _ hj hcan => exact hs.put _
    | read => exact hs
    | resting => exact hs

/-- **A record is never lost, and changes only in one of these ways.** -/
theorem record?_step (hs : s.shared.store.Distinct) (hf : s.Fitting) (he : e.StoreAnswers) {id : JobId}
    {j : Job} (hj : s.record? id = some j) :
    ∃ j', (s.step e).record? id = some j' ∧ Change s e id j j' := by
  have h := step_effect s e hs
  generalize s.step e = s' at h
  cases h with
  | nothing => exact ⟨j, hj, .kept j⟩
  | submitted new hv hfresh => exact ⟨j, Store.find?_insert_of_find? hj new _ _, .kept j⟩
  | wished b hr hd => exact ⟨j, hj, .kept j⟩
  | injected message => exact ⟨j, hj, .kept j⟩
  | ticked i l l' sh hm hl ha =>
    cases ha with
    | kept _ _ hp => exact ⟨j, hj, .kept j⟩
    | claimed _ _ limit hp ht =>
      rcases Store.find?_claimPending hs hj limit e.moment.now with hsame | ⟨hpending, hnew, -⟩
      · exact ⟨j, hsame, .kept j⟩
      · exact ⟨_, hnew, .claimed i l j hm hl hp hpending⟩
    | sent _ _ t ht => exact ⟨j, hj, .kept j⟩
  | recovering => exact ⟨j, hj, .kept j⟩
  | proceeded i r r' sh hm hr ha =>
    cases ha with
    | kept => exact ⟨j, hj, .kept j⟩
    | reset =>
      have hnew := Store.find?_resetScheduled s.shared.store id
      rw [show s.shared.store.find? id = some j from hj, Option.map_some] at hnew
      by_cases hst : j.status = .scheduled
      · rw [if_pos hst] at hnew
        exact ⟨_, hnew, .reset i j hm hr hst⟩
      · rw [if_neg hst] at hnew
        exact ⟨_, hnew, .kept j⟩
  | taken handlers message rest t hr ht => exact ⟨j, hj, .kept j⟩
  | discarded message rest hr ht => exact ⟨j, hj, .kept j⟩
  | handed handlers t => exact ⟨j, hj, .kept j⟩
  | executed k d hm hd =>
    by_cases hid : d.job = id
    · subst hid
      -- the record of the job that is executed: it is there after the step as before
      have ha := hf.advance hs he hd
      rw [hj] at ha
      generalize hr : (d.execution.step e.moment.services d.handlers s.shared).2.store.find? d.job = r'
        at ha
      generalize (d.execution.step e.moment.services d.handlers s.shared).1 = x at ha
      obtain ⟨j', rfl⟩ := ha.exists_of_some
      exact ⟨j', hr, .executed k d x j j' hm hd rfl ha⟩
    · have hsame := Execution.find?_step_of_ne (m := e.moment) hs (hf.of_getElem? hd) d.handlers
        (Ne.symm hid)
      exact ⟨j, hsame.trans hj, .kept j⟩
  | concluded k d outcome elapsed hm hd => exact ⟨j, hj, .kept j⟩
  | cancelling id' => exact ⟨j, hj, .kept j⟩
  | pursued i c c' sh hm hc ha =>
    cases ha with
    | refused => exact ⟨j, hj, .kept j⟩
    | made id' i' _ hi hcan =>
      have hid' : i'.id = id' := Store.id_of_find? hi
      by_cases hid : id = id'
      · subst hid
        obtain rfl : i' = j := Option.some.inj (hi.symm.trans hj)
        exact ⟨_, Store.find?_put_self hj hid', .cancelled i i' hm hc hcan⟩
      · have hne : id ≠ (i'.cancelled e.moment.now).id := fun h => hid (h.trans hid')
        exact ⟨j, (Store.find?_put_of_ne hne).trans hj, .kept j⟩
    | read => exact ⟨j, hj, .kept j⟩
    | resting => exact ⟨j, hj, .kept j⟩

/-- **A new record is that of a valid submission.** -/
theorem record?_step_of_none (hs : s.shared.store.Distinct) (hf : s.Fitting) (he : e.StoreAnswers)
    {id : JobId} (hj : s.record? id = none) :
    (s.step e).record? id = none ∨ ∃ new : NewJob, new.problem? = none ∧
      (s.step e).record? id = some (new.record id e.moment.now) := by
  have h := step_effect s e hs
  generalize s.step e = s' at h
  cases h with
  | nothing => exact Or.inl hj
  | submitted new hv hfresh =>
    have hnew := Store.find?_insert s.shared.store new e.moment.fresh e.moment.now id
    rw [show s.shared.store.find? id = none from hj, Option.none_or] at hnew
    by_cases hid : e.moment.fresh = id
    · subst hid
      rw [if_pos rfl] at hnew
      exact Or.inr ⟨new, hv, hnew⟩
    · rw [if_neg hid] at hnew
      exact Or.inl hnew
  | wished b hr hd => exact Or.inl hj
  | injected message => exact Or.inl hj
  | ticked i l l' sh hm hl ha =>
    cases ha with
    | kept _ _ hp => exact Or.inl hj
    | claimed _ _ limit hp ht => exact Or.inl (Store.find?_claimPending_eq_none hj limit _)
    | sent _ _ t ht => exact Or.inl hj
  | recovering => exact Or.inl hj
  | proceeded i r r' sh hm hr ha =>
    cases ha with
    | kept => exact Or.inl hj
    | reset =>
      have hnew := Store.find?_resetScheduled s.shared.store id
      rw [show s.shared.store.find? id = none from hj, Option.map_none] at hnew
      exact Or.inl hnew
  | taken handlers message rest t hr ht => exact Or.inl hj
  | discarded message rest hr ht => exact Or.inl hj
  | handed handlers t => exact Or.inl hj
  | executed k d hm hd =>
    refine Or.inl ?_
    by_cases hid : d.job = id
    · subst hid
      have ha := hf.advance hs he hd
      rw [hj] at ha
      generalize hr : (d.execution.step e.moment.services d.handlers s.shared).2.store.find? d.job = r'
        at ha
      generalize (d.execution.step e.moment.services d.handlers s.shared).1 = x at ha
      obtain rfl := ha.eq_none
      exact hr
    · exact (Execution.find?_step_of_ne (m := e.moment) hs (hf.of_getElem? hd) d.handlers
        (Ne.symm hid)).trans hj
  | concluded k d outcome elapsed hm hd => exact Or.inl hj
  | cancelling id' => exact Or.inl hj
  | pursued i c c' sh hm hc ha =>
    cases ha with
    | refused => exact Or.inl hj
    | made id' i' _ hi hcan =>
      have hne : id ≠ (i'.cancelled e.moment.now).id := by
        rintro rfl
        exact absurd (hj.symm.trans ((Store.id_of_find? hi) ▸ hi)) (by simp)
      exact Or.inl ((Store.find?_put_of_ne hne).trans hj)
    | read => exact Or.inl hj
    | resting => exact Or.inl hj

end Scheduler

end JobDispatch
