import JobDispatch.Proofs.Scheduler.Sound

/-!
# No job is stranded

A job that has been claimed waits for an execution.  What will bring one about is passed on from party
to party: an engine holds a ticket of the job, the ticket is sent as a message, and the message is taken
by an executor.  Each of them lets go only when the next has taken hold, or when the job no longer
waits; the one exception is a message that cannot be read.

## Main definitions

* `Scheduler.Carrier` — who can hold what brings about the execution of a job.
* `Scheduler.Carried` — a job has a carrier, or its message could not be read.

## Main results

* `Scheduler.Carried.step` — **a carrier is kept or passes on its hold**, as long as the job waits.
* `Scheduler.carried_of_claimed` — a job that is claimed has a carrier.
* `Scheduler.no_job_stranded` — **along every run every waiting job is carried.**
-/

namespace JobDispatch

namespace Execution

/-- Whether an execution has not yet tried to start its job. -/
def isClaiming : Execution → Bool
  | loading _ => true
  | starting _ => true
  | _ => false

/-- An execution that is about to start a job which waits before and after a step goes on to do so. -/
theorem Advance.isClaiming {now : Timestamp} {handlers : List String} {j j' : Job} {x x' : Execution}
    (h : Advance now handlers (some j) x (some j') x') (hj : j.status = .scheduled)
    (hj' : j'.status = .scheduled) (hx : x.isClaiming = true) : x'.isClaiming = true := by
  cases h with
  | ready id _ hs => rfl
  | idle id _ hs => exact absurd hj hs
  | started job _ hs => exact absurd hj' (by simp)
  | lost job _ hs => exact absurd hj hs
  | resting _ _ hr => exact hx
  | _ => simp [Execution.isClaiming] at hx

/-- An execution leaves no record waiting that it has changed. -/
theorem Advance.eq_of_scheduled {now : Timestamp} {handlers : List String} {j j' : Job}
    {x x' : Execution} (h : Advance now handlers (some j) x (some j') x')
    (hj' : j'.status = .scheduled) : j' = j := by
  cases h with
  | started job _ hs => exact absurd hj' (by simp)
  | completed id result elapsed _ hs => exact absurd hj' (by simp)
  | returned e id error _ n max hs hd => exact absurd hj' (by simp)
  | exhausted e job error _ n hs hd => exact absurd hj' (by simp)
  | _ => rfl

end Execution

namespace Scheduler

variable {s : Scheduler} {e : Event} {j : Job}

/-- **Who can hold what brings about the execution of a job.** -/
inductive Carrier (s : Scheduler) (j : Job) : Prop
  /-- An engine holds the ticket of the job. -/
  | queued (l : EngineLoop) (hl : l ∈ s.engines) (ht : j.ticket ∈ l.tickets)
  /-- The message of the job is on the ready queue. -/
  | sent (hm : j.ticket.text ∈ s.shared.broker.ready)
  /-- An execution of the job has not yet tried to start it. -/
  | held (d : Delivery) (hd : d ∈ s.deliveries) (hid : d.job = j.id)
    (hx : d.execution.isClaiming = true)

/-- A job has a carrier, or its message could not be read. -/
def Carried (s : Scheduler) (j : Job) : Prop := s.Carrier j ∨ j.ticket.text ∈ s.discarded

/-! ### Engines -/

/-- A ticket that an engine holds is kept or sent. -/
theorem carrier_step_of_queued (hs : s.shared.store.Distinct) {l : EngineLoop} (hl : l ∈ s.engines)
    (ht : j.ticket ∈ l.tickets) : (s.step e).Carrier j := by
  have h := step_effect s e hs
  generalize s.step e = s' at h
  cases h with
  | ticked i l₁ l' sh hm hl₁ ha =>
    obtain ⟨n, hn⟩ := List.mem_iff_getElem?.mp hl
    obtain ⟨hlt, -⟩ := List.getElem?_eq_some_iff.mp hl₁
    by_cases hni : i = n
    · -- the engine that holds the ticket is the one that takes the step
      subst hni
      obtain rfl := Option.some.inj (hn.symm.trans hl₁)
      have hmem : l' ∈ s.engines.set i l' := List.mem_set hlt l'
      cases ha with
      | kept _ _ hp => exact .queued l' hmem (hp.mem_iff.mpr ht)
      | claimed _ _ limit hp hperm =>
        exact .queued l' hmem (hperm.mem_iff.mpr (List.mem_append_right _ ht))
      | sent _ _ t hperm =>
        rcases List.mem_cons.mp (hperm.mem_iff.mp ht) with rfl | ht'
        · exact .sent (List.mem_append_right _ (List.mem_singleton_self _))
        · exact .queued l' hmem ht'
    · have hkept : (s.engines.set i l')[n]? = some l := (List.getElem?_set_ne hni).trans hn
      exact .queued l (List.mem_of_getElem? hkept) ht
  | _ => exact .queued l hl ht

/-! ### Messages -/

/-- A message on the ready queue stays there, is taken, or cannot be read. -/
theorem carried_step_of_sent (hs : s.shared.store.Distinct)
    (hm : j.ticket.text ∈ s.shared.broker.ready) : (s.step e).Carried j := by
  have h := step_effect s e hs
  generalize s.step e = s' at h
  cases h with
  | wished b hr hd => exact Or.inl (.sent (hr ▸ hm))
  | injected message => exact Or.inl (.sent (List.mem_append_left _ hm))
  | ticked i l l' sh hm' hl ha =>
    cases ha with
    | kept => exact Or.inl (.sent hm)
    | claimed => exact Or.inl (.sent hm)
    | sent _ _ t => exact Or.inl (.sent (List.mem_append_left _ hm))
  | proceeded i r r' sh hm' hr ha => cases ha <;> exact Or.inl (.sent hm)
  | taken handlers message rest t hr ht =>
    rw [hr] at hm
    rcases List.mem_cons.mp hm with rfl | hm
    · -- whoever reads the message of a job reads its id
      have hid : t.jobId = j.id := Ticket.jobId_of_ofMessage_text ht
      exact Or.inl (.held ⟨t.jobId, handlers, .loading t.jobId⟩
        (List.mem_append_right _ (List.mem_singleton_self _)) hid rfl)
    · exact Or.inl (.sent hm)
  | discarded message rest hr ht =>
    rw [hr] at hm
    rcases List.mem_cons.mp hm with rfl | hm
    · exact Or.inr (List.mem_append_right _ (List.mem_singleton_self _))
    · exact Or.inl (.sent hm)
  | executed k d hm' hd =>
    refine Or.inl (.sent ?_)
    rw [Execution.ready_step]
    exact hm
  | pursued i c c' sh hm' hc ha => cases ha <;> exact Or.inl (.sent hm)
  | _ => exact Or.inl (.sent hm)

/-- What has been thrown away stays thrown away. -/
theorem mem_discarded_step (hs : s.shared.store.Distinct) {message : String}
    (hm : message ∈ s.discarded) : message ∈ (s.step e).discarded := by
  have h := step_effect s e hs
  generalize s.step e = s' at h
  cases h with
  | discarded => exact List.mem_append_left _ hm
  | _ => exact hm

/-! ### Executions -/

/-- An execution that is about to start a job does so, unless the job no longer waits. -/
theorem carrier_step_of_held (h : s.Sound) (ha : e.StoreAnswers) (hj : s.record? j.id = some j)
    (hj' : (s.step e).record? j.id = some j) (hst : j.status = .scheduled) {d : Delivery}
    (hd : d ∈ s.deliveries) (hid : d.job = j.id) (hx : d.execution.isClaiming = true) :
    (s.step e).Carrier j := by
  obtain ⟨n, hn⟩ := List.mem_iff_getElem?.mp hd
  rcases execute_or s e with ⟨k, c, hm, hdk⟩ | ⟨k, hm, hdk⟩ | he
  · have hset := deliveries_step_of_execute hm hdk
    by_cases hkn : k = n
    · subst hkn
      obtain rfl := Option.some.inj (hn.symm.trans hdk)
      have hlt : k < s.deliveries.length := (List.getElem?_eq_some_iff.mp hn).1
      have hadv := h.fitting.advance h.distinct ha hn
      rw [← record?_step_of_execute hm hn, hid, hj, hj'] at hadv
      refine .held (d.advanced (d.execution.step e.moment.services d.handlers s.shared).1) ?_ hid
        (hadv.isClaiming hst hst hx)
      rw [hset]
      exact List.mem_set hlt _
    · have hkept : (s.step e).deliveries[n]? = some d := by
        rw [hset, List.getElem?_set_ne hkn]
        exact hn
      exact .held d (List.mem_of_getElem? hkept) hid hx
  · rw [step_of_execute_none hm hdk]
    exact .held d hd hid hx
  · rcases deliveries_step h.distinct he with hkept | ⟨handlers, t, hnew⟩ |
      ⟨k, c, outcome, elapsed, -, hc, hended⟩
    · exact .held d (hkept ▸ hd) hid hx
    · refine .held d ?_ hid hx
      rw [hnew]
      exact List.mem_append_left _ hd
    · by_cases hkn : k = n
      · -- it is not the handler of this execution that ends
        subst hkn
        obtain rfl := Option.some.inj (hn.symm.trans hc)
        have hlt : k < s.deliveries.length := (List.getElem?_eq_some_iff.mp hn).1
        have hx' : (d.execution.resume outcome elapsed).isClaiming = true := by
          cases hexec : d.execution <;> simp_all [Execution.isClaiming, Execution.resume]
        refine .held (d.advanced (d.execution.resume outcome elapsed)) ?_ hid hx'
        rw [hended]
        exact List.mem_set hlt _
      · have hkept : (s.step e).deliveries[n]? = some d := by
          rw [hended, List.getElem?_set_ne hkn]
          exact hn
        exact .held d (List.mem_of_getElem? hkept) hid hx

/-! ### All together -/

/-- **A carrier is kept or passes on its hold**, as long as the job waits. -/
theorem Carried.step (hc : s.Carried j) (h : s.Sound) (ha : e.StoreAnswers)
    (hj : s.record? j.id = some j) (hj' : (s.step e).record? j.id = some j)
    (hst : j.status = .scheduled) : (s.step e).Carried j := by
  rcases hc with (⟨l, hl, ht⟩ | hm | ⟨d, hd, hid, hx⟩) | hm
  · exact Or.inl (carrier_step_of_queued h.distinct hl ht)
  · exact carried_step_of_sent h.distinct hm
  · -- here the job must still wait after the step: an execution lets go of one that does not
    exact Or.inl (carrier_step_of_held h ha hj hj' hst hd hid hx)
  · exact Or.inr (mem_discarded_step h.distinct hm)

/-- **A job that is claimed has a carrier**: the engine that has claimed it. -/
theorem carried_of_claimed (hs : s.shared.store.Distinct) {id : JobId} {i : Nat}
    (hm : e.move = .tick i) (hj : s.record? id = some j)
    (hst : j.status = .pending) {j' : Job} (hj' : (s.step e).record? id = some j')
    (hst' : j'.status = .scheduled) : (s.step e).Carried j' := by
  have h := step_effect s e hs
  generalize s.step e = s' at h hj'
  have hne : j ≠ j' := by
    rintro rfl
    exact absurd (hst.symm.trans hst') (by simp)
  have hkept : s.record? id = some j' → s'.Carried j' :=
    fun hsame => absurd (Option.some.inj (hj.symm.trans hsame)) hne
  cases h with
  | submitted new hv hfresh =>
    exact hkept (hj.trans (Store.find?_insert_of_find? hj new _ _).symm |>.trans hj')
  | ticked i₁ l₁ l' sh hm₁ hl₁ ha =>
    cases ha with
    | kept => exact hkept hj'
    | sent => exact hkept hj'
    | claimed _ _ limit hp hperm =>
      rcases Store.find?_claimPending hs hj limit e.moment.now with hsame | ⟨-, hnew, hmem⟩
      · exact hkept (hj.trans (hsame.symm.trans hj'))
      · -- the record after the step is among those that the engine has claimed
        obtain rfl := Option.some.inj (hj'.symm.trans hnew)
        have hlt : i₁ < s.engines.length := (List.getElem?_eq_some_iff.mp hl₁).1
        exact Or.inl (.queued l' (List.mem_set hlt l')
          (hperm.mem_iff.mpr (List.mem_append_left _ (List.mem_map_of_mem hmem))))
  | proceeded i₁ r r' sh hm₁ hr ha => exact absurd (hm.symm.trans hm₁) (by simp)
  | executed k d hm₁ hd => exact absurd (hm.symm.trans hm₁) (by simp)
  | pursued i₁ c c' sh hm₁ hc ha => exact absurd (hm.symm.trans hm₁) (by simp)
  | _ => exact hkept hj'

/-- Every waiting job is carried. -/
def Unstranded (s : Scheduler) : Prop :=
  ∀ id j, s.record? id = some j → j.status = .scheduled → s.Carried j

/-- Every step keeps all waiting jobs carried. -/
theorem Unstranded.step (hu : s.Unstranded) (h : s.Sound) (ha : e.StoreAnswers) :
    (s.step e).Unstranded := by
  intro id j' hj' hst'
  cases hj : s.record? id with
  | none =>
    -- a new record is pending, not waiting for an execution
    rcases record?_step_of_none h.distinct h.fitting ha hj with hn | ⟨new, -, hn⟩
    · exact absurd (hj'.symm.trans hn) (by simp)
    · obtain rfl := Option.some.inj (hj'.symm.trans hn)
      exact absurd hst' (by simp [NewJob.record])
  | some j =>
    obtain ⟨i, hi, hchange⟩ := record?_step h.distinct h.fitting ha hj
    obtain rfl := Option.some.inj (hj'.symm.trans hi)
    have hid : j'.id = id := Store.id_of_find? hj'
    cases hchange with
    | kept =>
      subst hid
      exact (hu _ _ hj hst').step h ha hj hj' hst'
    | claimed i l _ hm hl hp hs => exact carried_of_claimed h.distinct hm hj hs hj' rfl
    | reset => exact absurd hst' (by simp)
    | cancelled => exact absurd hst' (by simp)
    | executed k d x _ _ hm hd hdj hadv =>
      obtain rfl := hadv.eq_of_scheduled hst'
      subst hid
      exact (hu _ _ hj hst').step h ha hj hj' hst'

/-- **No job is stranded.**  In every state of every run in which the store answers, whether or not the
broker does, every job that is scheduled has a carrier: an engine holds its ticket, its message is on
the ready queue, or an execution of it has not yet tried to start it.  The only exception is a job whose
message was thrown away because it could not be read. -/
theorem no_job_stranded (engines : List Engine) {es : List Event}
    (hes : ∀ e ∈ es, e.StoreAnswers) {id : JobId} {j : Job}
    (hj : ((start engines).run es).record? id = some j) (hst : j.status = .scheduled) :
    ((start engines).run es).Carrier j ∨ j.ticket.text ∈ ((start engines).run es).discarded := by
  -- that waiting jobs are carried is kept only together with the general invariant
  have hall := run_induction (P := fun s => s.Sound ∧ s.Unstranded)
    ⟨sound_start engines, fun _ _ hnone => absurd hnone (by simp [record?, Store.find?, start])⟩ hes
    fun s e ha h => ⟨h.1.step ha, h.2.step h.1 ha⟩
  exact hall.2 id j hj hst

/-- The job that an engine has just claimed is carried, by the engine. -/
theorem carrier_of_claimedOnce :
    (∀ e ∈ claimedOnce, e.StoreAnswers) ∧
      ∃ j, ((start [.firstComeFirstServed]).run claimedOnce).record? .nil = some j ∧
        j.status = .scheduled ∧ ((start [.firstComeFirstServed]).run claimedOnce).Carrier j := by
  have hanswers : ∀ e ∈ claimedOnce, e.StoreAnswers := by decide
  have hsome : (((start [.firstComeFirstServed]).run claimedOnce).record? .nil).isSome = true := by
    decide +kernel
  obtain ⟨j, hj⟩ := Option.isSome_iff_exists.mp hsome
  have hst : ((start [.firstComeFirstServed]).run claimedOnce).status? .nil = some .scheduled := by
    decide +kernel
  have hscheduled : j.status = .scheduled := by
    rw [status?, hj] at hst
    exact Option.some.inj hst
  refine ⟨hanswers, j, hj, hscheduled, ?_⟩
  rcases no_job_stranded [.firstComeFirstServed] hanswers hj hscheduled with hcarrier | hdiscarded
  · exact hcarrier
  · -- nothing has been thrown away
    have hnone : ((start [.firstComeFirstServed]).run claimedOnce).discarded = [] := by decide +kernel
    rw [hnone] at hdiscarded
    exact absurd hdiscarded List.not_mem_nil

end Scheduler

end JobDispatch
