import JobDispatch.Proofs.Job.Stamps
import JobDispatch.Proofs.Store.Batches

/-!
# What an operation leaves alone

Every operation of a store either fails, and then the store is as it was, or changes the records that it
is about, and in them the fields that it records.  All other records and fields stay, no record is
removed or moved, and a new one comes last.  Why an operation fails can be read off the record it is
about.

## Main definitions

* `JobField`, `Job.AgreeOutside` — the fields of a record, and records that differ in some fields only.
* `StoreCall.Reaches`, `StoreCall.fields`, `StoreCall.target` — the records that an operation may change,
  the fields that it records, and the state in which it leaves a record.
* `StoreCall.Changes` — **all that an operation may do to a record.**
* `Store.Refuses` — when an operation fails, and how.

## Main results

* `Store.forall₂_perform` — every operation leaves the records in their places.
* `Store.perform_eq_error_iff` — the failures of an operation.
* `Store.operations_framed` — **operations are atomic and change nothing but what they record.**
-/

namespace JobDispatch

/-! ### Fields -/

/-- The fields of a record. -/
inductive JobField
  | id
  | name
  | jobType
  | status
  | priority
  | estimatedDuration
  | payload
  | result
  | errorMessage
  | retryCount
  | maxRetries
  | createdAt
  | scheduledAt
  | startedAt
  | completedAt
  deriving DecidableEq

namespace Job

variable {i j : Job}

/-- Two records have the same in a field. -/
def Agree (i j : Job) : JobField → Prop
  | .id => i.id = j.id
  | .name => i.name = j.name
  | .jobType => i.jobType = j.jobType
  | .status => i.status = j.status
  | .priority => i.priority = j.priority
  | .estimatedDuration => i.estimatedDuration = j.estimatedDuration
  | .payload => i.payload = j.payload
  | .result => i.result = j.result
  | .errorMessage => i.errorMessage = j.errorMessage
  | .retryCount => i.retryCount = j.retryCount
  | .maxRetries => i.maxRetries = j.maxRetries
  | .createdAt => i.createdAt = j.createdAt
  | .scheduledAt => i.scheduledAt = j.scheduledAt
  | .startedAt => i.startedAt = j.startedAt
  | .completedAt => i.completedAt = j.completedAt

/-- Two records differ at most in some fields. -/
def AgreeOutside (i : Job) (fields : List JobField) (j : Job) : Prop := ∀ f, f ∉ fields → i.Agree j f

/-- Records that differ in no field are the same: no field is forgotten. -/
theorem eq_of_agreeOutside_nil (h : i.AgreeOutside [] j) : i = j := by
  have h : ∀ f, i.Agree j f := fun f => h f List.not_mem_nil
  cases i
  cases j
  rw [Job.mk.injEq]
  exact ⟨h .id, h .name, h .jobType, h .status, h .priority, h .estimatedDuration, h .payload, h .result,
    h .errorMessage, h .retryCount, h .maxRetries, h .createdAt, h .scheduledAt, h .startedAt,
    h .completedAt⟩

end Job

/-! ### What an operation is about -/

namespace StoreCall

variable {α : Type}

/-- The job that an operation moves from one state to another. -/
def moved? : StoreCall α → Option JobId
  | .start id => some id
  | .complete id _ => some id
  | .giveBack id _ _ => some id
  | .exhaust id _ _ => some id
  | .cancel id => some id
  | _ => none

/-- The records that an operation may change. -/
def Reaches (call : StoreCall α) (j : Job) : Prop :=
  match call with
  | .claimPending _ => j.status = .pending
  | .resetScheduled => j.status = .scheduled
  | call => call.moved? = some j.id

/-- The fields that an operation records. -/
def fields : StoreCall α → List JobField
  | .claimPending _ => [.status, .scheduledAt]
  | .start _ => [.status, .startedAt]
  | .complete _ _ => [.status, .result, .completedAt]
  | .giveBack _ _ _ => [.status, .retryCount, .errorMessage]
  | .exhaust _ _ _ => [.status, .retryCount, .errorMessage, .completedAt]
  | .cancel _ => [.status, .errorMessage, .completedAt]
  | .resetScheduled => [.status]
  | _ => []

/-- The state in which an operation leaves the records that it changes. -/
def target : StoreCall α → Option JobStatus
  | .claimPending _ => some .scheduled
  | .start _ => some .running
  | .complete _ _ => some .completed
  | .giveBack _ _ _ => some .pending
  | .exhaust _ _ _ => some .failed
  | .cancel _ => some .failed
  | .resetScheduled => some .pending
  | _ => none

/-- **All that an operation may do to a record**: the record is one of those that the operation is about,
only the fields that it records become different, and no point in time that is set does. -/
structure Changes (call : StoreCall α) (i j : Job) : Prop where
  reached : call.Reaches i
  outside : i.AgreeOutside call.fields j
  keeps : i.Keeps j
  status : call.target = some j.status

/-- Why an operation does not move a job. -/
inductive Objects : {α : Type} → StoreCall α → Job → StoreError → Prop
  | notScheduled (id : JobId) (j : Job) (h : j.status ≠ .scheduled) :
    Objects (.start id) j (.notScheduled id)
  | notCancellable (id : JobId) (j : Job) (hpending : j.status ≠ .pending)
    (hscheduled : j.status ≠ .scheduled) : Objects (.cancel id) j (.notCancellable id j.status)

/-- The records that an operation adds: a new job is pending, and nothing has happened to it. -/
def Adds (call : StoreCall α) (now : Timestamp) (fresh : JobId) (added : List Job) : Prop :=
  match call with
  | .insert new => ∃ j, added = [j] ∧ j.id = fresh ∧ j.request = new ∧ j.status = .pending ∧
      j.retryCount = 0 ∧ j.result = none ∧ j.errorMessage = none ∧ j.createdAt = now ∧
      j.scheduledAt = none ∧ j.startedAt = none ∧ j.completedAt = none
  | _ => added = []

theorem reaches_of_moved? {call : StoreCall α} {j : Job} (h : call.moved? = some j.id) :
    call.Reaches j := by
  cases call <;> first | exact h | cases h

/-- An operation that moves a job adds none. -/
theorem adds_nil_of_moved? {call : StoreCall α} {id : JobId} (h : call.moved? = some id)
    (now : Timestamp) (fresh : JobId) : call.Adds now fresh [] := by
  cases call <;> first | rfl | cases h

/-- An operation that may add nothing adds nothing. -/
theorem Adds.eq_nil {call : StoreCall α} {now : Timestamp} {fresh : JobId} {added : List Job}
    (h : call.Adds now fresh []) (h' : call.Adds now fresh added) : added = [] := by
  cases call with
  | insert new =>
    obtain ⟨_, hnil, -⟩ := h
    cases hnil
  | _ => exact h'

/-- What an operation makes of a record that it changes. -/
def transition (now : Timestamp) : StoreCall α → Job → Job
  | .claimPending _ => Job.claimed now
  | .start _ => Job.started now
  | .complete _ result => Job.completed result now
  | .giveBack _ retryCount error => Job.returned retryCount error
  | .exhaust _ retryCount error => Job.exhausted retryCount error now
  | .cancel _ => Job.cancelled now
  | .resetScheduled => Job.unclaimed
  | _ => id

/-- A transition leaves all fields alone that the operation does not record. -/
theorem agreeOutside_transition (call : StoreCall α) (now : Timestamp) (i : Job) :
    i.AgreeOutside call.fields (call.transition now i) := by
  intro f hf
  cases call <;> cases f <;> first | rfl | simp [fields] at hf

theorem keeps_transition (call : StoreCall α) (now : Timestamp) (i : Job) :
    i.Keeps (call.transition now i) := by
  cases call with
  | claimPending limit => exact Job.keeps_claimed now i
  | start id => exact Job.keeps_started now i
  | complete id result => exact Job.keeps_completed result now i
  | giveBack id n error => exact Job.keeps_returned n error i
  | exhaust id n error => exact Job.keeps_exhausted n error now i
  | cancel id => exact Job.keeps_cancelled now i
  | resetScheduled => exact Job.keeps_unclaimed i
  | insert | load | query | stats => exact .refl i

/-- **A transition does no more than its operation may do.** -/
theorem changes_transition {call : StoreCall α} {i : Job} (h : call.Reaches i) (now : Timestamp) :
    call.Changes i (call.transition now i) where
  reached := h
  outside := agreeOutside_transition call now i
  keeps := keeps_transition call now i
  status := by
    cases call with
    | insert | load | query | stats => simp [Reaches, moved?] at h
    | _ => rfl

end StoreCall

theorem isCancellable_eq_false_iff (st : JobStatus) :
    st.isCancellable = false ↔ st ≠ .pending ∧ st ≠ .scheduled := by
  cases st <;> decide

namespace Store

open StoreCall

variable {α : Type} {s : Store} {call : StoreCall α} {id : JobId} {change : Job → Except StoreError Job}

/-- **When an operation fails**: the job that it would move is unknown, or it objects to the record. -/
def Refuses (s : Store) (call : StoreCall α) (e : StoreError) : Prop :=
  ∃ id, call.moved? = some id ∧
    ((∀ j ∈ s.jobs, j.id ≠ id) ∧ e = .jobNotFound id ∨ ∃ j ∈ s.jobs, j.id = id ∧ call.Objects j e)

/-- **An operation that moves a job changes its record**, by its transition unless it objects. -/
theorem perform_eq_update (h : call.moved? = some id) (s : Store) (now : Timestamp) (fresh : JobId) :
    ∃ change : Job → Except StoreError Job,
      (∀ i j, change i = .ok j → j = call.transition now i) ∧
      (∀ i e, change i = .error e ↔ call.Objects i e) ∧
      (s.perform now fresh call).2 = (s.outcome (s.update id change)).2 ∧
      ∀ e, (s.perform now fresh call).1 = .error e ↔ s.update id change = .error e := by
  have failed : ∀ (r : Except StoreError Store) e, (s.outcome r).1 = .error e ↔ r = .error e := by
    rintro (e | s') e' <;> simp [outcome]
  cases call <;> simp only [moved?, Option.some.injEq, reduceCtorEq] at h <;> subst h
  case start id =>
    refine ⟨_, fun i j h => (of_guarded h).2.symm, fun i e => ?_, rfl, failed _⟩
    constructor
    · intro h
      split at h
      · cases h
      · next hs =>
        obtain rfl := Except.error.inj h
        exact .notScheduled id i hs
    · rintro ⟨hs⟩
      exact if_neg ‹_›
  case cancel id =>
    refine ⟨_, fun i j h => (of_guarded h).2.symm, fun i e => ?_, rfl, failed _⟩
    constructor
    · intro h
      split at h
      · cases h
      · next hs =>
        obtain rfl := Except.error.inj h
        obtain ⟨hp, hs⟩ := (isCancellable_eq_false_iff i.status).mp (by simpa using hs)
        exact .notCancellable id i hp hs
    · rintro ⟨⟩
      exact if_neg (by simpa using (isCancellable_eq_false_iff i.status).mpr ⟨‹_›, ‹_›⟩)
  all_goals
    refine ⟨_, fun i j h => (Except.ok.inj h).symm, fun i e => ?_, rfl, failed _⟩
    constructor <;>
      · intro h
        cases h

/-! ### Records stay in their places -/

/-- A change of one record leaves all others alone. -/
theorem forall₂_updateJobs {jobs jobs' : List Job} (h : updateJobs id change jobs = .ok jobs') :
    List.Forall₂ (fun i j => j = i ∨ i.id = id ∧ change i = .ok j) jobs jobs' := by
  induction jobs generalizing jobs' with
  | nil => cases h
  | cons i jobs ih =>
    by_cases hi : i.id = id
    · subst hi
      rw [updateJobs_cons_self] at h
      cases hc : change i with
      | error e => simp [hc, Except.map] at h
      | ok j =>
        rw [hc] at h
        obtain rfl := Except.ok.inj h
        exact .cons (.inr ⟨rfl, hc⟩) (List.forall₂_same.mpr fun _ _ => .inl rfl)
    · rw [updateJobs_cons_of_ne hi] at h
      cases hu : updateJobs id change jobs with
      | error e => simp [hu, Except.map] at h
      | ok rest =>
        rw [hu] at h
        obtain rfl := Except.ok.inj h
        exact .cons (.inl rfl) (ih hu)

/-- Whatever comes of a change of one record, all others stay. -/
theorem forall₂_outcome_update (s : Store) (id : JobId) (change : Job → Except StoreError Job) :
    List.Forall₂ (fun i j => j = i ∨ i.id = id ∧ change i = .ok j) s.jobs
      (s.outcome (s.update id change)).2.jobs := by
  rw [update]
  cases h : updateJobs id change s.jobs with
  | error e => exact List.forall₂_same.mpr fun _ _ => .inl rfl
  | ok jobs => exact forall₂_updateJobs h

/-- **Every operation leaves the records in their places**, changes those that it is about at most, and
adds a new job behind them. -/
theorem forall₂_perform (s : Store) (now : Timestamp) (fresh : JobId) (call : StoreCall α) :
    ∃ kept added, (s.perform now fresh call).2.jobs = kept ++ added ∧ call.Adds now fresh added ∧
      List.Forall₂ (fun i j => j = i ∨ call.Changes i j) s.jobs kept := by
  have stays : List.Forall₂ (fun i j => j = i ∨ call.Changes i j) s.jobs s.jobs :=
    List.forall₂_same.mpr fun _ _ => .inl rfl
  cases hm : call.moved? with
  | some id =>
    obtain ⟨change, hc, -, hafter, -⟩ := perform_eq_update hm s now fresh
    rw [hafter]
    refine ⟨_, [], (List.append_nil _).symm, adds_nil_of_moved? hm now fresh,
      (forall₂_outcome_update s id change).imp ?_⟩
    rintro i j (h | ⟨rfl, h⟩)
    · exact .inl h
    · rw [hc i j h]
      exact .inr (changes_transition (reaches_of_moved? hm) now)
  | none =>
    cases call with
    | insert new =>
      exact ⟨s.jobs, _, rfl, ⟨_, rfl, rfl, rfl, rfl, rfl, rfl, rfl, rfl, rfl, rfl, rfl⟩, stays⟩
    | load | query | stats => exact ⟨s.jobs, [], (List.append_nil _).symm, rfl, stays⟩
    | claimPending limit =>
      refine ⟨_, [], (List.append_nil _).symm, rfl, (forall₂_claimPending s limit now).imp ?_⟩
      intro i j h
      cases h with
      | kept => exact .inl rfl
      | claimed t ht hpending =>
        rw [List.mem_singleton.mp ht]
        have hreached : (StoreCall.claimPending limit).Reaches i := hpending
        exact .inr (changes_transition hreached now)
    | resetScheduled =>
      refine ⟨_, [], (List.append_nil _).symm, rfl, ?_⟩
      refine List.forall₂_map_right_iff.mpr (List.forall₂_same.mpr fun i _ => ?_)
      split
      · next hi =>
        have hreached : StoreCall.resetScheduled.Reaches i := beq_iff_eq.mp hi
        exact .inr (changes_transition hreached now)
      · exact .inl rfl
    | start | complete | giveBack | exhaust | cancel => cases hm

/-! ### Failure and success -/

/-- A transition keeps the id. -/
theorem id_transition (call : StoreCall α) (now : Timestamp) (i : Job) :
    (call.transition now i).id = i.id := by
  cases call <;> rfl

/-- When a change of one record fails. -/
theorem update_eq_error_iff (hs : s.Distinct) (hc : ∀ i j, change i = .ok j → j.id = i.id)
    {e : StoreError} : s.update id change = .error e ↔
      (∀ j ∈ s.jobs, j.id ≠ id) ∧ e = .jobNotFound id ∨
        ∃ j ∈ s.jobs, j.id = id ∧ change j = .error e := by
  rw [update_eq hs id hc]
  cases hf : s.find? id with
  | none =>
    have hnone := find?_eq_none_iff.mp hf
    simp only [Except.error.injEq]
    constructor
    · rintro rfl
      exact .inl ⟨hnone, rfl⟩
    · rintro (⟨-, rfl⟩ | ⟨j, hj, hid, -⟩)
      · rfl
      · exact absurd hid (hnone j hj)
  | some i =>
    obtain ⟨hi, rfl⟩ := (find?_eq_some_iff hs).mp hf
    constructor
    · intro h
      cases hci : change i with
      | ok j => simp [hci, Except.map] at h
      | error e' =>
        simp only [hci, Except.map, Except.error.injEq] at h
        exact .inr ⟨i, hi, rfl, h ▸ hci⟩
    · rintro (⟨hnone, -⟩ | ⟨j, hj, hid, he⟩)
      · exact absurd rfl (hnone i hi)
      · -- ids are distinct, so the record that is objected to is the one that is found
        obtain rfl := Option.some.inj (hf.symm.trans ((find?_eq_some_iff hs).mpr ⟨hj, hid⟩))
        simp only [he, Except.map]

/-- **The failures of an operation.** -/
theorem perform_eq_error_iff (hs : s.Distinct) (now : Timestamp) (fresh : JobId) (call : StoreCall α)
    (e : StoreError) : (s.perform now fresh call).1 = .error e ↔ s.Refuses call e := by
  cases hm : call.moved? with
  | none =>
    have hnone : ¬s.Refuses call e := by
      rintro ⟨id, hid, -⟩
      rw [hm] at hid
      cases hid
    refine iff_of_false ?_ hnone
    cases call <;> simp [perform, moved?] at hm ⊢
  | some id =>
    obtain ⟨change, hc, he, -, hfailed⟩ := perform_eq_update hm s now fresh
    rw [hfailed, update_eq_error_iff hs fun i j h => hc i j h ▸ id_transition call now i]
    simp only [he, Refuses, hm, Option.some.injEq, exists_eq_left']

/-- **A move that succeeds changes the record of its job.** -/
theorem changes_of_ok (hs : s.Distinct) (hm : call.moved? = some id) {now : Timestamp} {fresh : JobId}
    {a : α} (h : (s.perform now fresh call).1 = .ok a) :
    ∃ i j, s.find? id = some i ∧ (s.perform now fresh call).2.find? id = some j ∧
      call.Changes i j := by
  obtain ⟨change, hc, -, hafter, hfailed⟩ := perform_eq_update hm s now fresh
  have hupdate := update_eq hs id fun i j h => hc i j h ▸ id_transition call now i
  have hok : ∀ e, s.update id change ≠ .error e := fun e he => by
    rw [(hfailed e).mpr he] at h
    cases h
  cases hf : s.find? id with
  | none => exact absurd (by rw [hupdate, hf]) (hok (.jobNotFound id))
  | some i =>
    obtain rfl := id_of_find? hf
    cases hci : change i with
    | error e => exact absurd (by simp only [hupdate, hf, hci, Except.map]) (hok e)
    | ok j =>
      refine ⟨i, j, rfl, ?_, ?_⟩
      · simp only [hafter, hupdate, hf, hci, Except.map, outcome]
        exact find?_put_self hf (hc i j hci ▸ id_transition call now i)
      · rw [hc i j hci]
        exact changes_transition (reaches_of_moved? hm) now

/-- **Operations are atomic and change nothing but what they record.**  In a store with distinct ids,
whatever its records are: an operation fails exactly as its record tells, and then changes nothing.  All
records stay in their places; those that the operation is about differ at most in the fields that it
records, with every point in time as it was if it was set.  A move that succeeds changes its record. -/
theorem operations_framed (hs : s.Distinct) (now : Timestamp) (fresh : JobId) (call : StoreCall α) :
    (∀ e, (s.perform now fresh call).1 = .error e ↔ s.Refuses call e) ∧
    (∀ e, (s.perform now fresh call).1 = .error e → (s.perform now fresh call).2 = s) ∧
    (∃ kept added, (s.perform now fresh call).2.jobs = kept ++ added ∧ call.Adds now fresh added ∧
      List.Forall₂ (fun i j => j = i ∨ call.Changes i j) s.jobs kept) ∧
    ∀ id a, call.moved? = some id → (s.perform now fresh call).1 = .ok a →
      ∃ i j, s.find? id = some i ∧ (s.perform now fresh call).2.find? id = some j ∧
        call.Changes i j :=
  ⟨perform_eq_error_iff hs now fresh call, fun _ he => perform_error (Prod.ext he rfl),
    forall₂_perform s now fresh call, fun _ _ hm => changes_of_ok hs hm⟩

/-- A pending, a scheduled and a running job. -/
def threeStages : Store :=
  let new : NewJob := ⟨"report", "sleep", 5, Double.one, 3, .object []⟩
  ⟨[new.record (.ofNat 1) ⟨1, 0⟩, (new.record (.ofNat 2) ⟨2, 0⟩).claimed ⟨4, 0⟩,
    ((new.record (.ofNat 3) ⟨3, 0⟩).claimed ⟨4, 0⟩).started ⟨5, 0⟩]⟩

/-- The running job is not cancelled, and the scheduled one starts. -/
theorem framed_of_threeStages :
    threeStages.Distinct ∧
      (threeStages.perform ⟨6, 0⟩ .nil (.cancel (.ofNat 3))).1
        = .error (.notCancellable (.ofNat 3) .running) ∧
      (threeStages.perform ⟨6, 0⟩ .nil (.cancel (.ofNat 3))).2 = threeStages ∧
      (threeStages.perform ⟨6, 0⟩ .nil (.start (.ofNat 2))).1 = .ok () ∧
      ∃ i j, threeStages.find? (.ofNat 2) = some i ∧
        (threeStages.perform ⟨6, 0⟩ .nil (.start (.ofNat 2))).2.find? (.ofNat 2) = some j ∧
        (StoreCall.start (.ofNat 2)).Changes i j := by
  have hs : threeStages.Distinct := by
    rw [Distinct]
    decide
  obtain ⟨hrefuses, hunchanged, -⟩ := operations_framed hs ⟨6, 0⟩ .nil (.cancel (.ofNat 3))
  have hrefused := (hrefuses (.notCancellable (.ofNat 3) .running)).mpr
    ⟨.ofNat 3, rfl, .inr ⟨_, List.mem_cons_of_mem _ (List.mem_cons_of_mem _ List.mem_cons_self), rfl,
      .notCancellable _ _ (by decide) (by decide)⟩⟩
  have hstarted : (threeStages.perform ⟨6, 0⟩ .nil (.start (.ofNat 2))).1 = .ok () := rfl
  obtain ⟨-, -, -, hmoved⟩ := operations_framed hs ⟨6, 0⟩ .nil (.start (.ofNat 2))
  exact ⟨hs, hrefused, hunchanged _ hrefused, hstarted, hmoved _ _ rfl hstarted⟩

end Store

end JobDispatch
