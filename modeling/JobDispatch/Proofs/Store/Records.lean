import JobDispatch.Store.Calls

/-!
# The records of a store, by their ids

While ids are distinct, a store is a finite map from ids to records whose entries stand in the order of
insertion.  Here every operation is described by what it does to that map: which record it changes, and
into what.  Operations on one job either fail or put a new record in the place of the old one.

## Main definitions

* `Store.Distinct` — no two records have the same id.
* `Store.put` — the record with the id of a job is replaced by it.
* `Job.request` — what a job was made from; no operation changes it.

## Main results

* `Store.find?_eq_some_iff` — looking up is membership.
* `Store.start_eq`, `Store.complete_eq`, `Store.giveBack_eq`, `Store.exhaust_eq`, `Store.cancel_eq` —
  **each move of one job, in full**.
* `Store.find?_put`, `Store.find?_insert`, `Store.find?_resetScheduled`, `Store.find?_claimPending` —
  the map after each operation.
-/

namespace JobDispatch

/-! ### What no operation changes -/

namespace Job

/-- What a job was made from. -/
def request (j : Job) : NewJob where
  name := j.name
  jobType := j.jobType
  priority := j.priority
  estimatedDuration := j.estimatedDuration
  maxRetries := j.maxRetries
  payload := j.payload

theorem maxRetries_eq_of_request_eq {i j : Job} (h : i.request = j.request) :
    i.maxRetries = j.maxRetries := congrArg NewJob.maxRetries h

theorem jobType_eq_of_request_eq {i j : Job} (h : i.request = j.request) :
    i.jobType = j.jobType := congrArg NewJob.jobType h

theorem name_eq_of_request_eq {i j : Job} (h : i.request = j.request) : i.name = j.name :=
  congrArg NewJob.name h

/-! ### The state after each transition -/

@[simp] theorem status_unclaimed (j : Job) : j.unclaimed.status = .pending := rfl

@[simp] theorem status_started (now : Timestamp) (j : Job) : (j.started now).status = .running := rfl

@[simp] theorem status_completed (r : Json) (now : Timestamp) (j : Job) :
    (j.completed r now).status = .completed := rfl

@[simp] theorem status_returned (n : UInt16) (e : String) (j : Job) :
    (j.returned n e).status = .pending := rfl

@[simp] theorem status_exhausted (n : UInt16) (e : String) (now : Timestamp) (j : Job) :
    (j.exhausted n e now).status = .failed := rfl

@[simp] theorem status_cancelled (now : Timestamp) (j : Job) : (j.cancelled now).status = .failed := rfl

end Job

namespace Store

/-- No two records have the same id. -/
def Distinct (s : Store) : Prop := (s.jobs.map Job.id).Nodup

/-! ### Looking up -/

theorem id_of_find? {s : Store} {id : JobId} {j : Job} (h : s.find? id = some j) : j.id = id := by
  have hp := List.find?_some h
  simpa using hp

theorem mem_of_find? {s : Store} {id : JobId} {j : Job} (h : s.find? id = some j) : j ∈ s.jobs :=
  List.mem_of_find?_eq_some h

theorem find?_eq_none_iff {s : Store} {id : JobId} :
    s.find? id = none ↔ ∀ j ∈ s.jobs, j.id ≠ id := by
  simp [find?]

/-- **Looking up is membership.** -/
theorem find?_eq_some_iff {s : Store} (hs : s.Distinct) {id : JobId} {j : Job} :
    s.find? id = some j ↔ j ∈ s.jobs ∧ j.id = id := by
  constructor
  · intro h
    exact ⟨mem_of_find? h, id_of_find? h⟩
  · rintro ⟨hj, rfl⟩
    obtain ⟨jobs⟩ := s
    simp only [Distinct] at hs
    simp only [find?] at hj ⊢
    induction jobs with
    | nil => simp at hj
    | cons i jobs ih =>
      rw [List.map_cons, List.nodup_cons] at hs
      rcases List.mem_cons.mp hj with rfl | hj
      · simp
      · -- the head has another id, so the search goes past it
        have hne : i.id ≠ j.id := fun e => hs.1 (e ▸ List.mem_map_of_mem hj)
        rw [List.find?_cons_of_neg (by simpa using hne)]
        exact ih hs.2 hj

/-! ### Replacing one record -/

/-- The store with a job in the place of the record that has its id. -/
def put (s : Store) (j : Job) : Store := ⟨s.jobs.map fun i => if i.id = j.id then j else i⟩

@[simp] theorem ids_put (s : Store) (j : Job) : (s.put j).jobs.map Job.id = s.jobs.map Job.id := by
  simp only [put, List.map_map]
  apply List.map_congr_left
  intro i _
  simp only [Function.comp]
  split <;> simp_all

theorem Distinct.put {s : Store} (hs : s.Distinct) (j : Job) : (s.put j).Distinct := by
  rw [Distinct, ids_put]
  exact hs

/-- The map after a replacement. -/
theorem find?_put (s : Store) (j : Job) (id : JobId) :
    (s.put j).find? id = if id = j.id then (s.find? id).map (fun _ => j) else s.find? id := by
  have hp : ((fun i : Job => i.id == id) ∘ fun i => if i.id = j.id then j else i)
      = fun i => i.id == id := by
    funext i
    simp only [Function.comp]
    split <;> simp_all
  simp only [find?, put, List.find?_map, hp]
  cases hf : s.jobs.find? (fun i => i.id == id) with
  | none => simp
  | some i =>
    have hi : i.id = id := by simpa using List.find?_some hf
    subst hi
    split <;> simp_all

theorem find?_put_self {s : Store} {j : Job} {id : JobId} {i : Job} (h : s.find? id = some i)
    (hj : j.id = id) : (s.put j).find? id = some j := by
  rw [find?_put, if_pos hj.symm, h, Option.map_some]

theorem find?_put_of_ne {s : Store} {j : Job} {id : JobId} (h : id ≠ j.id) :
    (s.put j).find? id = s.find? id := by
  rw [find?_put, if_neg h]

/-- A change of one record, in full. -/
theorem update_eq {s : Store} (hs : s.Distinct) (id : JobId) {change : Job → Except StoreError Job}
    (hc : ∀ i j, change i = .ok j → j.id = i.id) :
    s.update id change = match s.find? id with
      | none => .error (.jobNotFound id)
      | some i => (change i).map s.put := by
  obtain ⟨jobs⟩ := s
  simp only [Distinct] at hs
  simp only [update, find?]
  induction jobs with
  | nil => rfl
  | cons i jobs ih =>
    rw [List.map_cons, List.nodup_cons] at hs
    have ih := ih hs.2
    by_cases hi : i.id = id
    · -- the head is the record; no other has its id, so the rest stays
      subst hi
      rw [updateJobs_cons_self, List.find?_cons_of_pos (by simp)]
      cases hci : change i with
      | error e => simp [Except.map, hci]
      | ok j =>
        have hji : j.id = i.id := hc i j hci
        have hrest : jobs.map (fun k => if k.id = i.id then j else k) = jobs := by
          refine (List.map_congr_left fun k hk => ?_).trans (List.map_id jobs)
          have hne : k.id ≠ i.id := fun e => hs.1 (e ▸ List.mem_map_of_mem hk)
          rw [if_neg hne, id]
        simp [Except.map, hci, put, hji, hrest]
    · rw [updateJobs_cons_of_ne hi, List.find?_cons_of_neg (by simpa using hi)]
      cases hf : jobs.find? (fun k => k.id == id) with
      | none =>
        rw [hf] at ih
        cases hu : updateJobs id change jobs <;> simp_all [Except.map]
      | some k =>
        rw [hf] at ih
        have hk : k.id = id := by simpa using List.find?_some hf
        simp only at ih ⊢
        cases hck : change k with
        | error e =>
          cases hu : updateJobs id change jobs <;> simp_all [Except.map]
        | ok j =>
          have hji := hc k j hck
          cases hu : updateJobs id change jobs <;> simp_all [Except.map, put]

/-! ### Moves of one job -/

/-- A change that is made under a condition only. -/
theorem of_guarded {c : Prop} [Decidable c] {i j : Job} {e : StoreError}
    (h : (if c then .ok i else .error e : Except StoreError Job) = .ok j) : c ∧ i = j := by
  split at h
  · next hc => exact ⟨hc, Except.ok.inj h⟩
  · exact absurd h (by simp)

theorem start_eq {s : Store} (hs : s.Distinct) (id : JobId) (now : Timestamp) :
    s.start id now = match s.find? id with
      | none => .error (.jobNotFound id)
      | some j =>
        if j.status = .scheduled then .ok (s.put (j.started now)) else .error (.notScheduled id) := by
  rw [start, update_eq hs]
  · cases s.find? id with
    | none => rfl
    | some j =>
      simp only
      split <;> rfl
  · intro i j h
    obtain ⟨-, rfl⟩ := of_guarded h
    rfl

theorem complete_eq {s : Store} (hs : s.Distinct) (id : JobId) (result : Json) (now : Timestamp) :
    s.complete id result now = match s.find? id with
      | none => .error (.jobNotFound id)
      | some j => .ok (s.put (j.completed result now)) := by
  rw [complete, update_eq hs]
  · rfl
  · intro i j h
    obtain rfl := Except.ok.inj h
    rfl

theorem giveBack_eq {s : Store} (hs : s.Distinct) (id : JobId) (n : UInt16) (error : String) :
    s.giveBack id n error = match s.find? id with
      | none => .error (.jobNotFound id)
      | some j => .ok (s.put (j.returned n error)) := by
  rw [giveBack, update_eq hs]
  · rfl
  · intro i j h
    obtain rfl := Except.ok.inj h
    rfl

theorem exhaust_eq {s : Store} (hs : s.Distinct) (id : JobId) (n : UInt16) (error : String)
    (now : Timestamp) :
    s.exhaust id n error now = match s.find? id with
      | none => .error (.jobNotFound id)
      | some j => .ok (s.put (j.exhausted n error now)) := by
  rw [exhaust, update_eq hs]
  · rfl
  · intro i j h
    obtain rfl := Except.ok.inj h
    rfl

theorem cancel_eq {s : Store} (hs : s.Distinct) (id : JobId) (now : Timestamp) :
    s.cancel id now = match s.find? id with
      | none => .error (.jobNotFound id)
      | some j =>
        if j.status.isCancellable then .ok (s.put (j.cancelled now))
        else .error (.notCancellable id j.status) := by
  rw [cancel, update_eq hs]
  · cases s.find? id with
    | none => rfl
    | some j =>
      simp only
      split <;> rfl
  · intro i j h
    obtain ⟨-, rfl⟩ := of_guarded h
    rfl

/-- What is changed by a move of one job is put in its place. -/
theorem put_of_update {s s' : Store} (hs : s.Distinct) {id : JobId}
    {change : Job → Except StoreError Job} (hc : ∀ i j, change i = .ok j → j.id = i.id)
    (h : s.update id change = .ok s') : ∃ j : Job, j.id = id ∧ s' = s.put j := by
  rw [update_eq hs id hc] at h
  split at h
  · exact absurd h (by simp)
  · next i hi =>
    cases hci : change i with
    | error e => exact absurd (hci ▸ h) (by simp [Except.map])
    | ok j =>
      rw [hci] at h
      exact ⟨j, (hc i j hci).trans (id_of_find? hi), (Except.ok.inj h).symm⟩

/-- **An operation on one job changes at most the record with its id.** -/
theorem perform_eq_put {s : Store} (hs : s.Distinct) {α : Type} {call : StoreCall α} {id : JobId}
    (h : call.subject? = some id) (now : Timestamp) (fresh : JobId) :
    (s.perform now fresh call).2 = s ∨
      ∃ j : Job, j.id = id ∧ (s.perform now fresh call).2 = s.put j := by
  -- whatever becomes of the record that has the id, it keeps it
  have key : ∀ change : Job → Except StoreError Job, (∀ i j, change i = .ok j → j.id = i.id) →
      (s.outcome (s.update id change)).2 = s ∨
        ∃ j : Job, j.id = id ∧ (s.outcome (s.update id change)).2 = s.put j := by
    intro change hc
    cases hu : s.update id change with
    | error e => exact Or.inl rfl
    | ok s' =>
      obtain ⟨j, hj, rfl⟩ := put_of_update hs hc hu
      exact Or.inr ⟨j, hj, rfl⟩
  cases call <;> simp only [StoreCall.subject?, Option.some.injEq, reduceCtorEq] at h <;> subst h <;>
    simp only [perform]
  case load => exact Or.inl trivial
  case start =>
    refine key _ fun i j h => ?_
    obtain ⟨-, rfl⟩ := of_guarded h
    rfl
  case cancel =>
    refine key _ fun i j h => ?_
    obtain ⟨-, rfl⟩ := of_guarded h
    rfl
  all_goals
    refine key _ fun i j h => ?_
    rw [← Except.ok.inj h]
    rfl

/-- **An operation on one job leaves all other records alone**, and the ids distinct. -/
theorem perform_of_subject {s : Store} (hs : s.Distinct) {α : Type} {call : StoreCall α} {id : JobId}
    (h : call.subject? = some id) (now : Timestamp) (fresh : JobId) :
    (s.perform now fresh call).2.Distinct ∧
      ∀ id' ≠ id, (s.perform now fresh call).2.find? id' = s.find? id' := by
  rcases perform_eq_put hs h now fresh with hsame | ⟨j, rfl, hput⟩
  · rw [hsame]
    exact ⟨hs, fun _ _ => rfl⟩
  · rw [hput]
    exact ⟨hs.put j, fun id' hne => find?_put_of_ne hne⟩

/-- An operation on one job keeps all ids in their places. -/
theorem ids_perform_of_subject {s : Store} (hs : s.Distinct) {α : Type} {call : StoreCall α}
    {id : JobId} (h : call.subject? = some id) (now : Timestamp) (fresh : JobId) :
    (s.perform now fresh call).2.jobs.map Job.id = s.jobs.map Job.id := by
  rcases perform_eq_put hs h now fresh with hsame | ⟨j, -, hput⟩
  · rw [hsame]
  · rw [hput, ids_put]

/-! ### Adding a record -/

theorem find?_insert (s : Store) (new : NewJob) (fresh : JobId) (now : Timestamp) (id : JobId) :
    (s.insert new fresh now).find? id
      = (s.find? id).or (if fresh = id then some (new.record fresh now) else none) := by
  have hid : (new.record fresh now).id = fresh := rfl
  simp only [find?, jobs_insert, List.find?_append, List.find?_singleton, hid, beq_iff_eq]

/-- A record that is there stays. -/
theorem find?_insert_of_find? {s : Store} {id : JobId} {j : Job} (h : s.find? id = some j)
    (new : NewJob) (fresh : JobId) (now : Timestamp) :
    (s.insert new fresh now).find? id = some j := by
  rw [find?_insert, h, Option.some_or]

theorem Distinct.insert {s : Store} (hs : s.Distinct) {fresh : JobId} (hf : s.find? fresh = none)
    (new : NewJob) (now : Timestamp) : (s.insert new fresh now).Distinct := by
  rw [Distinct, jobs_insert, List.map_append, List.nodup_append]
  refine ⟨hs, by simp, ?_⟩
  intro a ha b hb
  obtain ⟨j, hj, rfl⟩ := List.mem_map.mp ha
  have hb : b = fresh := by simpa [NewJob.record] using hb
  rw [hb]
  exact find?_eq_none_iff.mp hf j hj

/-! ### Moves of many jobs -/

@[simp] theorem ids_resetScheduled (s : Store) :
    s.resetScheduled.2.jobs.map Job.id = s.jobs.map Job.id := by
  simp only [resetScheduled, List.map_map]
  apply List.map_congr_left
  intro j _
  simp only [Function.comp]
  split <;> rfl

theorem Distinct.resetScheduled {s : Store} (hs : s.Distinct) : s.resetScheduled.2.Distinct := by
  rw [Distinct, ids_resetScheduled]
  exact hs

/-- **The map after a reset**: what was scheduled is pending, all else is as it was. -/
theorem find?_resetScheduled (s : Store) (id : JobId) :
    s.resetScheduled.2.find? id
      = (s.find? id).map fun j => if j.status = .scheduled then j.unclaimed else j := by
  have hp : ((fun i : Job => i.id == id) ∘ fun j => if j.status == .scheduled then j.unclaimed else j)
      = fun i => i.id == id := by
    funext i
    simp only [Function.comp]
    split <;> rfl
  simp only [find?, Store.resetScheduled, List.find?_map, hp]
  cases s.jobs.find? (fun i => i.id == id) <;> simp

@[simp] theorem ids_claimPending (s : Store) (limit : Nat) (now : Timestamp) :
    (s.claimPending limit now).2.jobs.map Job.id = s.jobs.map Job.id := by
  apply List.ext_getElem?
  intro i
  simp only [claimPending, List.getElem?_map, List.getElem?_mapIdx, Option.map_map]
  cases s.jobs[i]? with
  | none => rfl
  | some j =>
    simp only [Option.map_some, Function.comp]
    split <;> rfl

theorem Distinct.claimPending {s : Store} (hs : s.Distinct) (limit : Nat) (now : Timestamp) :
    (s.claimPending limit now).2.Distinct := by
  rw [Distinct, ids_claimPending]
  exact hs

theorem find?_claimPending_eq_none {s : Store} {id : JobId} (h : s.find? id = none) (limit : Nat)
    (now : Timestamp) : (s.claimPending limit now).2.find? id = none := by
  rw [find?_eq_none_iff] at h ⊢
  intro j hj e
  have hid : id ∈ (s.claimPending limit now).2.jobs.map Job.id := e ▸ List.mem_map_of_mem hj
  rw [ids_claimPending] at hid
  obtain ⟨i, hi, rfl⟩ := List.mem_map.mp hid
  exact h i hi rfl

/-- What is chosen to be claimed stands in its place in the store and is pending. -/
theorem of_mem_pendingByAge {s : Store} {p : Job × Nat} (h : p ∈ s.pendingByAge) :
    s.jobs[p.2]? = some p.1 ∧ p.1.status = .pending := by
  rw [pendingByAge, List.mem_mergeSort, List.mem_filter] at h
  exact ⟨List.mem_zipIdx_iff_getElem?.mp h.1, by simpa using h.2⟩

/-- **The map after a claim**: a record is as it was, or it was pending and is among those that are
claimed. -/
theorem find?_claimPending {s : Store} (hs : s.Distinct) {id : JobId} {j : Job}
    (h : s.find? id = some j) (limit : Nat) (now : Timestamp) :
    (s.claimPending limit now).2.find? id = some j ∨
      (j.status = .pending ∧ (s.claimPending limit now).2.find? id = some (j.claimed now) ∧
        j.claimed now ∈ (s.claimPending limit now).1) := by
  have hid : j.id = id := id_of_find? h
  obtain ⟨i, hi⟩ := List.mem_iff_getElem?.mp (mem_of_find? h)
  have hs' : (s.claimPending limit now).2.Distinct := hs.claimPending limit now
  by_cases hc : ((s.pendingByAge.take limit).map Prod.snd).contains i
  · -- the place of the record was chosen, and what was chosen there is the record
    obtain ⟨⟨k, i'⟩, hk, rfl⟩ := List.mem_map.mp (List.contains_iff_mem.mp hc)
    obtain ⟨hplace, hpending⟩ := of_mem_pendingByAge (List.mem_of_mem_take hk)
    obtain rfl : j = k := Option.some.inj (hi.symm.trans hplace)
    refine Or.inr ⟨hpending, ?_, List.mem_map.mpr ⟨_, hk, rfl⟩⟩
    rw [find?_eq_some_iff hs']
    refine ⟨List.mem_iff_getElem?.mpr ⟨i', ?_⟩, hid⟩
    simp only [claimPending, List.getElem?_mapIdx, hi, Option.map_some, hc, if_true]
  · refine Or.inl ?_
    rw [find?_eq_some_iff hs']
    refine ⟨List.mem_iff_getElem?.mpr ⟨i, ?_⟩, hid⟩
    simp only [claimPending, List.getElem?_mapIdx, hi, Option.map_some, hc, if_false,
      Bool.false_eq_true]

end Store

end JobDispatch
