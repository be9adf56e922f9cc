import JobDispatch.Proofs.Store.Batches
import Mathlib.Data.List.Nodup

/-!
# The claims of a store

A job is claimed when its record goes from pending to scheduled.  What is claimed between two stores is
read off their records alone.  The operation that claims jobs gives back exactly these records; no other
operation claims any, neither one on a single job nor the reset of the scheduled ones.

## Main definitions

* `Store.claims` — the records that are pending in one store and scheduled in another.
* `Store.Quiet` — nothing is claimed between two stores.

## Main results

* `Store.perm_claims_claimPending` — **what is given back as claimed is what has been claimed.**
* `Store.quiet_perform_of_subject` — no operation on a single job claims one.
-/

namespace JobDispatch

namespace Store

variable {s s' : Store}

/-- The records that are pending before and scheduled after, as they are after. -/
def claims (s s' : Store) : List Job :=
  s'.jobs.filter fun j => decide ((s.find? j.id).map Job.status = some .pending ∧
    (s'.find? j.id).map Job.status = some .scheduled)

theorem mem_claims {j : Job} : j ∈ s.claims s' ↔ j ∈ s'.jobs ∧
    (s.find? j.id).map Job.status = some .pending ∧
      (s'.find? j.id).map Job.status = some .scheduled := by
  rw [claims, List.mem_filter, decide_eq_true_iff]

/-- Records with different ids are different. -/
theorem Distinct.nodup (hs : s.Distinct) : s.jobs.Nodup := List.Nodup.of_map Job.id hs

/-- In a store with distinct ids every record is found by its id. -/
theorem Distinct.find?_id (hs : s.Distinct) {j : Job} (hj : j ∈ s.jobs) : s.find? j.id = some j :=
  (find?_eq_some_iff hs).mpr ⟨hj, rfl⟩

/-- In a store with distinct ids a record is the only one with its id. -/
theorem Distinct.filter_id (hs : s.Distinct) {j : Job} (hj : j ∈ s.jobs) :
    (s.jobs.filter fun i => decide (i.id = j.id)) = [j] := by
  refine List.perm_singleton.mp ((List.perm_ext_iff_of_nodup (hs.nodup.filter _)
    (List.nodup_singleton j)).mpr fun i => ?_)
  rw [List.mem_filter, List.mem_singleton, decide_eq_true_iff]
  constructor
  · rintro ⟨hi, hid⟩
    exact Option.some.inj ((hs.find?_id hi).symm.trans (hid ▸ hs.find?_id hj))
  · rintro rfl
    exact ⟨hj, rfl⟩

theorem nodup_claims (hs' : s'.Distinct) : (s.claims s').Nodup := hs'.nodup.filter _

/-! ### The operation that claims -/

/-- No record is chosen twice to be claimed. -/
theorem nodup_claimPending (hs : s.Distinct) (limit : Nat) (now : Timestamp) :
    (s.claimPending limit now).1.Nodup := by
  have hpending : (s.pendingByAge.map fun p => p.1.id).Nodup := by
    have hperm := (perm_pendingByAge s).map Job.id
    rw [List.map_map] at hperm
    exact hperm.nodup_iff.mpr (hs.sublist (List.filter_sublist.map Job.id))
  have hchosen : ((s.pendingByAge.take limit).map fun p => p.1.id).Nodup :=
    hpending.sublist ((List.take_sublist limit _).map _)
  have hids : (s.claimPending limit now).1.map Job.id =
      (s.pendingByAge.take limit).map fun p => p.1.id := by
    simp only [claimPending, List.map_map]
    rfl
  exact List.Nodup.of_map Job.id (hids ▸ hchosen)

/-- What is given back as claimed was pending and is scheduled. -/
theorem mem_claims_of_mem_claimPending (hs : s.Distinct) {limit : Nat} {now : Timestamp} {j : Job}
    (hj : j ∈ (s.claimPending limit now).1) : j ∈ s.claims (s.claimPending limit now).2 := by
  obtain ⟨⟨i, n⟩, hchosen, rfl⟩ := List.mem_map.mp hj
  obtain ⟨hplace, hpending⟩ := of_mem_pendingByAge (List.mem_of_mem_take hchosen)
  have hs' := hs.claimPending limit now
  have hbefore : s.find? i.id = some i := hs.find?_id (List.mem_of_getElem? hplace)
  have hcontains : ((s.pendingByAge.take limit).map Prod.snd).contains n = true :=
    List.contains_iff_mem.mpr (List.mem_map_of_mem hchosen)
  have hmem : i.claimed now ∈ (s.claimPending limit now).2.jobs := by
    refine List.mem_iff_getElem?.mpr ⟨n, ?_⟩
    simp only [claimPending, List.getElem?_mapIdx, hplace, Option.map_some, hcontains, if_true]
  have hafter := hs'.find?_id hmem
  refine mem_claims.mpr ⟨hmem, ?_, ?_⟩
  · rw [show (i.claimed now).id = i.id from rfl, hbefore, Option.map_some, hpending]
  · rw [hafter]
    rfl

/-- **What is given back as claimed is what has been claimed.** -/
theorem perm_claims_claimPending (hs : s.Distinct) (limit : Nat) (now : Timestamp) :
    (s.claims (s.claimPending limit now).2).Perm (s.claimPending limit now).1 := by
  have hs' := hs.claimPending limit now
  refine (List.perm_ext_iff_of_nodup (nodup_claims hs') (nodup_claimPending hs limit now)).mpr ?_
  intro j
  refine ⟨fun h => ?_, mem_claims_of_mem_claimPending hs⟩
  obtain ⟨hj, hbefore, hafter⟩ := mem_claims.mp h
  obtain ⟨i, hi, hpending⟩ := Option.map_eq_some_iff.mp hbefore
  have hfound := hs'.find?_id hj
  rw [hfound, Option.map_some, Option.some.injEq] at hafter
  rcases find?_claimPending hs hi limit now with hsame | ⟨-, hnew, hmem⟩
  · -- a record that stays as it is cannot be both pending and scheduled
    obtain rfl := Option.some.inj (hfound.symm.trans hsame)
    rw [hpending] at hafter
    cases hafter
  · obtain rfl := Option.some.inj (hfound.symm.trans hnew)
    exact hmem

/-! ### All other operations -/

/-- Nothing is claimed between two stores, and ids stay distinct. -/
structure Quiet (s s' : Store) : Prop where
  distinct : s'.Distinct
  unclaimed : ∀ {id : JobId} {j j' : Job}, s.find? id = some j → s'.find? id = some j' →
    j.status = .pending → j'.status ≠ .scheduled

theorem Quiet.claims_eq_nil (h : s.Quiet s') : s.claims s' = [] := by
  refine List.filter_eq_nil_iff.mpr fun i _ hmoved => ?_
  obtain ⟨hbefore, hafter⟩ := of_decide_eq_true hmoved
  obtain ⟨j, hj, hpending⟩ := Option.map_eq_some_iff.mp hbefore
  obtain ⟨j', hj', hscheduled⟩ := Option.map_eq_some_iff.mp hafter
  exact h.unclaimed hj hj' hpending hscheduled

theorem quiet_refl (hs : s.Distinct) : s.Quiet s where
  distinct := hs
  unclaimed := by
    intro id j j' hj hj' hpending hscheduled
    obtain rfl := Option.some.inj (hj.symm.trans hj')
    rw [hpending] at hscheduled
    cases hscheduled

theorem quiet_insert (hs : s.Distinct) {fresh : JobId} (hf : s.find? fresh = none) (new : NewJob)
    (now : Timestamp) : s.Quiet (s.insert new fresh now) where
  distinct := hs.insert hf new now
  unclaimed := by
    intro id j j' hj hj'
    rw [find?_insert_of_find? hj] at hj'
    exact (quiet_refl hs).unclaimed hj (hj.trans hj')

theorem quiet_resetScheduled (hs : s.Distinct) : s.Quiet s.resetScheduled.2 where
  distinct := hs.resetScheduled
  unclaimed := by
    intro id j j' hj hj' hpending
    rw [find?_resetScheduled, hj, Option.map_some, Option.some.injEq] at hj'
    -- a pending record is not among those that are reset
    rw [if_neg (by rw [hpending]; decide)] at hj'
    rw [← hj', hpending]
    decide

/-- A record that is not scheduled is put in the place of another. -/
theorem quiet_put (hs : s.Distinct) {i : Job} (hi : i.status ≠ .scheduled) : s.Quiet (s.put i) where
  distinct := hs.put i
  unclaimed := by
    intro id j j' hj hj'
    by_cases hid : id = i.id
    · rw [find?_put_self hj hid.symm] at hj'
      obtain rfl := Option.some.inj hj'
      exact fun _ => hi
    · rw [find?_put_of_ne hid] at hj'
      exact (quiet_refl hs).unclaimed hj hj'

/-- A change of one record that never makes it scheduled claims nothing. -/
theorem quiet_outcome_update (hs : s.Distinct) (id : JobId) {change : Job → Except StoreError Job}
    (hc : ∀ i j, change i = .ok j → j.id = i.id ∧ j.status ≠ .scheduled) :
    s.Quiet (s.outcome (s.update id change)).2 := by
  rw [update_eq hs id fun i j h => (hc i j h).1]
  cases s.find? id with
  | none => exact quiet_refl hs
  | some i =>
    cases hi : change i with
    | error e =>
      simp only [hi, Except.map, outcome]
      exact quiet_refl hs
    | ok j =>
      simp only [hi, Except.map, outcome]
      exact quiet_put hs (hc i j hi).2

/-- **No operation on a single job claims one.** -/
theorem quiet_perform_of_subject (hs : s.Distinct) {α : Type} {call : StoreCall α} {id : JobId}
    (h : call.subject? = some id) (now : Timestamp) (fresh : JobId) :
    s.Quiet (s.perform now fresh call).2 := by
  cases call <;> simp only [StoreCall.subject?, Option.some.injEq, reduceCtorEq] at h <;> subst h <;>
    simp only [perform]
  case load => exact quiet_refl hs
  case start =>
    refine quiet_outcome_update hs _ fun i j h => ?_
    obtain ⟨-, rfl⟩ := of_guarded h
    exact ⟨rfl, by simp⟩
  case cancel =>
    refine quiet_outcome_update hs _ fun i j h => ?_
    obtain ⟨-, rfl⟩ := of_guarded h
    exact ⟨rfl, by simp⟩
  all_goals
    refine quiet_outcome_update hs _ fun i j h => ?_
    rw [← Except.ok.inj h]
    exact ⟨rfl, by simp⟩

end Store

end JobDispatch
