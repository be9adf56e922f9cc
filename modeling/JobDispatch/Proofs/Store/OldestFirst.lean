import JobDispatch.Proofs.Store.Ages
import JobDispatch.Proofs.Store.Course

/-!
# The oldest first

A claim takes the oldest of the pending records, as many as it may, and leaves all others alone.  Two
claims after one another take what one claim of their joint size takes, and leave what it leaves; only
the times that are set for the first time tell them apart.  A record that is claimed twice was made
pending in between.

## Main definitions

* `Job.SameButClaimTime` — records that differ at most in a time set by a claim.
* `Store.ClaimsFirst` — a claim takes the first records of a list.

## Main results

* `Store.claimsFirst` — a claim takes the oldest pending records.
* `Store.forall₂_claimPending_add` — what two claims and a single one leave.
* `Store.goesBack_of_claimed_twice` — a record that is claimed twice goes back in between.
* `Store.DistinctTimes.run` — operations that add no record keep the records apart in time.
* `Store.batches_claim_as_one` — **claiming in batches is claiming at once.**
-/

namespace JobDispatch

/-- Records that differ at most in the time of a claim: one has the time of a claim among some, the other
that of another claim. -/
structure Job.SameButClaimTime (times : List Timestamp) (now : Timestamp) (j k : Job) : Prop where
  agree : j.AgreeOutside [.scheduledAt] k
  time : j.scheduledAt = k.scheduledAt ∨
    (∃ t ∈ times, j.scheduledAt = some t) ∧ k.scheduledAt = some now

namespace Job

variable {times : List Timestamp} {t now : Timestamp}

theorem SameButClaimTime.refl (j : Job) : SameButClaimTime times now j j :=
  ⟨fun f _ => by cases f <;> rfl, .inl rfl⟩

/-- A record that is claimed at two times. -/
theorem sameButClaimTime_claimed (ht : t ∈ times) (i : Job) :
    SameButClaimTime times now (i.claimed t) (i.claimed now) where
  agree f hf := by cases f <;> first | rfl | simp at hf
  time := by
    cases h : i.scheduledAt with
    | none => exact .inr ⟨⟨t, ht, by simp [claimed, h]⟩, by simp [claimed, h]⟩
    | some u => exact .inl (by simp [claimed, h])

end Job

namespace Store

variable {s : Store} {waiting : List Job}

/-! ### One claim -/

/-- **A claim takes the first records of a list**: they come back scheduled, with the time of their first
claim, and so they are in the store, in which all others stay as they are. -/
structure ClaimsFirst (s : Store) (waiting : List Job) (limit : Nat) (now : Timestamp) : Prop where
  length : (s.claimPending limit now).1.length = min limit (s.countIn .pending)
  claimed : List.Forall₂
    (fun i j => j = { i with status := .scheduled, scheduledAt := i.scheduledAt.or (some now) })
    (waiting.take limit) (s.claimPending limit now).1
  records : List.Forall₂ (fun i j => i ∈ waiting.take limit ∧ j ∈ (s.claimPending limit now).1 ∧
      j = { i with status := .scheduled, scheduledAt := i.scheduledAt.or (some now) } ∨
        i ∉ waiting.take limit ∧ j = i) s.jobs (s.claimPending limit now).2.jobs

theorem claimed_eq (now : Timestamp) (i : Job) :
    i.claimed now = { i with status := .scheduled, scheduledAt := i.scheduledAt.or (some now) } := by
  cases h : i.scheduledAt <;> simp [Job.claimed, h]

/-- What a claim leaves in each place. -/
theorem getElem?_claimPending (s : Store) (limit : Nat) (now : Timestamp) (n : Nat) :
    (s.claimPending limit now).2.jobs[n]? = s.jobs[n]?.map fun i =>
      if n ∈ (s.pendingByAge.map Prod.snd).take limit then i.claimed now else i := by
  simp only [claimPending, List.getElem?_mapIdx, List.map_take, List.contains_iff_mem]

/-- Records that were created at one time stand in one place. -/
theorem DistinctTimes.place_eq (hs : s.DistinctTimes) {m n : Nat} {i j : Job} (hi : s.jobs[m]? = some i)
    (hj : s.jobs[n]? = some j) (h : i.createdAt = j.createdAt) : m = n := by
  have hm : m < (s.jobs.map Job.createdAt).length := by
    rw [List.length_map]
    exact (List.getElem?_eq_some_iff.mp hi).1
  refine (List.getElem?_inj hm hs).mp ?_
  rw [List.getElem?_map, List.getElem?_map, hi, hj, Option.map_some, Option.map_some, h]

/-- A record is taken up if its place is chosen. -/
theorem mem_oldestPending_iff (hs : s.DistinctTimes) {n : Nat} {i : Job} (hi : s.jobs[n]? = some i)
    (limit : Nat) : i ∈ s.oldestPending limit ↔ n ∈ (s.pendingByAge.map Prod.snd).take limit := by
  rw [oldestPending_eq, ← List.map_take]
  constructor
  · intro h
    obtain ⟨⟨i, m⟩, hchosen, rfl⟩ := List.mem_map.mp h
    obtain ⟨hplace, -⟩ := of_mem_pendingByAge (List.mem_of_mem_take hchosen)
    obtain rfl := hs.place_eq hplace hi rfl
    exact List.mem_map_of_mem hchosen
  · intro h
    obtain ⟨⟨k, n⟩, hchosen, rfl⟩ := List.mem_map.mp h
    obtain ⟨hplace, -⟩ := of_mem_pendingByAge (List.mem_of_mem_take hchosen)
    obtain rfl := Option.some.inj (hplace.symm.trans hi)
    exact List.mem_map_of_mem hchosen

/-- **A claim takes the oldest pending records.** -/
theorem claimsFirst (hs : s.DistinctTimes) (limit : Nat) (now : Timestamp) :
    s.ClaimsFirst (s.pendingByAge.map Prod.fst) limit now where
  length := by
    rw [claimPending_fst, List.length_map, length_oldestPending]
  claimed := by
    rw [claimPending_fst, ← List.map_take, ← oldestPending_eq]
    exact List.forall₂_map_right_iff.mpr (List.forall₂_same.mpr fun i _ => claimed_eq now i)
  records := by
    refine List.forall₂_iff_get.mpr ⟨(length_claimPending s limit now).symm, fun n hn hn' => ?_⟩
    have hi := List.getElem?_eq_getElem hn
    have hj := getElem?_claimPending s limit now n
    rw [List.getElem?_eq_getElem hn', hi, Option.map_some, Option.some.injEq] at hj
    rw [List.get_eq_getElem, List.get_eq_getElem, hj, ← List.map_take, ← oldestPending_eq,
      mem_oldestPending_iff hs hi]
    split
    · next hchosen =>
      refine .inl ⟨hchosen, ?_, claimed_eq now _⟩
      rw [claimPending_fst]
      exact List.mem_map_of_mem ((mem_oldestPending_iff hs hi limit).mpr hchosen)
    · next hchosen => exact .inr ⟨hchosen, rfl⟩

/-! ### One claim after another -/

variable (s) (a b : Nat) (t₁ t₂ now : Timestamp)

/-- **Two claims give back what a single one does.** -/
theorem forall₂_claimPending_append :
    List.Forall₂ (Job.SameButClaimTime [t₁, t₂] now)
      ((s.claimPending a t₁).1 ++ ((s.claimPending a t₁).2.claimPending b t₂).1)
      (s.claimPending (a + b) now).1 := by
  have hmap : ∀ t ∈ [t₁, t₂], ∀ l : List Job,
      List.Forall₂ (Job.SameButClaimTime [t₁, t₂] now) (l.map (Job.claimed t))
        (l.map (Job.claimed now)) := fun t ht l =>
    List.forall₂_map_left_iff.mpr (List.forall₂_map_right_iff.mpr
      (List.forall₂_same.mpr fun i _ => Job.sameButClaimTime_claimed ht i))
  simp only [claimPending_fst, oldestPending_eq, pendingByAge_claimPending]
  rw [List.take_add, List.map_append, List.map_append]
  exact List.rel_append (hmap t₁ (by simp) _) (hmap t₂ (by simp) _)

/-- **Two claims leave what a single one does.** -/
theorem forall₂_claimPending_add :
    List.Forall₂ (Job.SameButClaimTime [t₁, t₂] now)
      ((s.claimPending a t₁).2.claimPending b t₂).2.jobs (s.claimPending (a + b) now).2.jobs := by
  refine List.forall₂_iff_get.mpr ⟨by simp only [length_claimPending], fun n hn hn' => ?_⟩
  have hi : n < s.jobs.length := by simpa only [length_claimPending] using hn
  have htwo := getElem?_claimPending (s.claimPending a t₁).2 b t₂ n
  have hone := getElem?_claimPending s (a + b) now n
  rw [List.getElem?_eq_getElem hn, getElem?_claimPending, pendingByAge_claimPending, List.map_drop,
    List.getElem?_eq_getElem hi, Option.map_some, Option.map_some, Option.some.injEq] at htwo
  rw [List.getElem?_eq_getElem hn', List.getElem?_eq_getElem hi, Option.map_some, Option.some.injEq,
    List.take_add] at hone
  rw [List.get_eq_getElem, List.get_eq_getElem, htwo, hone]
  -- no place is chosen twice
  have hapart := List.disjoint_take_drop (nodup_places s) (Nat.le_refl a)
  by_cases hfirst : n ∈ (s.pendingByAge.map Prod.snd).take a
  · have hsecond : n ∉ ((s.pendingByAge.map Prod.snd).drop a).take b := fun h =>
      hapart hfirst (List.mem_of_mem_take h)
    rw [if_neg hsecond, if_pos hfirst, if_pos (List.mem_append_left _ hfirst)]
    exact Job.sameButClaimTime_claimed (by simp) _
  · by_cases hsecond : n ∈ ((s.pendingByAge.map Prod.snd).drop a).take b
    · rw [if_pos hsecond, if_neg hfirst, if_pos (List.mem_append_right _ hsecond)]
      exact Job.sameButClaimTime_claimed (by simp) _
    · rw [if_neg hsecond, if_neg hfirst, if_neg fun h => (List.mem_append.mp h).elim hfirst hsecond]
      exact .refl _

/-! ### One record claimed twice -/

variable {s}

/-- What is claimed stands in its place afterwards, and is not pending. -/
theorem exists_place_of_mem_claimPending {limit : Nat} {now : Timestamp} {j : Job}
    (h : j ∈ (s.claimPending limit now).1) :
    ∃ (n : Nat) (i : Job), s.jobs[n]? = some i ∧ i.status = .pending ∧ j.createdAt = i.createdAt ∧
      j.status = .scheduled ∧ (s.claimPending limit now).2.jobs[n]? = some j := by
  obtain ⟨⟨i, n⟩, hchosen, rfl⟩ := List.mem_map.mp h
  obtain ⟨hplace, hpending⟩ := of_mem_pendingByAge (List.mem_of_mem_take hchosen)
  refine ⟨n, i, hplace, hpending, rfl, rfl, ?_⟩
  have hmem : n ∈ (s.pendingByAge.map Prod.snd).take limit := by
    rw [← List.map_take]
    exact List.mem_map_of_mem hchosen
  rw [getElem?_claimPending, hplace, Option.map_some, if_pos hmem]

/-- Every pending record is claimed if there are no more of them than may be. -/
theorem mem_claimPending_of_le {limit : Nat} (h : s.countIn .pending ≤ limit) {j : Job} (hj : j ∈ s.jobs)
    (hpending : j.status = .pending) (now : Timestamp) : j.claimed now ∈ (s.claimPending limit now).1 := by
  have hall : (s.pendingByAge.take limit) = s.pendingByAge :=
    List.take_of_length_le (by rwa [length_pendingByAge])
  rw [claimPending_fst, oldestPending_eq, hall]
  refine List.mem_map_of_mem ((perm_pendingByAge s).mem_iff.mpr ?_)
  exact List.mem_filter.mpr ⟨hj, beq_iff_eq.mpr hpending⟩

/-- No record is given back twice by one claim. -/
theorem nodup_createdAt_claimPending (hs : s.DistinctTimes) (limit : Nat) (now : Timestamp) :
    ((s.claimPending limit now).1.map Job.createdAt).Nodup := by
  rw [claimPending_fst, oldestPending_eq, List.map_map, List.map_take]
  exact (hs.nodup (perm_pendingByAge s)).sublist ((List.take_sublist _ _).map Job.createdAt)

/-- **A record that is claimed twice goes back in between.** -/
theorem goesBack_of_claimed_twice {limit limit' : Nat} {now now' : Timestamp} {xs : List StoreStep}
    (hs : ((s.claimPending limit now).2.run xs).DistinctTimes) {j k : Job}
    (hj : j ∈ (s.claimPending limit now).1)
    (hk : k ∈ (((s.claimPending limit now).2.run xs).claimPending limit' now').1)
    (h : k.createdAt = j.createdAt) : (s.claimPending limit now).2.GoesBack xs j.createdAt := by
  obtain ⟨n, -, -, -, -, hscheduled, hplace⟩ := exists_place_of_mem_claimPending hj
  obtain ⟨m, i, hi, hpending, hcreated, -⟩ := exists_place_of_mem_claimPending hk
  obtain ⟨j', hj', hkeeps⟩ := getElem?_run hplace xs
  -- the record of the second claim stands where that of the first does
  obtain rfl := hs.place_eq hi hj' (by rw [← hcreated, h, hkeeps.createdAt])
  exact goesBack_of_pending hplace (by rw [hscheduled]; decide) hi hpending

/-- Only a new job can have been created at the time of another. -/
theorem DistinctTimes.after {x : StoreStep} (hs : s.DistinctTimes) (hx : x.call.Adds x.now x.fresh []) :
    (s.after x).DistinctTimes := by
  obtain ⟨kept, added, hjobs, hadds, hkept⟩ := forall₂_perform s x.now x.fresh x.call
  obtain rfl := hx.eq_nil hadds
  have hcreated : s.jobs.map Job.createdAt = kept.map Job.createdAt := by
    rw [← List.forall₂_eq_eq_eq, List.forall₂_map_left_iff, List.forall₂_map_right_iff]
    refine hkept.imp ?_
    rintro i j (rfl | hchange)
    · rfl
    · exact hchange.keeps.createdAt.symm
  rw [DistinctTimes, Store.after, hjobs, List.append_nil, ← hcreated]
  exact hs

theorem DistinctTimes.run {xs : List StoreStep} (hs : s.DistinctTimes)
    (hxs : ∀ x ∈ xs, x.call.Adds x.now x.fresh []) : (s.run xs).DistinctTimes := by
  induction xs generalizing s with
  | nil => exact hs
  | cons x xs ih =>
    rw [List.forall_mem_cons] at hxs
    exact ih (hs.after hxs.1) hxs.2

/-- **Claiming in batches is claiming at once.**  If no two records were created at the same time, then a
claim takes the oldest of the pending records, as many as it may; two claims take, and leave, what one
claim of their joint size does, but for the times that they set; and a record is claimed again only if
it has gone back to those that wait, whatever operations have been carried out in between.  (All
operations but an insertion keep the records apart in time.) -/
theorem batches_claim_as_one (hs : s.DistinctTimes) :
    ∃ waiting, s.Lists (fun j => j.status = .pending) Job.Older waiting ∧
      (∀ limit now, s.ClaimsFirst waiting limit now) ∧
      (∀ a b t₁ t₂ now,
        List.Forall₂ (Job.SameButClaimTime [t₁, t₂] now)
          ((s.claimPending a t₁).1 ++ ((s.claimPending a t₁).2.claimPending b t₂).1)
          (s.claimPending (a + b) now).1 ∧
        List.Forall₂ (Job.SameButClaimTime [t₁, t₂] now)
          ((s.claimPending a t₁).2.claimPending b t₂).2.jobs (s.claimPending (a + b) now).2.jobs) ∧
      ∀ limit now, ((s.claimPending limit now).1.map Job.createdAt).Nodup ∧
        ∀ xs, ((∀ x ∈ xs, x.call.Adds x.now x.fresh []) →
            ((s.claimPending limit now).2.run xs).DistinctTimes) ∧
          (((s.claimPending limit now).2.run xs).DistinctTimes →
            ∀ limit' now', ∀ j ∈ (s.claimPending limit now).1,
              ∀ k ∈ (((s.claimPending limit now).2.run xs).claimPending limit' now').1,
                k.createdAt = j.createdAt → (s.claimPending limit now).2.GoesBack xs j.createdAt) := by
  refine ⟨s.pendingByAge.map Prod.fst, lists_pendingByAge hs, claimsFirst hs, ?_, ?_⟩
  · intro a b t₁ t₂ now
    exact ⟨forall₂_claimPending_append s a b t₁ t₂ now, forall₂_claimPending_add s a b t₁ t₂ now⟩
  · intro limit now
    refine ⟨nodup_createdAt_claimPending hs limit now, fun xs => ⟨?_, ?_⟩⟩
    · -- a claim is itself an operation that adds no record
      have hclaimed : (s.claimPending limit now).2.DistinctTimes :=
        hs.after (x := ⟨.claimPending limit, now, .nil⟩) rfl
      exact hclaimed.run
    · intro hxs limit' now' j hj k hk h
      exact goesBack_of_claimed_twice hxs hj hk h

/-- A new job, an older one that has been tried before, and one that is running. -/
def backlog : Store :=
  let new : NewJob := ⟨"report", "sleep", 5, Double.one, 3, .object []⟩
  ⟨[new.record (.ofNat 1) ⟨3, 0⟩,
    ((new.record (.ofNat 2) ⟨1, 0⟩).claimed ⟨4, 0⟩).returned 1 "timeout",
    ((new.record (.ofNat 3) ⟨2, 0⟩).claimed ⟨4, 0⟩).started ⟨5, 0⟩]⟩

/-- The job that has been tried before is claimed first and keeps the time of its first claim, also if
the two jobs are claimed one by one.  It is claimed again after it has gone back. -/
theorem claimed_of_backlog :
    backlog.DistinctTimes ∧
      ((backlog.claimPending 2 ⟨9, 0⟩).1.map fun j => (j.id, j.scheduledAt))
        = [(.ofNat 2, some ⟨4, 0⟩), (.ofNat 1, some ⟨9, 0⟩)] ∧
      List.Forall₂ (Job.SameButClaimTime [⟨7, 0⟩, ⟨8, 0⟩] ⟨9, 0⟩)
        ((backlog.claimPending 1 ⟨7, 0⟩).1 ++
          ((backlog.claimPending 1 ⟨7, 0⟩).2.claimPending 1 ⟨8, 0⟩).1)
        (backlog.claimPending 2 ⟨9, 0⟩).1 ∧
      (backlog.claimPending 2 ⟨9, 0⟩).2.GoesBack [⟨.resetScheduled, ⟨10, 0⟩, .nil⟩] ⟨1, 0⟩ := by
  have hs : backlog.DistinctTimes := by
    rw [DistinctTimes]
    decide
  obtain ⟨-, -, -, hbatches, hagain⟩ := batches_claim_as_one hs
  have hpending : backlog.pendingByAge = [(backlog.jobs[1], 1), (backlog.jobs[0], 0)] := by
    show List.mergeSort [(backlog.jobs[0], 0), (backlog.jobs[1], 1)] _ = _
    rw [mergeSort_cons_eq (Timestamp.le_trans_by fun p : Job × Nat => p.1.createdAt)
      (Timestamp.le_total_by fun p : Job × Nat => p.1.createdAt), List.mergeSort_singleton]
    rfl
  have hclaim : backlog.claimPending 2 ⟨9, 0⟩
      = ([backlog.jobs[1].claimed ⟨9, 0⟩, backlog.jobs[0].claimed ⟨9, 0⟩],
        ⟨[backlog.jobs[0].claimed ⟨9, 0⟩, backlog.jobs[1].claimed ⟨9, 0⟩, backlog.jobs[2]]⟩) := by
    rw [claimPending, hpending]
    rfl
  refine ⟨hs, ?_, (hbatches 1 1 _ _ _).1, ?_⟩
  · rw [hclaim]
    rfl
  · obtain ⟨hapart, hback⟩ := (hagain 2 ⟨9, 0⟩).2 [⟨.resetScheduled, ⟨10, 0⟩, .nil⟩]
    refine hback (hapart ?_) 3 ⟨11, 0⟩ (backlog.jobs[1].claimed ⟨9, 0⟩) ?_
      ((backlog.jobs[1].claimed ⟨9, 0⟩).unclaimed.claimed ⟨11, 0⟩) ?_ rfl
    · exact List.forall_mem_singleton.mpr rfl
    · rw [hclaim]
      exact List.mem_cons_self
    · rw [hclaim]
      refine mem_claimPending_of_le ?_ (List.mem_cons_of_mem _ List.mem_cons_self) rfl _
      decide

end Store

end JobDispatch
