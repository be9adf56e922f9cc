import JobDispatch.Proofs.Store.Batches
import Mathlib.Data.List.Nodup

/-!
# Records by age

A claim takes up the oldest pending records, and a page is cut from the matching ones, newest first.  If
no two records were created at the same time, then a condition and a direction determine such a list: the
records that meet the condition, each once, one after another in time.

## Main definitions

* `Store.oldestPending` — the pending records that a claim takes up.
* `Store.ClaimsOnly` — some records are claimed and all others stay as they are.
* `Job.Older` — created before.
* `JobFilter.Wants` — what a filter says of a job.
* `Store.DistinctTimes` — no two records were created at the same time.
* `Store.Lists` — **the records that meet a condition, each once, in order.**

## Main results

* `Store.claimsOnly_claimPending` — a claim changes the oldest pending records and nothing else.
* `Store.Lists.eq` — there is only one such list.
* `Store.lists_pendingByAge`, `Store.lists_newestFirst` — what is claimed and what is listed.
-/

namespace JobDispatch

theorem Timestamp.le_antisymm {a b : Timestamp} (hab : a ≤ b) (hba : b ≤ a) : a = b := by
  rw [le_def] at hab hba
  obtain ⟨s, f⟩ := a
  obtain ⟨s', f'⟩ := b
  simp only [Timestamp.mk.injEq]
  simp only at hab hba
  omega

/-- Created before another. -/
def Job.Older (i j : Job) : Prop := ¬j.createdAt ≤ i.createdAt

instance (i j : Job) : Decidable (i.Older j) := inferInstanceAs (Decidable ¬_)

theorem Job.Older.asymm {i j : Job} (h : i.Older j) : ¬j.Older i := fun h' =>
  (Timestamp.le_total i.createdAt j.createdAt).elim h' h

/-- **What a filter says of a job**: it has the state and the type, if the filter names them. -/
def JobFilter.Wants (f : JobFilter) (j : Job) : Prop :=
  (∀ status ∈ f.status, j.status = status) ∧ ∀ jobType ∈ f.jobType, j.jobType = jobType

theorem JobFilter.isMatch_iff {f : JobFilter} {j : Job} : f.isMatch j = true ↔ f.Wants j := by
  cases hstatus : f.status <;> cases htype : f.jobType <;> simp [isMatch, Wants, hstatus, htype]

namespace Store

variable {s : Store}

/-! ### What a claim takes up -/

/-- The pending records that a claim takes up: the oldest, and of those of one age the first in the
store. -/
def oldestPending (s : Store) (limit : Nat) : List Job :=
  ((s.jobs.filter fun j => j.status == .pending).mergeSort
    fun i j => i.createdAt.le j.createdAt).take limit

/-- **Some records are claimed and all others stay as they are**; each of the claimed ones is at a place
of its own. -/
def ClaimsOnly (s : Store) (claimed : List Job) (now : Timestamp) (s' : Store) : Prop :=
  ∃ places : List Nat, places.Nodup ∧
    places.map (fun i => s.jobs[i]?) = claimed.map some ∧
    s'.jobs = s.jobs.mapIdx fun i j => if i ∈ places then j.claimed now else j

theorem oldestPending_eq (s : Store) (limit : Nat) :
    s.oldestPending limit = (s.pendingByAge.take limit).map Prod.fst := by
  rw [oldestPending, ← map_fst_pendingByAge, List.map_take]

theorem length_oldestPending (s : Store) (limit : Nat) :
    (s.oldestPending limit).length = min limit (s.countIn .pending) := by
  rw [oldestPending_eq, List.length_map, List.length_take, length_pendingByAge]

/-- The records that a claim returns are those that it takes up, after their move. -/
theorem claimPending_fst (s : Store) (limit : Nat) (now : Timestamp) :
    (s.claimPending limit now).1 = (s.oldestPending limit).map fun j => j.claimed now := by
  rw [oldestPending_eq, List.map_map]
  rfl

/-- **A claim changes the oldest pending records and nothing else.** -/
theorem claimsOnly_claimPending (s : Store) (limit : Nat) (now : Timestamp) :
    s.ClaimsOnly (s.oldestPending limit) now (s.claimPending limit now).2 := by
  refine ⟨(s.pendingByAge.take limit).map Prod.snd, ?_, ?_, ?_⟩
  · exact (nodup_places s).sublist ((List.take_sublist _ _).map _)
  · rw [oldestPending_eq, List.map_map, List.map_map]
    exact List.map_congr_left fun p hp => (of_mem_pendingByAge (List.mem_of_mem_take hp)).1
  · simp only [claimPending, List.contains_iff_mem]

/-! ### Records that differ in age -/

/-- No two records were created at the same time. -/
def DistinctTimes (s : Store) : Prop := (s.jobs.map Job.createdAt).Nodup

/-- **The records that meet a condition**, each once, in order. -/
structure Lists (s : Store) (p : Job → Prop) (r : Job → Job → Prop) (l : List Job) : Prop where
  mem_iff : ∀ j, j ∈ l ↔ j ∈ s.jobs ∧ p j
  ordered : l.Pairwise r

variable {p : Job → Prop} {r : Job → Job → Prop} {l l' : List Job}

/-- **There is only one such list.** -/
theorem Lists.eq (hr : ∀ {i j}, r i j → ¬r j i) (h : s.Lists p r l) (h' : s.Lists p r l') : l = l' := by
  have hne : ∀ {i j}, r i j → i ≠ j := by
    rintro i _ hij rfl
    exact hr hij hij
  have hperm : l.Perm l' := (List.perm_ext_iff_of_nodup (h.ordered.imp hne) (h'.ordered.imp hne)).mpr
    fun j => (h.mem_iff j).trans (h'.mem_iff j).symm
  exact hperm.eq_of_pairwise (fun i j _ _ hij hji => absurd hji (hr hij)) h.ordered h'.ordered

/-- Records that are listed by age, and differ in it, stand one after another in time. -/
theorem pairwise_older (hl : l.Pairwise fun i j => i.createdAt ≤ j.createdAt)
    (hd : (l.map Job.createdAt).Nodup) : l.Pairwise Job.Older := by
  rw [List.Nodup, List.pairwise_map] at hd
  exact (hl.and hd).imp fun h hle => h.2 (Timestamp.le_antisymm h.1 hle)

/-- A list of some of the records differs in age. -/
theorem DistinctTimes.nodup (hs : s.DistinctTimes) {q : Job → Bool} (h : l.Perm (s.jobs.filter q)) :
    (l.map Job.createdAt).Nodup :=
  (h.map Job.createdAt).nodup_iff.mpr (hs.sublist (List.filter_sublist.map Job.createdAt))

/-- **What is claimed is cut from the pending records**, oldest first. -/
theorem lists_pendingByAge (hs : s.DistinctTimes) :
    s.Lists (fun j => j.status = .pending) Job.Older (s.pendingByAge.map Prod.fst) where
  mem_iff j := by
    rw [(perm_pendingByAge s).mem_iff, List.mem_filter, beq_iff_eq]
  ordered := by
    refine pairwise_older ?_ (hs.nodup (perm_pendingByAge s))
    rw [map_fst_pendingByAge]
    exact List.pairwise_mergeSort (Timestamp.le_trans_by Job.createdAt)
      (Timestamp.le_total_by Job.createdAt) _

/-- What is listed stands in order. -/
theorem pairwise_newestFirst (s : Store) (f : JobFilter) :
    (s.newestFirst f).Pairwise fun i j => j.createdAt ≤ i.createdAt :=
  List.pairwise_mergeSort (fun i j k h h' => Timestamp.le_trans_by Job.createdAt k j i h' h)
    (fun i j => Timestamp.le_total_by Job.createdAt j i) _

/-- The matching records, if they stand in order. -/
theorem lists_of_perm (hs : s.DistinctTimes) {f : JobFilter} (hl : l.Perm (s.jobs.filter f.isMatch))
    (hsorted : l.Pairwise fun i j => j.createdAt ≤ i.createdAt) :
    s.Lists f.Wants (fun i j => j.Older i) l where
  mem_iff j := by
    rw [hl.mem_iff, List.mem_filter, JobFilter.isMatch_iff]
  ordered := by
    rw [← List.pairwise_reverse] at hsorted ⊢
    exact pairwise_older hsorted (hs.nodup ((List.reverse_perm l).trans hl))

/-- **What is listed is cut from the matching records**, newest first. -/
theorem lists_newestFirst (hs : s.DistinctTimes) (f : JobFilter) :
    s.Lists f.Wants (fun i j => j.Older i) (s.newestFirst f) :=
  lists_of_perm hs (List.mergeSort_perm _ _) (pairwise_newestFirst s f)

end Store

end JobDispatch
