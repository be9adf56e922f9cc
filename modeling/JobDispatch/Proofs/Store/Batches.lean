import Mathlib.Data.List.Forall2
import JobDispatch.Proofs.Sorting
import JobDispatch.Proofs.Store.Records
import JobDispatch.Store.Listing

/-!
# Claiming batch after batch

A claim takes the first of the pending records, oldest first and those of equal age in the order in
which they were stored.  Sorting is stable, so those that are left keep their order.  Batch after batch
is therefore cut from one and the same list, and as soon as the batches are together as long as that
list, every pending record has been claimed, once.

## Main definitions

* `Store.claimEach` — one claim after another, each at its own time.
* `Job.Claimed` — what claims at some times make of a record.

## Main results

* `Store.pendingByAge_claimPending` — **a claim takes the first pending records and leaves the others
  in their order.**
* `Store.tickets_claimEach` — what is claimed in all.
* `Store.forall₂_claimEach_of_le` — **enough batches claim every pending record once and leave all
  others alone.**
-/

namespace JobDispatch

/-! ### Sorting by time -/

section

variable {α : Type} (time : α → Timestamp)

theorem Timestamp.le_trans_by (a b c : α) (hab : (time a).le (time b) = true)
    (hbc : (time b).le (time c) = true) : (time a).le (time c) = true :=
  Timestamp.le_trans hab hbc

theorem Timestamp.le_total_by (a b : α) : ((time a).le (time b) || (time b).le (time a)) = true :=
  Bool.or_eq_true_iff.mpr (Timestamp.le_total (time a) (time b))

end

/-! ### What is left -/

/-- Of a list without repetition, what is not among the first ones is the rest. -/
theorem filter_not_take {α β : Type} [BEq β] [LawfulBEq β] {f : α → β} {l : List α}
    (h : (l.map f).Nodup) (n : Nat) :
    (l.filter fun a => !((l.take n).map f).contains (f a)) = l.drop n := by
  have hsplit : l.filter (fun a => !((l.take n).map f).contains (f a))
      = (l.take n ++ l.drop n).filter fun a => !((l.take n).map f).contains (f a) := by
    rw [List.take_append_drop]
  rw [← List.take_append_drop n l, List.map_append, List.nodup_append] at h
  have hfirst : ∀ a ∈ l.take n, ¬(!((l.take n).map f).contains (f a)) = true := by
    intro a ha
    rw [Bool.not_eq_true', Bool.not_eq_false, List.contains_iff_mem]
    exact List.mem_map_of_mem ha
  have hrest : ∀ a ∈ l.drop n, (!((l.take n).map f).contains (f a)) = true := by
    intro a ha
    rw [Bool.not_eq_true', ← Bool.not_eq_true, List.contains_iff_mem]
    exact fun hmem => h.2.2 _ hmem _ (List.mem_map_of_mem ha) rfl
  rw [hsplit, List.filter_append, List.filter_eq_nil_iff.mpr hfirst, List.filter_eq_self.mpr hrest,
    List.nil_append]

namespace Store

variable {s : Store}

/-! ### The pending records -/

/-- No place is listed twice. -/
theorem nodup_places (s : Store) : (s.pendingByAge.map Prod.snd).Nodup := by
  have hall : (s.jobs.zipIdx.map Prod.snd).Nodup := by
    rw [List.zipIdx_map_snd]
    exact List.nodup_range'
  have hperm := (List.mergeSort_perm (s.jobs.zipIdx.filter fun p => p.1.status == .pending)
    fun p q => p.1.createdAt.le q.1.createdAt).map Prod.snd
  exact hperm.nodup_iff.mpr (hall.sublist (List.filter_sublist.map _))

/-- The pending records without their places. -/
theorem map_fst_pendingByAge (s : Store) :
    s.pendingByAge.map Prod.fst = (s.jobs.filter fun j => j.status == .pending).mergeSort
      fun i j => i.createdAt.le j.createdAt := by
  have hfst : s.jobs.zipIdx.map Prod.fst = s.jobs := List.zipIdx_map_fst 0 s.jobs
  have hfilter : (s.jobs.zipIdx.filter fun p => p.1.status == .pending).map Prod.fst
      = s.jobs.filter fun j => j.status == .pending := by
    conv_rhs => rw [← hfst, List.filter_map]
    rfl
  rw [pendingByAge, ← hfilter]
  exact List.map_mergeSort fun _ _ _ _ => rfl

/-- **The pending records are listed**, and nothing else is. -/
theorem perm_pendingByAge (s : Store) :
    (s.pendingByAge.map Prod.fst).Perm (s.jobs.filter fun j => j.status == .pending) := by
  rw [map_fst_pendingByAge]
  exact List.mergeSort_perm _ _

theorem length_pendingByAge (s : Store) : s.pendingByAge.length = s.countIn .pending := by
  have hlength := (perm_pendingByAge s).length_eq
  rwa [List.length_map, ← List.countP_eq_length_filter] at hlength

/-- What is listed after a claim was not chosen, and was listed before it. -/
theorem filter_pending_claimPending (s : Store) (limit : Nat) (now : Timestamp) :
    ((s.claimPending limit now).2.jobs.zipIdx.filter fun p => p.1.status == .pending)
      = (s.jobs.zipIdx.filter fun p => p.1.status == .pending).filter
          fun p => !((s.pendingByAge.take limit).map Prod.snd).contains p.2 := by
  generalize hplaces : (s.pendingByAge.take limit).map Prod.snd = places
  -- the record at each place after the claim
  have hclaimed : (s.claimPending limit now).2.jobs.zipIdx
      = s.jobs.zipIdx.map fun p => (if places.contains p.2 then p.1.claimed now else p.1, p.2) := by
    apply List.ext_getElem?
    intro i
    simp only [claimPending, hplaces, List.getElem?_zipIdx, List.getElem?_map, List.getElem?_mapIdx,
      Option.map_map, Nat.zero_add]
    rfl
  rw [hclaimed, List.filter_map, List.filter_filter]
  have hsame : ∀ p : Job × Nat,
      ((fun p : Job × Nat => p.1.status == JobStatus.pending) ∘
        fun p => (if places.contains p.2 then p.1.claimed now else p.1, p.2)) p
        = (!places.contains p.2 && p.1.status == .pending) := by
    intro p
    simp only [Function.comp]
    cases places.contains p.2 <;> simp
  rw [List.filter_congr fun p _ => hsame p]
  refine (List.map_congr_left fun p hp => ?_).trans (List.map_id _)
  have hnot := (List.mem_filter.mp hp).2
  rw [Bool.and_eq_true, Bool.not_eq_true'] at hnot
  simp only [hnot.1, Bool.false_eq_true, if_false]
  rfl

/-- **A claim takes the first pending records and leaves the others in their order.** -/
theorem pendingByAge_claimPending (s : Store) (limit : Nat) (now : Timestamp) :
    (s.claimPending limit now).2.pendingByAge = s.pendingByAge.drop limit := by
  rw [← filter_not_take (nodup_places s) limit]
  conv_lhs => rw [pendingByAge, filter_pending_claimPending]
  exact mergeSort_filter (Timestamp.le_trans_by fun p : Job × Nat => p.1.createdAt)
    (Timestamp.le_total_by fun p : Job × Nat => p.1.createdAt) _ _

end Store

/-! ### What claims make of the records -/

/-- **What claims at some times make of a record**: it stays, or it was pending and is claimed once. -/
inductive Job.Claimed (times : List Timestamp) : Job → Job → Prop
  | kept (j : Job) : Claimed times j j
  | claimed (j : Job) (now : Timestamp) (ht : now ∈ times) (hj : j.status = .pending) :
    Claimed times j (j.claimed now)

/-- A record is not claimed again. -/
theorem Job.Claimed.append {times more : List Timestamp} {i j k : Job} (h : Claimed times i j)
    (hmore : Claimed more j k) : Claimed (times ++ more) i k := by
  cases h with
  | kept =>
    cases hmore with
    | kept => exact .kept _
    | claimed now ht hj => exact .claimed _ now (List.mem_append_right _ ht) hj
  | claimed now ht hj =>
    cases hmore with
    | kept => exact .claimed _ now (List.mem_append_left _ ht) hj
    | claimed _ _ hscheduled => exact absurd hscheduled (by simp)

/-- Two changes of all members of a list, one after the other. -/
theorem forall₂_comp {α : Type} {R S T : α → α → Prop} (h : ∀ a b c, R a b → S b c → T a c) :
    ∀ {l m n : List α}, List.Forall₂ R l m → List.Forall₂ S m n → List.Forall₂ T l n
  | _, _, _, .nil, .nil => .nil
  | _, _, _, .cons hr hrs, .cons hs hss => .cons (h _ _ _ hr hs) (forall₂_comp h hrs hss)

namespace Store

variable {s : Store}

/-- What a claim makes of each record. -/
theorem forall₂_claimPending (s : Store) (limit : Nat) (now : Timestamp) :
    List.Forall₂ (Job.Claimed [now]) s.jobs (s.claimPending limit now).2.jobs := by
  refine List.forall₂_iff_get.mpr ⟨(length_claimPending s limit now).symm, fun i hi hi' => ?_⟩
  simp only [claimPending, List.get_eq_getElem, List.getElem_mapIdx]
  split
  · next hc =>
    -- the place was chosen, and what was chosen there is pending
    obtain ⟨⟨j, n⟩, hchosen, rfl⟩ := List.mem_map.mp (List.contains_iff_mem.mp hc)
    obtain ⟨hplace, hpending⟩ := of_mem_pendingByAge (List.mem_of_mem_take hchosen)
    have hj : s.jobs[n] = j := Option.some.inj ((List.getElem?_eq_getElem hi).symm.trans hplace)
    exact .claimed _ now (List.mem_singleton_self now) (hj ▸ hpending)
  · exact .kept _

/-! ### Batch after batch -/

/-- **One claim after another**, each at its own time: all that is claimed, and the store after it. -/
def claimEach (limit : Nat) : List Timestamp → Store → List Job × Store
  | [], s => ([], s)
  | now :: times, s =>
    let first := s.claimPending limit now
    let rest := claimEach limit times first.2
    (first.1 ++ rest.1, rest.2)

/-- What is left after all batches. -/
theorem pendingByAge_claimEach (limit : Nat) (times : List Timestamp) (s : Store) :
    (claimEach limit times s).2.pendingByAge = s.pendingByAge.drop (times.length * limit) := by
  induction times generalizing s with
  | nil => simp [claimEach]
  | cons now times ih =>
    rw [claimEach, ih, pendingByAge_claimPending, List.drop_drop, List.length_cons, Nat.succ_mul,
      Nat.add_comm]

/-- **What is claimed in all**: the batches are cut from the list of pending records. -/
theorem tickets_claimEach (limit : Nat) (times : List Timestamp) (s : Store) :
    (claimEach limit times s).1.map Job.ticket
      = (s.pendingByAge.take (times.length * limit)).map fun p => p.1.ticket := by
  induction times generalizing s with
  | nil => simp [claimEach]
  | cons now times ih =>
    have hfirst : (s.claimPending limit now).1.map Job.ticket
        = (s.pendingByAge.take limit).map fun p => p.1.ticket := by
      simp only [claimPending, List.map_map]
      rfl
    rw [claimEach, List.map_append, ih, hfirst, pendingByAge_claimPending, ← List.map_append,
      ← List.take_add, List.length_cons, Nat.succ_mul, Nat.add_comm]

/-- What all batches make of each record. -/
theorem forall₂_claimEach (limit : Nat) (times : List Timestamp) (s : Store) :
    List.Forall₂ (Job.Claimed times) s.jobs (claimEach limit times s).2.jobs := by
  induction times generalizing s with
  | nil => exact List.forall₂_same.mpr fun j _ => .kept j
  | cons now times ih =>
    exact forall₂_comp (fun _ _ _ h hmore => h.append hmore) (forall₂_claimPending s limit now)
      (ih (s.claimPending limit now).2)

/-- **Enough batches claim every pending record once and leave all others alone.** -/
theorem forall₂_claimEach_of_le {limit : Nat} {times : List Timestamp} {s : Store}
    (h : s.countIn .pending ≤ times.length * limit) :
    List.Forall₂ (fun j j' => if j.status = .pending then ∃ t ∈ times, j' = j.claimed t else j' = j)
      s.jobs (claimEach limit times s).2.jobs := by
  -- nothing is pending in the end
  have hnone : (claimEach limit times s).2.pendingByAge = [] := by
    rw [pendingByAge_claimEach, List.drop_eq_nil_iff, length_pendingByAge]
    exact h
  have hcount : (claimEach limit times s).2.countIn .pending = 0 := by
    rw [← length_pendingByAge, hnone, List.length_nil]
  have hdone : ∀ j ∈ (claimEach limit times s).2.jobs, j.status ≠ .pending := by
    intro j hj hpending
    exact List.countP_eq_zero.mp hcount j hj (by simp [hpending])
  have hall := forall₂_claimEach limit times s
  refine List.forall₂_iff_zip.mpr ⟨hall.length_eq, fun {j j'} hmem => ?_⟩
  have hj' := hdone j' (List.of_mem_zip hmem).2
  cases List.forall₂_zip hall hmem with
  | kept => rw [if_neg hj']
  | claimed now ht hj =>
    rw [if_pos hj]
    exact ⟨now, ht, rfl⟩

end Store

end JobDispatch
