import JobDispatch.Proofs.Store.Course

/-!
# Counts, listings and transitions

The counts of a store are taken in a pass of their own over the records, a listing filters them, and the
operations report what they have moved.  All three agree: a count is the total of the listing of its state,
and it changes by the transitions that are reported, whatever the states are from which records are moved.

## Main definitions

* `JobStats.count`, `JobStats.inStates` — the count of a state, and all five counts together.
* `StatusChange`, `Store.reported`, `Store.history` — what operations report to have moved.
* `Store.Balanced` — two stores whose records differ by some transitions.

## Main results

* `Store.count_stats`, `Store.total_query_withStatus` — **counts and listings count the same records.**
* `Store.inStates_eq_total_iff` — all counts together are the total unless a record is retried.
* `Store.balanced_perform`, `Store.balanced_run` — **an operation, and a run of them, moves what it
  reports.**
* `Store.entering_retried_history` — no operation enters the state that is reserved.
-/

namespace JobDispatch

/-! ### Counts -/

namespace JobStats

variable {st : JobStatus}

/-- The count of a state; the state that has none counts for nothing. -/
def count (r : JobStats) : JobStatus → Nat
  | .pending => r.pending
  | .scheduled => r.scheduled
  | .running => r.running
  | .completed => r.completed
  | .failed => r.failed
  | .retried => 0

/-- All five counts together. -/
def inStates (r : JobStats) : Nat := r.pending + r.scheduled + r.running + r.completed + r.failed

theorem count_tally (r : JobStats) (st' : JobStatus) (hst : st ≠ .retried) :
    (r.tally st').count st = r.count st + if st' == st then 1 else 0 := by
  cases st <;> cases st' <;> first | rfl | exact absurd rfl hst

theorem inStates_tally (r : JobStats) (st : JobStatus) :
    (r.tally st).inStates + (if st == .retried then 1 else 0) = r.inStates + 1 := by
  cases st <;> simp [tally, inStates] <;> omega

theorem total_tally (r : JobStats) (st : JobStatus) : (r.tally st).total = r.total := by
  cases st <;> rfl

end JobStats

namespace Store

variable {s s' s'' : Store} {st : JobStatus}

/-! ### The pass over the records -/

theorem total_counted (jobs : List Job) (r : JobStats) : (counted r jobs).total = r.total := by
  induction jobs generalizing r with
  | nil => rfl
  | cons j jobs ih => exact (ih _).trans (r.total_tally j.status)

theorem count_counted (jobs : List Job) (r : JobStats) (hst : st ≠ .retried) :
    (counted r jobs).count st = r.count st + jobs.countP fun j => j.status == st := by
  -- each record is counted on top of those before it
  induction jobs generalizing r with
  | nil => rfl
  | cons j jobs ih =>
    have hrest : (counted r (j :: jobs)).count st
        = (r.tally j.status).count st + jobs.countP fun j => j.status == st := ih _
    rw [hrest, r.count_tally j.status hst, List.countP_cons]
    omega

theorem inStates_counted (jobs : List Job) (r : JobStats) :
    (counted r jobs).inStates + jobs.countP (fun j => j.status == .retried)
      = r.inStates + jobs.length := by
  induction jobs generalizing r with
  | nil => rfl
  | cons j jobs ih =>
    have hrest : (counted r (j :: jobs)).inStates + jobs.countP (fun j => j.status == .retried)
        = (r.tally j.status).inStates + jobs.length := ih _
    have hfirst := r.inStates_tally j.status
    rw [List.countP_cons, List.length_cons]
    omega

@[simp] theorem total_stats (s : Store) : s.stats.total = s.jobs.length := total_counted _ _

/-- **A count counts the records in its state.** -/
theorem count_stats (s : Store) (hst : st ≠ .retried) : s.stats.count st = s.countIn st := by
  have hpass : s.stats.count st = (counted { total := s.jobs.length } s.jobs).count st := by
    cases st <;> rfl
  have hzero : ({ total := s.jobs.length } : JobStats).count st = 0 := by cases st <;> rfl
  rw [hpass, count_counted _ _ hst, hzero, Nat.zero_add, countIn]

/-- **The records that no count counts are those that are retried.** -/
theorem inStates_stats (s : Store) : s.stats.inStates + s.countIn .retried = s.stats.total := by
  have hpass : s.stats.inStates = (counted { total := s.jobs.length } s.jobs).inStates := rfl
  have hzero : ({ total := s.jobs.length } : JobStats).inStates = 0 := rfl
  rw [hpass, countIn, inStates_counted, hzero, Nat.zero_add, total_stats]

/-! ### Listings -/

/-- **The listing of a state lists the records that are counted.** -/
theorem total_query_withStatus (s : Store) {f : JobFilter} (hstatus : f.status = some st)
    (htype : f.jobType = none) : (s.query f).total = s.countIn st := by
  rw [total_query, countIn]
  congr 1
  funext j
  simp [JobFilter.isMatch, hstatus, htype]

/-- A listing without conditions lists all records. -/
theorem total_query_all (s : Store) {f : JobFilter} (hstatus : f.status = none)
    (htype : f.jobType = none) : (s.query f).total = s.jobs.length := by
  have hall : ∀ j ∈ s.jobs, f.isMatch j = true := by
    intro j _
    simp [JobFilter.isMatch, hstatus, htype]
  rw [total_query, List.countP_eq_length.mpr hall]

end Store

/-! ### Transitions -/

/-- A record goes from one state to another; a new record comes from none. -/
structure StatusChange where
  source : Option JobStatus
  target : JobStatus
  deriving DecidableEq

/-- The transitions out of a state. -/
def StatusChange.leaving (st : JobStatus) (ts : List StatusChange) : Nat :=
  ts.countP fun t => t.source == some st

/-- The transitions into a state. -/
def StatusChange.entering (st : JobStatus) (ts : List StatusChange) : Nat :=
  ts.countP fun t => t.target == st

/-- The new records. -/
def StatusChange.new (ts : List StatusChange) : Nat := ts.countP fun t => t.source == none

namespace Store

open StatusChange (leaving entering)

variable {α : Type} {s s' s'' : Store} {st : JobStatus}

/-- The record with an id goes from its state to another. -/
def movedTo (s : Store) (id : JobId) (st : JobStatus) : List StatusChange :=
  ((s.find? id).map fun j => ⟨some j.status, st⟩).toList

/-- **What an operation reports to have moved**, by its answer: a new job that it has stored, the jobs
that it gives back as claimed, as many as it says it has reset, or the one that it was to move. -/
def reportedBy (s : Store) (call : StoreCall α) (answer : Except StoreError α) : List StatusChange :=
  match call, answer with
  | .insert _, .ok _ => [⟨none, .pending⟩]
  | .claimPending _, .ok claimed => List.replicate claimed.length ⟨some .pending, .scheduled⟩
  | .resetScheduled, .ok reset => List.replicate reset ⟨some .scheduled, .pending⟩
  | .start id, .ok _ => s.movedTo id .running
  | .complete id _, .ok _ => s.movedTo id .completed
  | .giveBack id _ _, .ok _ => s.movedTo id .pending
  | .exhaust id _ _, .ok _ => s.movedTo id .failed
  | .cancel id, .ok _ => s.movedTo id .failed
  | .load _, .ok _ => []
  | .query _, .ok _ => []
  | .stats, .ok _ => []
  | _, .error _ => []

/-- An operation that fails reports nothing. -/
theorem reportedBy_error (s : Store) (call : StoreCall α) (e : StoreError) :
    s.reportedBy call (.error e) = [] := by
  cases call <;> rfl

/-- What an operation reports, carried out at its time. -/
def reported (s : Store) (x : StoreStep) : List StatusChange :=
  s.reportedBy x.call (s.perform x.now x.fresh x.call).1

/-- **What operations report, one after the other.** -/
def history (s : Store) : List StoreStep → List StatusChange
  | [] => []
  | x :: xs => s.reported x ++ (s.after x).history xs

/-! ### Balance -/

/-- **The records of two stores differ by some transitions**: what has left a state is there no more, what
has entered it is, and what is new is there besides. -/
structure Balanced (s s' : Store) (ts : List StatusChange) : Prop where
  counts : ∀ st, s'.countIn st + leaving st ts = s.countIn st + entering st ts
  total : s'.jobs.length = s.jobs.length + StatusChange.new ts

namespace Balanced

theorem refl (s : Store) : s.Balanced s [] := ⟨fun _ => rfl, rfl⟩

/-- Transitions follow one another. -/
theorem trans {ts us : List StatusChange} (h : s.Balanced s' ts) (h' : s'.Balanced s'' us) :
    s.Balanced s'' (ts ++ us) where
  counts st := by
    have hfirst := h.counts st
    have hsecond := h'.counts st
    simp only [leaving, entering, List.countP_append] at hfirst hsecond ⊢
    omega
  total := by
    have hfirst := h.total
    have hsecond := h'.total
    simp only [StatusChange.new, List.countP_append] at hfirst hsecond ⊢
    omega

end Balanced

theorem leaving_replicate (k : Nat) (t : StatusChange) :
    leaving st (List.replicate k t) = if t.source = some st then k else 0 := by
  simp [leaving, List.countP_replicate]

theorem entering_replicate (k : Nat) (t : StatusChange) :
    entering st (List.replicate k t) = if t.target = st then k else 0 := by
  simp [entering, List.countP_replicate]

/-! ### One operation -/

/-- A new record. -/
theorem balanced_insert (s : Store) (new : NewJob) (id : JobId) (now : Timestamp) :
    s.Balanced (s.insert new id now) [⟨none, .pending⟩] where
  counts st := by
    have hstatus : (new.record id now).status = .pending := rfl
    simp [countIn, leaving, entering, List.countP_append, List.countP_singleton, hstatus]
  total := by simp [StatusChange.new]

/-- The first record goes from one state to another. -/
theorem balanced_cons (i j : Job) (jobs : List Job) :
    Balanced ⟨i :: jobs⟩ ⟨j :: jobs⟩ [⟨some i.status, j.status⟩] where
  counts st := by
    simp only [countIn, leaving, entering, List.countP_cons, List.countP_nil, beq_iff_eq,
      Option.some.injEq]
    omega
  total := by simp [StatusChange.new]

/-- A record in front of all others stays. -/
theorem Balanced.cons {jobs jobs' : List Job} {ts : List StatusChange} (h : Balanced ⟨jobs⟩ ⟨jobs'⟩ ts)
    (j : Job) : Balanced ⟨j :: jobs⟩ ⟨j :: jobs'⟩ ts where
  counts st := by
    have hrest := h.counts st
    simp only [countIn, List.countP_cons] at hrest ⊢
    omega
  total := by
    have hrest := h.total
    simp only [List.length_cons] at hrest ⊢
    omega

/-- **Some records go from one state to another.** -/
theorem exists_balanced_of_forall₂ {source target : JobStatus} {jobs jobs' : List Job}
    (h : List.Forall₂ (fun i j => j = i ∨ i.status = source ∧ j.status = target) jobs jobs') :
    ∃ k, Balanced ⟨jobs⟩ ⟨jobs'⟩ (List.replicate k ⟨some source, target⟩) := by
  induction h with
  | nil => exact ⟨0, .refl _⟩
  | @cons i j jobs jobs' hij _ ih =>
    obtain ⟨k, hrest⟩ := ih
    rcases hij with rfl | ⟨rfl, rfl⟩
    · exact ⟨k, hrest.cons j⟩
    · exact ⟨k + 1, (balanced_cons i j jobs).trans (hrest.cons j)⟩

/-- How many they are shows in the state that is left. -/
theorem balanced_of_forall₂ {source target : JobStatus} (hne : source ≠ target) {k : Nat}
    (h : List.Forall₂ (fun i j => j = i ∨ i.status = source ∧ j.status = target) s.jobs s'.jobs)
    (hk : s'.countIn source + k = s.countIn source) :
    s.Balanced s' (List.replicate k ⟨some source, target⟩) := by
  obtain ⟨n, hn⟩ : ∃ n, s.Balanced s' (List.replicate n ⟨some source, target⟩) :=
    exists_balanced_of_forall₂ h
  have hleft := hn.counts source
  rw [leaving_replicate, entering_replicate, if_pos rfl, if_neg (Ne.symm hne)] at hleft
  obtain rfl : n = k := by omega
  exact hn

/-- **A claim moves as many jobs as it gives back.** -/
theorem balanced_claimPending (s : Store) (limit : Nat) (now : Timestamp) :
    s.Balanced (s.claimPending limit now).2
      (List.replicate (s.claimPending limit now).1.length ⟨some .pending, .scheduled⟩) := by
  refine balanced_of_forall₂ (by decide) ((forall₂_claimPending s limit now).imp ?_) ?_
  · intro i j h
    cases h with
    | kept => exact .inl rfl
    | claimed _ _ hpending => exact .inr ⟨hpending, rfl⟩
  · -- the pending records that are left stand behind the ones that were claimed
    have hgiven : (s.claimPending limit now).1.length = min limit s.pendingByAge.length := by
      simp [claimPending]
    rw [← length_pendingByAge, pendingByAge_claimPending, List.length_drop, ← length_pendingByAge, hgiven]
    omega

/-- **A reset moves as many jobs as it says.** -/
theorem balanced_resetScheduled (s : Store) :
    s.Balanced s.resetScheduled.2 (List.replicate s.resetScheduled.1 ⟨some .scheduled, .pending⟩) := by
  refine balanced_of_forall₂ (by decide) ?_ ?_
  · refine List.forall₂_map_right_iff.mpr (List.forall₂_same.mpr fun i _ => ?_)
    split
    · next hi => exact .inr ⟨beq_iff_eq.mp hi, rfl⟩
    · exact .inl rfl
  · -- no record is scheduled after a reset
    have hnone : s.resetScheduled.2.countIn .scheduled = 0 := by
      refine List.countP_eq_zero.mpr fun j hj => ?_
      obtain ⟨i, -, rfl⟩ := List.mem_map.mp hj
      split <;> simp_all
    rw [hnone, Nat.zero_add]
    rfl

/-- **A change of a record moves it** from its state to the one that it has then. -/
theorem balanced_updateJobs {id : JobId} {change : Job → Except StoreError Job} {jobs jobs' : List Job}
    (h : updateJobs id change jobs = .ok jobs') :
    ∃ i j, find? ⟨jobs⟩ id = some i ∧ change i = .ok j ∧
      Balanced ⟨jobs⟩ ⟨jobs'⟩ [⟨some i.status, j.status⟩] := by
  induction jobs generalizing jobs' with
  | nil => cases h
  | cons i jobs ih =>
    by_cases hi : i.id = id
    · subst hi
      rw [updateJobs_cons_self] at h
      cases hc : change i with
      | error e => simp [hc, Except.map] at h
      | ok j =>
        rw [hc] at h
        obtain rfl := Except.ok.inj h
        exact ⟨i, j, by simp [find?], hc, balanced_cons i j jobs⟩
    · rw [updateJobs_cons_of_ne hi] at h
      cases hu : updateJobs id change jobs with
      | error e => simp [hu, Except.map] at h
      | ok rest =>
        rw [hu] at h
        obtain rfl := Except.ok.inj h
        obtain ⟨k, j, hk, hc, hrest⟩ := ih hu
        refine ⟨k, j, ?_, hc, hrest.cons i⟩
        simpa [find?, hi] using hk

/-- **A move that succeeds moves the job that it is about**, whatever its state was. -/
theorem balanced_of_ok {call : StoreCall α} {id : JobId} (hm : call.moved? = some id)
    (ht : call.target = some st) {now : Timestamp} {fresh : JobId} {a : α}
    (h : (s.perform now fresh call).1 = .ok a) :
    s.Balanced (s.perform now fresh call).2 (s.movedTo id st) := by
  obtain ⟨change, hc, -, hafter, hfailed⟩ := perform_eq_update hm s now fresh
  rw [hafter]
  cases hu : updateJobs id change s.jobs with
  | error e =>
    have hfails : s.update id change = .error e := by rw [update, hu]; rfl
    rw [(hfailed e).mpr hfails] at h
    cases h
  | ok jobs =>
    obtain ⟨i, j, hfind, hchange, hmoved⟩ := balanced_updateJobs hu
    have hstatus : st = j.status := by
      have hreaches : call.Reaches i :=
        StoreCall.reaches_of_moved? (hm.trans (congrArg some (id_of_find? hfind).symm))
      have htarget := (StoreCall.changes_transition hreaches now).status
      rw [← hc i j hchange, ht] at htarget
      exact Option.some.inj htarget
    have hmovedTo : s.movedTo id st = [⟨some i.status, j.status⟩] := by
      have hfind : s.find? id = some i := hfind
      rw [movedTo, hfind, hstatus]
      rfl
    rw [hmovedTo, update, hu]
    exact hmoved

/-- **An operation moves what it reports.** -/
theorem balanced_perform (s : Store) (now : Timestamp) (fresh : JobId) (call : StoreCall α) :
    s.Balanced (s.perform now fresh call).2 (s.reportedBy call (s.perform now fresh call).1) := by
  cases hanswer : (s.perform now fresh call).1 with
  | error e =>
    have hsame : (s.perform now fresh call).2 = s := perform_error (Prod.ext hanswer rfl)
    rw [hsame, reportedBy_error]
    exact .refl s
  | ok a =>
    cases call with
    | insert new => exact balanced_insert s new fresh now
    | load | query | stats => exact .refl s
    | claimPending limit =>
      obtain rfl := Except.ok.inj hanswer
      exact balanced_claimPending s limit now
    | resetScheduled =>
      obtain rfl := Except.ok.inj hanswer
      exact balanced_resetScheduled s
    | start | complete | giveBack | exhaust | cancel => exact balanced_of_ok rfl rfl hanswer

/-- **A run of operations moves what they report.** -/
theorem balanced_run (s : Store) (xs : List StoreStep) : s.Balanced (s.run xs) (s.history xs) := by
  induction xs generalizing s with
  | nil => exact .refl s
  | cons x xs ih => exact (balanced_perform s x.now x.fresh x.call).trans (ih (s.after x))

/-! ### The state that is reserved -/

/-- No operation makes a record one that is retried. -/
theorem target_ne_retried {call : StoreCall α} {answer : Except StoreError α} {t : StatusChange}
    (h : t ∈ s.reportedBy call answer) : t.target ≠ .retried := by
  have hmoved : ∀ {id : JobId} {st : JobStatus}, t ∈ s.movedTo id st → t.target = st := by
    intro id st hmem
    obtain ⟨j, -, rfl⟩ := Option.map_eq_some_iff.mp (Option.mem_toList.mp hmem)
    rfl
  cases answer with
  | error e =>
    rw [reportedBy_error] at h
    cases h
  | ok a =>
    cases call with
    | insert new =>
      rw [List.mem_singleton.mp h]
      decide
    | claimPending | resetScheduled =>
      rw [List.eq_of_mem_replicate h]
      decide
    | start | complete | giveBack | exhaust | cancel =>
      rw [hmoved h]
      decide
    | load | query | stats => cases h

/-- **No run of operations enters the state that is reserved.** -/
theorem entering_retried_history (s : Store) (xs : List StoreStep) :
    entering .retried (s.history xs) = 0 := by
  induction xs generalizing s with
  | nil => rfl
  | cons x xs ih =>
    have hfirst : entering .retried (s.reported x) = 0 :=
      List.countP_eq_zero.mpr fun t ht => by simpa using target_ne_retried ht
    have hrest := ih (s.after x)
    simp only [entering, history, List.countP_append] at hfirst hrest ⊢
    omega

/-- Where no record is retried, none will be. -/
theorem countIn_retried_run (h : s.countIn .retried = 0) (xs : List StoreStep) :
    (s.run xs).countIn .retried = 0 := by
  have hcounts := (balanced_run s xs).counts .retried
  rw [entering_retried_history] at hcounts
  omega

/-- All counts together are the total unless a record is retried. -/
theorem inStates_eq_total_iff (s : Store) :
    s.stats.inStates = s.stats.total ↔ ∀ j ∈ s.jobs, j.status ≠ .retried := by
  have hall := s.inStates_stats
  have hnone : s.countIn .retried = 0 ↔ ∀ j ∈ s.jobs, j.status ≠ .retried := by
    rw [countIn, List.countP_eq_zero]
    simp only [beq_iff_eq, ne_eq]
  rw [← hnone]
  omega

end Store

end JobDispatch
