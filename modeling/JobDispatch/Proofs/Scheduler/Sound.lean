import Mathlib.Data.List.Perm.Basic
import JobDispatch.Proofs.Scheduler.Effect

/-!
# Keeping accounts

Nothing but the record tells an execution that it may write to it, and the writes that end an attempt
do not even look at the state of the job.  What makes them right is an account that every step keeps
balanced: as many executions hold a job as its record is running, as many have failed as its record
counts, and as many have succeeded as it is completed.  Since a record is running at most once, at most
one execution holds a job.

## Main definitions

* `Ledger` — what the record of a job accounts for.
* `Scheduler.Accounts` — executions and records agree about one kind of account.
* `Job.WithinBudget` — no attempt too many has failed.
* `Scheduler.Sound` — **the invariant**: ids are distinct, what executions know is true, and all
  accounts are balanced.

## Main results

* `Scheduler.Accounts.step` — a kind of account that each execution keeps balanced by itself stays
  balanced.
* `Scheduler.Sound.holder_unique` — no two executions hold the same job.
* `Scheduler.Sound.step`, `Scheduler.sound_run` — every step and every run keeps the invariant.
-/

namespace JobDispatch

/-! ### The budget of a job -/

/-- Each failure but the last leaves room for another attempt. -/
structure Job.WithinBudget (j : Job) : Prop where
  limit : j.maxRetries.toNat ≤ 10
  failures : j.retryCount.toNat ≤ j.maxRetries.toNat + 1
  last : j.retryCount.toNat = j.maxRetries.toNat + 1 → j.status = .failed
  used : j.status ≠ .retried

namespace RetryDecision

theorem countedUp_toNat {c : UInt16} (h : c.toNat < 65535) : (countedUp c).toNat = c.toNat + 1 := by
  have hne : c ≠ 65535 := by
    rintro rfl
    exact absurd h (by decide)
  rw [countedUp, if_neg hne, UInt16.toNat_add]
  simp only [UInt16.reduceToNat]
  omega

/-- A retry counts one more failure, within the limit. -/
theorem of_decide_retry {c limit n max : UInt16} (hc : c.toNat < 65535)
    (h : decide c limit = .retry n max) :
    n.toNat = c.toNat + 1 ∧ n.toNat ≤ limit.toNat ∧ max = limit := by
  unfold decide at h
  split at h
  · next hle =>
    obtain ⟨rfl, rfl⟩ := RetryDecision.retry.inj h
    exact ⟨countedUp_toNat hc, UInt16.le_iff_toNat_le.mp hle, rfl⟩
  · exact absurd h (by simp)

/-- A dead letter counts one more failure, beyond the limit. -/
theorem of_decide_deadLetter {c limit n : UInt16} (hc : c.toNat < 65535)
    (h : decide c limit = .deadLetter n) : n.toNat = c.toNat + 1 ∧ limit.toNat < n.toNat := by
  unfold decide at h
  split at h
  · exact absurd h (by simp)
  · next hle =>
    obtain rfl := RetryDecision.deadLetter.inj h
    rw [UInt16.le_iff_toNat_le] at hle
    exact ⟨countedUp_toNat hc, by omega⟩

end RetryDecision

namespace Job.WithinBudget

variable {j : Job}

/-- There is always room to count one more failure. -/
theorem room (h : j.WithinBudget) : j.retryCount.toNat < 65535 := by
  have hlimit := h.limit
  have hfailures := h.failures
  omega

/-- A job that is still running has retries left or none, but has not used up more. -/
theorem le_of_not_failed (h : j.WithinBudget) (hj : j.status ≠ .failed) :
    j.retryCount.toNat ≤ j.maxRetries.toNat := by
  have hfailures := h.failures
  by_cases hlast : j.retryCount.toNat = j.maxRetries.toNat + 1
  · exact absurd (h.last hlast) hj
  · omega

/-- A job that keeps its counts and does not come back to life stays within its budget. -/
theorem of_counts {i : Job} (h : j.WithinBudget) (hr : i.request = j.request)
    (hc : i.retryCount = j.retryCount) (hj : j.status ≠ .failed) (hu : i.status ≠ .retried) :
    i.WithinBudget := by
  have hmax := Job.maxRetries_eq_of_request_eq hr
  have hle := h.le_of_not_failed hj
  exact ⟨hmax ▸ h.limit, by rw [hc, hmax]; omega, by rw [hc, hmax]; omega, hu⟩

/-- A valid submission is within its budget. -/
theorem record {new : NewJob} (hv : new.problem? = none) (id : JobId) (now : Timestamp) :
    (new.record id now).WithinBudget := by
  obtain ⟨-, -, -, -, hmax, -⟩ := (NewJob.problem?_eq_none_iff new).mp hv
  have hmax : new.maxRetries.toNat ≤ 10 := UInt16.le_iff_toNat_le.mp hmax
  exact ⟨hmax, Nat.zero_le _, fun h => absurd h (by simp [NewJob.record]), by simp [NewJob.record]⟩

/-- A failure that leaves a retry. -/
theorem returned (h : j.WithinBudget) {n max : UInt16}
    (hd : RetryDecision.decide j.retryCount j.maxRetries = .retry n max) (error : String) :
    (j.returned n error).WithinBudget := by
  obtain ⟨-, hle, -⟩ := RetryDecision.of_decide_retry h.room hd
  refine ⟨h.limit, ?_, ?_, by simp⟩
  · show n.toNat ≤ j.maxRetries.toNat + 1
    omega
  · intro hlast
    have hlast : n.toNat = j.maxRetries.toNat + 1 := hlast
    omega

/-- The failure that uses up the retries of a running job is the one after the last retry. -/
theorem last_failure (h : j.WithinBudget) (hj : j.status = .running) {n : UInt16}
    (hd : RetryDecision.decide j.retryCount j.maxRetries = .deadLetter n) :
    n.toNat = j.maxRetries.toNat + 1 := by
  obtain ⟨hn, hlt⟩ := RetryDecision.of_decide_deadLetter h.room hd
  have hle := h.le_of_not_failed (by simp [hj])
  omega

theorem exhausted (h : j.WithinBudget) (hj : j.status = .running) {n : UInt16}
    (hd : RetryDecision.decide j.retryCount j.maxRetries = .deadLetter n) (error : String)
    (now : Timestamp) : (j.exhausted n error now).WithinBudget := by
  have hn := h.last_failure hj hd
  refine ⟨h.limit, ?_, fun _ => rfl, by simp⟩
  show n.toNat ≤ j.maxRetries.toNat + 1
  omega

end Job.WithinBudget

/-! ### Accounts -/

/-- What the record of a job accounts for. -/
abbrev Ledger := Option Job → Nat

namespace Ledger

/-- One for a running job. -/
def running : Ledger
  | none => 0
  | some j => (decide (j.status = .running)).toNat

/-- The failed attempts. -/
def failures : Ledger
  | none => 0
  | some j => j.retryCount.toNat

/-- One for a completed job. -/
def results : Ledger
  | none => 0
  | some j => (decide (j.status = .completed)).toNat

/-- An account that only executions change. -/
structure Neutral (val : Ledger) : Prop where
  none : val none = 0
  stored : ∀ (new : NewJob) (id : JobId) (now : Timestamp), val (some (new.record id now)) = 0
  claimed : ∀ (j : Job) (now : Timestamp), j.status = .pending →
    val (some (j.claimed now)) = val (some j)
  reset : ∀ j : Job, j.status = .scheduled → val (some j.unclaimed) = val (some j)
  cancelled : ∀ (j : Job) (now : Timestamp), j.status.isCancellable = true →
    val (some (j.cancelled now)) = val (some j)

theorem neutral_running : Neutral running where
  none := rfl
  stored := fun _ _ _ => rfl
  claimed := fun j now h => by simp [running, h]
  reset := fun j h => by simp [running, h]
  cancelled := fun j now h => by
    have hne : j.status ≠ .running := by
      intro hr
      simp [hr, JobStatus.isCancellable] at h
    simp [running, hne]

theorem neutral_failures : Neutral failures where
  none := rfl
  stored := fun _ _ _ => rfl
  claimed := fun _ _ _ => rfl
  reset := fun _ _ => rfl
  cancelled := fun _ _ _ => rfl

theorem neutral_results : Neutral results where
  none := rfl
  stored := fun _ _ _ => rfl
  claimed := fun j now h => by simp [results, h]
  reset := fun j h => by simp [results, h]
  cancelled := fun j now h => by
    have hne : j.status ≠ .completed := by
      intro hr
      simp [hr, JobStatus.isCancellable] at h
    simp [results, hne]

end Ledger

namespace Execution

/-- A kind of account that every step of an execution keeps balanced: what is added to the record is
added to the execution, and what is taken from one is taken from the other. -/
def Balances (p : Execution → Bool) (val : Ledger) : Prop :=
  ∀ {now : Timestamp} {handlers : List String} {r r' : Option Job} {x x' : Execution},
    Advance now handlers r x r' x' → (∀ j, r = some j → j.WithinBudget) →
      (p x').toNat + val r = (p x).toNat + val r'

theorem engaged_eq_false {p : Execution → Bool} (hw : ∀ job, p (working job) = false)
    (hl : ∀ e id error, p (recovering e (.loading id error)) = false) (handlers : List String)
    (job : Job) : p (engaged handlers job) = false := by
  unfold engaged
  split
  · exact hw job
  · exact hl _ _ _

/-- Executions that hold a job account for running jobs. -/
theorem balances_holds : Balances holds Ledger.running := by
  intro now handlers r r' x x' h hb
  cases h with
  | started job j hj =>
    -- the one step that adds a holder sets the job running
    rw [holds_engaged]
    simp [Ledger.running, holds, hj]
  | ready id j hj => simp [holds]
  | resting x hr => rfl
  | _ => simp_all [Ledger.running, holds]

/-- Executions that have failed account for failures. -/
theorem balances_hasFailed : Balances hasFailed Ledger.failures := by
  intro now handlers r r' x x' h hb
  cases h with
  | started job j hj =>
    have hx := engaged_eq_false (p := hasFailed) (fun _ => rfl) (fun _ _ _ => rfl) handlers job
    rw [hx]
    rfl
  | returned e id error j n max hj hd =>
    obtain ⟨hn, -, -⟩ := RetryDecision.of_decide_retry (hb j rfl).room hd
    have hval : Ledger.failures (some (j.returned n error)) = n.toNat := rfl
    rw [hval, hn]
    simp [Ledger.failures, hasFailed]
    omega
  | exhausted e job error j n hj hd =>
    obtain ⟨hn, -⟩ := RetryDecision.of_decide_deadLetter (hb j rfl).room hd
    have hval : Ledger.failures (some (j.exhausted n error now)) = n.toNat := rfl
    rw [hval, hn]
    simp [Ledger.failures, hasFailed]
    omega
  | resting x hr => rfl
  | _ => rfl

/-- Executions that have succeeded account for results. -/
theorem balances_hasSucceeded : Balances hasSucceeded Ledger.results := by
  intro now handlers r r' x x' h hb
  cases h with
  | started job j hj =>
    have hx := engaged_eq_false (p := hasSucceeded) (fun _ => rfl) (fun _ _ _ => rfl) handlers job
    rw [hx]
    simp [Ledger.results, hasSucceeded, hj]
  | resting x hr => rfl
  | _ => simp_all [Ledger.results, hasSucceeded]

/-- A step changes the record only while the job waits for an execution, which it then starts, or while
the execution holds the job. -/
theorem Advance.eq_or {now : Timestamp} {handlers : List String} {j j' : Job} {x x' : Execution}
    (h : Advance now handlers (some j) x (some j') x') :
    j' = j ∨ (j.status = .scheduled ∧ j' = j.started now) ∨
      (j.status = .running ∧ x.holds = true) := by
  cases h with
  | started job _ hj => exact Or.inr (Or.inl ⟨hj, rfl⟩)
  | completed id result elapsed _ hj => exact Or.inr (Or.inr ⟨hj, rfl⟩)
  | returned e id error _ n max hj hd => exact Or.inr (Or.inr ⟨hj, rfl⟩)
  | exhausted e job error _ n hj hd => exact Or.inr (Or.inr ⟨hj, rfl⟩)
  | _ => exact Or.inl rfl

/-- No step changes what a job was made from. -/
theorem Advance.request_eq {now : Timestamp} {handlers : List String} {j j' : Job} {x x' : Execution}
    (h : Advance now handlers (some j) x (some j') x') : j'.request = j.request := by
  cases h <;> rfl

/-- A step keeps a record within its budget. -/
theorem Advance.withinBudget {now : Timestamp} {handlers : List String} {j j' : Job}
    {x x' : Execution} (h : Advance now handlers (some j) x (some j') x') (hj : j.WithinBudget) :
    j'.WithinBudget := by
  cases h with
  | started job _ hs => exact hj.of_counts rfl rfl (by simp [hs]) (by simp)
  | completed id result elapsed _ hs => exact hj.of_counts rfl rfl (by simp [hs]) (by simp)
  | returned e id error _ n max hs hd => exact hj.returned hd error
  | exhausted e job error _ n hs hd => exact hj.exhausted hs hd error now
  | _ => exact hj

end Execution

namespace Scheduler

variable {s : Scheduler} {e : Event} {p : Execution → Bool} {val : Ledger}

/-! ### Changes of a record -/

/-- No step changes what a job was made from. -/
theorem Change.request_eq {id : JobId} {j j' : Job} (h : Change s e id j j') :
    j'.request = j.request := by
  cases h with
  | executed k d x _ _ hm hd hid ha => exact ha.request_eq
  | _ => rfl

/-- A step keeps a record within its budget. -/
theorem Change.withinBudget {id : JobId} {j j' : Job} (h : Change s e id j j') (hj : j.WithinBudget) :
    j'.WithinBudget := by
  cases h with
  | kept => exact hj
  | claimed i l _ hm hl hp hs => exact hj.of_counts rfl rfl (by simp [hs]) (by simp)
  | reset i _ hm hr hs => exact hj.of_counts rfl rfl (by simp [hs]) (by simp)
  | cancelled i _ hm hc hs =>
    refine hj.of_counts rfl rfl ?_ (by simp)
    intro hf
    simp [hf, JobStatus.isCancellable] at hs
  | executed k d x _ _ hm hd hid ha => exact ha.withinBudget hj

/-- Where no execution takes a step, an account that only executions change is as it was. -/
theorem Change.val_eq (hv : val.Neutral) {id : JobId} {j j' : Job} (h : Change s e id j j')
    (he : ∀ k, e.move ≠ .execute k) : val (some j') = val (some j) := by
  cases h with
  | kept => rfl
  | claimed i l _ hm hl hp hs => exact hv.claimed j _ hs
  | reset i _ hm hr hs => exact hv.reset j hs
  | cancelled i _ hm hc hs => exact hv.cancelled j _ hs
  | executed k d x _ _ hm hd hid ha => exact absurd hm (he k)

/-- Where no execution takes a step, a running record and one whose job has ended are as they were. -/
theorem Change.eq_of_settled {id : JobId} {j j' : Job} (h : Change s e id j j')
    (he : ∀ k, e.move ≠ .execute k) (hj : j.status ≠ .pending ∧ j.status ≠ .scheduled) : j' = j := by
  cases h with
  | kept => rfl
  | claimed i l _ hm hl hp hs => exact absurd hs hj.1
  | reset i _ hm hr hs => exact absurd hs hj.2
  | cancelled i _ hm hc hs =>
    cases hst : j.status <;> simp_all [JobStatus.isCancellable]
  | executed k d x _ _ hm hd hid ha => exact absurd hm (he k)

/-- **The record of a job whose life has ended is as it was.** -/
theorem Change.eq_of_terminal {id : JobId} {j j' : Job} (h : Change s e id j j')
    (hj : j.status.isTerminal = true) : j' = j := by
  cases h with
  | kept => rfl
  | claimed i l _ hm hl hp hs => simp [hs, JobStatus.isTerminal] at hj
  | reset i _ hm hr hs => simp [hs, JobStatus.isTerminal] at hj
  | cancelled i _ hm hc hs =>
    rw [JobStatus.not_isCancellable_of_isTerminal hj] at hs
    exact absurd hs (by simp)
  | executed k d x _ _ hm hd hid ha =>
    rcases ha.eq_or with heq | ⟨hs, -⟩ | ⟨hs, -⟩
    · exact heq
    · simp [hs, JobStatus.isTerminal] at hj
    · simp [hs, JobStatus.isTerminal] at hj

/-! ### Counting executions -/

/-- One execution goes on; the others stay. -/
theorem count_advanced {s' : Scheduler} {k : Nat} {d : Delivery} {x : Execution}
    (hd : s.deliveries[k]? = some d) (hs' : s'.deliveries = s.deliveries.set k (d.advanced x))
    (p : Execution → Bool) :
    s'.count d.job p + (p d.execution).toNat = s.count d.job p + (p x).toNat := by
  obtain ⟨hk, rfl⟩ := List.getElem?_eq_some_iff.mp hd
  have hle := List.boole_getElem_le_countP
    (p := fun d' : Delivery => decide (d'.job = s.deliveries[k].job) && p d'.execution) hk
  simp only [decide_true, Bool.true_and] at hle
  simp only [count, hs', List.countP_set hk, Delivery.job_advanced, Delivery.execution_advanced,
    decide_true, Bool.true_and]
  cases hx : p s.deliveries[k].execution <;> cases p x <;> simp_all

/-- An execution of another job does not count. -/
theorem count_advanced_of_ne {s' : Scheduler} {k : Nat} {d : Delivery} {x : Execution}
    (hd : s.deliveries[k]? = some d) (hs' : s'.deliveries = s.deliveries.set k (d.advanced x))
    {id : JobId} (hid : d.job ≠ id) (p : Execution → Bool) : s'.count id p = s.count id p := by
  obtain ⟨hk, rfl⟩ := List.getElem?_eq_some_iff.mp hd
  simp only [count, hs', List.countP_set hk, Delivery.job_advanced, hid, decide_false, Bool.false_and,
    Bool.false_eq_true, if_false, Nat.sub_zero, Nat.add_zero]

/-- An execution that begins does not count. -/
theorem count_hand (hp : ∀ id, p (.loading id) = false) (handlers : List String) (t : Ticket)
    (id : JobId) : (s.hand handlers t).count id p = s.count id p := by
  simp [count, hand, List.countP_append, hp]

/-- Where one point includes another, more executions are at it. -/
theorem count_mono (s : Scheduler) (id : JobId) {p q : Execution → Bool}
    (h : ∀ x, p x = true → q x = true) : s.count id p ≤ s.count id q := by
  refine List.countP_mono_left fun d _ hd => ?_
  rw [Bool.and_eq_true] at hd ⊢
  exact ⟨hd.1, h d.execution hd.2⟩

/-- If at most one execution is at a certain point, there are not two. -/
theorem eq_of_count_le_one {id : JobId} (h : s.count id p ≤ 1) {i k : Nat} {c d : Delivery}
    (hc : s.deliveries[i]? = some c) (hd : s.deliveries[k]? = some d) (hcj : c.job = id)
    (hdj : d.job = id) (hcp : p c.execution = true) (hdp : p d.execution = true) : i = k := by
  obtain ⟨hk, rfl⟩ := List.getElem?_eq_some_iff.mp hd
  by_cases hik : k = i
  · exact hik.symm
  · -- with one of the two taken away the other still counts
    exfalso
    let q : Delivery → Bool := fun d' => decide (d'.job = id) && p d'.execution
    have hqc : q c = true := by simp [q, hcj, hcp]
    have hqd : q s.deliveries[k] = true := by simp [q, hdj, hdp]
    have hrest : 0 < (s.deliveries.eraseIdx k).countP q := by
      refine List.countP_pos_iff.mpr ⟨c, ?_, hqc⟩
      exact List.mem_eraseIdx_iff_getElem?.mpr ⟨i, Ne.symm hik, hc⟩
    have hall : s.deliveries.countP q = (s.deliveries.eraseIdx k).countP q + 1 := by
      have hperm := (List.getElem_cons_eraseIdx_perm hk).countP_eq q
      rw [List.countP_cons_of_pos hqd] at hperm
      exact hperm.symm
    have h : s.deliveries.countP q ≤ 1 := h
    omega

/-! ### The invariant -/

/-- Executions and records agree about one kind of account. -/
def Accounts (s : Scheduler) (p : Execution → Bool) (val : Ledger) : Prop :=
  ∀ id, s.count id p = val (s.record? id)

/-- Every record is within its budget. -/
def Frugal (s : Scheduler) : Prop := ∀ id j, s.record? id = some j → j.WithinBudget

/-- **The invariant.** -/
structure Sound (s : Scheduler) : Prop where
  distinct : s.shared.store.Distinct
  fitting : s.Fitting
  frugal : s.Frugal
  holders : s.Accounts Execution.holds Ledger.running
  failures : s.Accounts Execution.hasFailed Ledger.failures
  results : s.Accounts Execution.hasSucceeded Ledger.results

/-! ### Steps of executions, and others -/

/-- The step of an execution that exists. -/
theorem step_of_execute {k : Nat} {d : Delivery} (hm : e.move = .execute k)
    (hd : s.deliveries[k]? = some d) :
    s.step e = { s with
      deliveries := s.deliveries.set k
        (d.advanced (d.execution.step e.moment.services d.handlers s.shared).1),
      shared := (d.execution.step e.moment.services d.handlers s.shared).2 } := by
  simp only [step, hm, execute, hd]

theorem deliveries_step_of_execute {k : Nat} {d : Delivery} (hm : e.move = .execute k)
    (hd : s.deliveries[k]? = some d) :
    (s.step e).deliveries = s.deliveries.set k
      (d.advanced (d.execution.step e.moment.services d.handlers s.shared).1) := by
  rw [step_of_execute hm hd]

/-- The record of a job after a step of an execution. -/
theorem record?_step_of_execute {k : Nat} {d : Delivery} (hm : e.move = .execute k)
    (hd : s.deliveries[k]? = some d) (id : JobId) : (s.step e).record? id
      = (d.execution.step e.moment.services d.handlers s.shared).2.store.find? id := by
  rw [step_of_execute hm hd]
  rfl

/-- The step of an execution that does not exist. -/
theorem step_of_execute_none {k : Nat} (hm : e.move = .execute k) (hd : s.deliveries[k]? = none) :
    s.step e = s := by
  simp only [step, hm, execute, hd]

/-- A step is that of an execution that exists, that of one that does not, or that of another party. -/
theorem execute_or (s : Scheduler) (e : Event) :
    (∃ k d, e.move = .execute k ∧ s.deliveries[k]? = some d) ∨
      (∃ k, e.move = .execute k ∧ s.deliveries[k]? = none) ∨ ∀ k, e.move ≠ .execute k := by
  by_cases he : ∃ k, e.move = .execute k
  · obtain ⟨k, hm⟩ := he
    cases hd : s.deliveries[k]? with
    | none => exact Or.inr (Or.inl ⟨k, hm, hd⟩)
    | some d => exact Or.inl ⟨k, d, hm, hd⟩
  · exact Or.inr (Or.inr fun k hm => he ⟨k, hm⟩)

/-- Where no execution takes a step, one may begin, or the handler of one may end. -/
theorem deliveries_step (hs : s.shared.store.Distinct) (he : ∀ k, e.move ≠ .execute k) :
    (s.step e).deliveries = s.deliveries ∨
      (∃ handlers t, (s.step e).deliveries = (s.hand handlers t).deliveries) ∨
      ∃ k d outcome elapsed, e.move = .conclude k outcome elapsed ∧ s.deliveries[k]? = some d ∧
        (s.step e).deliveries
          = s.deliveries.set k (d.advanced (d.execution.resume outcome elapsed)) := by
  have h := step_effect s e hs
  generalize s.step e = s' at h
  cases h with
  | taken handlers message rest t hr ht => exact Or.inr (Or.inl ⟨handlers, t, rfl⟩)
  | handed handlers t => exact Or.inr (Or.inl ⟨handlers, t, rfl⟩)
  | concluded k d outcome elapsed hm hd => exact Or.inr (Or.inr ⟨k, d, outcome, elapsed, hm, hd, rfl⟩)
  | executed k d hm hd => exact absurd hm (he k)
  | _ => exact Or.inl rfl

/-- A point at which no execution begins, and which is not left or reached by the end of a handler. -/
structure Passive (p : Execution → Bool) : Prop where
  loading : ∀ id, p (.loading id) = false
  resume : ∀ (x : Execution) (outcome : HandlerOutcome) (elapsed : Span),
    p (x.resume outcome elapsed) = p x

theorem passive_holds : Passive Execution.holds where
  loading := fun _ => rfl
  resume := fun x outcome elapsed => by cases x <;> cases outcome <;> rfl

theorem passive_hasFailed : Passive Execution.hasFailed where
  loading := fun _ => rfl
  resume := fun x outcome elapsed => by cases x <;> cases outcome <;> rfl

theorem passive_hasSucceeded : Passive Execution.hasSucceeded where
  loading := fun _ => rfl
  resume := fun x outcome elapsed => by cases x <;> cases outcome <;> rfl

/-- Only the executions count. -/
theorem count_congr {s' : Scheduler} (h : s'.deliveries = s.deliveries) (id : JobId)
    (p : Execution → Bool) : s'.count id p = s.count id p := by
  rw [count, h, count]

/-- Where no execution takes a step, the numbers stay. -/
theorem count_step_of_others (hp : Passive p) (hs : s.shared.store.Distinct)
    (he : ∀ k, e.move ≠ .execute k) (id : JobId) : (s.step e).count id p = s.count id p := by
  rcases deliveries_step hs he with h | ⟨handlers, t, h⟩ | ⟨k, d, outcome, elapsed, -, hd, h⟩
  · exact count_congr h id p
  · rw [count_congr h, count_hand hp.loading]
  · by_cases hid : d.job = id
    · subst hid
      have hcount := count_advanced hd h p
      rw [hp.resume] at hcount
      omega
    · exact count_advanced_of_ne hd h hid p

/-- Where no execution takes a step, an account that only executions change stays. -/
theorem val_step_of_others (hv : val.Neutral) (hs : s.shared.store.Distinct) (hf : s.Fitting)
    (ha : e.StoreAnswers) (he : ∀ k, e.move ≠ .execute k) (id : JobId) :
    val ((s.step e).record? id) = val (s.record? id) := by
  cases hj : s.record? id with
  | none =>
    rcases record?_step_of_none hs hf ha hj with hn | ⟨new, -, hn⟩
    · rw [hn]
    · rw [hn, hv.stored, hv.none]
  | some j =>
    obtain ⟨j', hj', hchange⟩ := record?_step hs hf ha hj
    rw [hj', hchange.val_eq hv he]

/-- **A kind of account that each execution keeps balanced by itself stays balanced.** -/
theorem Accounts.step (h : s.Accounts p val) (hb : Execution.Balances p val) (hv : val.Neutral)
    (hp : Passive p) (hs : s.shared.store.Distinct) (hf : s.Fitting) (hg : s.Frugal)
    (ha : e.StoreAnswers) : (s.step e).Accounts p val := by
  intro id
  rcases execute_or s e with ⟨k, d, hm, hd⟩ | ⟨k, hm, hd⟩ | he
  · have hset := deliveries_step_of_execute hm hd
    rw [record?_step_of_execute hm hd]
    by_cases hid : d.job = id
    · subst hid
      -- what the execution gains or loses its job gains or loses
      have hcount := count_advanced hd hset p
      have hbalance := hb (hf.advance hs ha hd) (hg d.job)
      have hbefore := h d.job
      omega
    · rw [count_advanced_of_ne hd hset hid, Execution.find?_step_of_ne hs (hf.of_getElem? hd) d.handlers
        (Ne.symm hid)]
      exact h id
  · rw [step_of_execute_none hm hd]
    exact h id
  · rw [count_step_of_others hp hs he, h id, val_step_of_others hv hs hf ha he]

/-! ### Every step keeps the invariant -/

/-- Where no execution takes a step, what one knows stays true. -/
theorem fits_step_of_others (hs : s.shared.store.Distinct) (hf : s.Fitting) (ha : e.StoreAnswers)
    (he : ∀ k, e.move ≠ .execute k) {id : JobId} {x : Execution} (hx : x.Fits id (s.record? id)) :
    x.Fits id ((s.step e).record? id) := by
  cases hj : s.record? id with
  | none =>
    rw [hj] at hx
    exact hx.of_none _
  | some j =>
    obtain ⟨j', hj', hchange⟩ := record?_step hs hf ha hj
    rw [hj] at hx
    rw [hj']
    -- nobody else changes a record that is running or failed
    refine hx.of_kept hchange.request_eq ?_ ?_
    · intro hholds
      obtain ⟨i, hi, hrun⟩ := hx.running hholds
      obtain rfl := Option.some.inj hi
      exact hchange.eq_of_settled he (by simp [hrun])
    · intro hfailed
      exact hchange.eq_of_settled he (by simp [hfailed])

namespace Sound

/-- **No two executions hold the same job.** -/
theorem holder_unique (h : s.Sound) {i k : Nat} {c d : Delivery} (hc : s.deliveries[i]? = some c)
    (hd : s.deliveries[k]? = some d) (hj : c.job = d.job) (hch : c.execution.holds = true)
    (hdh : d.execution.holds = true) : i = k := by
  have hle : s.count d.job Execution.holds ≤ 1 := by
    rw [h.holders]
    unfold Ledger.running
    split
    · omega
    · exact Bool.toNat_le _
  exact eq_of_count_le_one hle hc hd hj rfl hch hdh

/-- A step of one execution leaves what another knows true. -/
theorem fits_step_of_execute (h : s.Sound) (ha : e.StoreAnswers) {i k : Nat} {c d : Delivery}
    (hd : s.deliveries[k]? = some d) (hc : s.deliveries[i]? = some c) (hik : i ≠ k) :
    c.execution.Fits c.job
      ((d.execution.step e.moment.services d.handlers s.shared).2.store.find? c.job) := by
  have hfits := h.fitting.of_getElem? hc
  by_cases hid : c.job = d.job
  · have hadv := h.fitting.advance h.distinct ha hd
    rw [hid] at hfits ⊢
    cases hj : s.record? d.job with
    | none =>
      rw [hj] at hfits
      exact hfits.of_none _
    | some j =>
      rw [hj] at hfits hadv
      obtain ⟨j', hj'⟩ := hadv.exists_of_some
      rw [hj'] at hadv ⊢
      refine hfits.of_kept hadv.request_eq ?_ ?_
      · -- the one that holds the job is not the one that takes the step
        intro hholds
        obtain ⟨i', hi', hrun⟩ := hfits.running hholds
        obtain rfl := Option.some.inj hi'
        rcases hadv.eq_or with heq | ⟨hst, -⟩ | ⟨-, hdh⟩
        · exact heq
        · exact absurd (hrun.symm.trans hst) (by simp)
        · exact absurd (h.holder_unique hc hd hid hholds hdh) hik
      · intro hfailed
        rcases hadv.eq_or with heq | ⟨hst, -⟩ | ⟨hst, -⟩
        · exact heq
        · exact absurd (hfailed.symm.trans hst) (by simp)
        · exact absurd (hfailed.symm.trans hst) (by simp)
  · rw [Execution.find?_step_of_ne h.distinct (h.fitting.of_getElem? hd) d.handlers hid]
    exact hfits

/-- What executions know stays true. -/
theorem fitting_step (h : s.Sound) (ha : e.StoreAnswers) : (s.step e).Fitting := by
  intro c hc
  rcases execute_or s e with ⟨k, d, hm, hd⟩ | ⟨k, hm, hd⟩ | he
  · rw [step_of_execute hm hd] at hc ⊢
    obtain ⟨i, hi⟩ := List.mem_iff_getElem?.mp hc
    rw [List.getElem?_set] at hi
    split at hi
    · -- the execution that takes the step
      split at hi
      · obtain rfl := Option.some.inj hi
        exact (h.fitting.advance h.distinct ha hd).fits (fun j hj => Store.id_of_find? hj)
          (h.fitting.of_getElem? hd)
      · exact absurd hi (by simp)
    · -- an execution that looks on
      next hik => exact h.fits_step_of_execute ha hd hi (Ne.symm hik)
  · rw [step_of_execute_none hm hd] at hc ⊢
    exact h.fitting c hc
  · rcases deliveries_step h.distinct he with hkept | ⟨handlers, t, hnew⟩ |
      ⟨k, d, outcome, elapsed, -, hd, hended⟩
    · rw [hkept] at hc
      exact fits_step_of_others h.distinct h.fitting ha he (h.fitting c hc)
    · rw [hnew, hand, List.mem_append, List.mem_singleton] at hc
      rcases hc with hc | rfl
      · exact fits_step_of_others h.distinct h.fitting ha he (h.fitting c hc)
      · rfl
    · rw [hended] at hc
      rcases List.mem_or_eq_of_mem_set hc with hc | rfl
      · exact fits_step_of_others h.distinct h.fitting ha he (h.fitting c hc)
      · exact fits_step_of_others h.distinct h.fitting ha he
          ((h.fitting.of_getElem? hd).resume outcome elapsed)

/-- Every record stays within its budget. -/
theorem frugal_step (h : s.Sound) (ha : e.StoreAnswers) : (s.step e).Frugal := by
  intro id j' hj'
  cases hj : s.record? id with
  | none =>
    rcases record?_step_of_none h.distinct h.fitting ha hj with hn | ⟨new, hv, hn⟩
    · exact absurd (hj'.symm.trans hn) (by simp)
    · obtain rfl := Option.some.inj (hj'.symm.trans hn)
      exact Job.WithinBudget.record hv id _
  | some j =>
    obtain ⟨i, hi, hchange⟩ := record?_step h.distinct h.fitting ha hj
    obtain rfl := Option.some.inj (hj'.symm.trans hi)
    exact hchange.withinBudget (h.frugal id j hj)

/-- **Every step keeps the invariant.** -/
theorem step (h : s.Sound) (ha : e.StoreAnswers) : (s.step e).Sound where
  distinct := distinct_step h.distinct h.fitting ha
  fitting := h.fitting_step ha
  frugal := h.frugal_step ha
  holders := h.holders.step Execution.balances_holds Ledger.neutral_running passive_holds h.distinct
    h.fitting h.frugal ha
  failures := h.failures.step Execution.balances_hasFailed Ledger.neutral_failures passive_hasFailed
    h.distinct h.fitting h.frugal ha
  results := h.results.step Execution.balances_hasSucceeded Ledger.neutral_results
    passive_hasSucceeded h.distinct h.fitting h.frugal ha

end Sound

/-- At the start there is nothing to account for. -/
theorem sound_start (engines : List Engine) : (start engines).Sound where
  distinct := List.nodup_nil
  fitting := fun _ hd => absurd hd List.not_mem_nil
  frugal := fun _ _ hj => absurd hj (by simp [record?, Store.find?, start])
  holders := fun _ => rfl
  failures := fun _ => rfl
  results := fun _ => rfl

/-- Every run from a state with the invariant keeps it. -/
theorem Sound.run (h : s.Sound) {es : List Event} (hes : ∀ e ∈ es, e.StoreAnswers) :
    (s.run es).Sound :=
  run_induction h hes fun _ _ ha h => h.step ha

/-- **Every run keeps the invariant.** -/
theorem sound_run (engines : List Engine) {es : List Event} (hes : ∀ e ∈ es, e.StoreAnswers) :
    ((start engines).run es).Sound :=
  (sound_start engines).run hes

/-- The invariant holds before every step of a run. -/
theorem Sound.of_mem_trail (h : s.Sound) {es : List Event} (hes : ∀ e ∈ es, e.StoreAnswers)
    {p : Step} (hp : p ∈ s.trail es) :
    p.before.Sound ∧ p.event.StoreAnswers ∧ p.after = p.before.step p.event := by
  obtain ⟨hafter, fs, gs, rfl, hbefore⟩ := Scheduler.of_mem_trail hp
  refine ⟨?_, hes p.event (by simp), hafter⟩
  rw [hbefore]
  exact h.run fun f hf => hes f (List.mem_append_left _ hf)

/-- What grows by one in certain steps of a run, and in no other, counts them. -/
theorem Sound.eq_add_countP_trail {f : Scheduler → Nat} {q : Step → Bool}
    (hstep : ∀ (s : Scheduler) (e : Event), s.Sound → e.StoreAnswers →
      f (s.step e) = f s + (q ⟨s, e, s.step e⟩).toNat)
    (h : s.Sound) {es : List Event} (hes : ∀ e ∈ es, e.StoreAnswers) :
    f (s.run es) = f s + (s.trail es).countP q := by
  refine Scheduler.eq_add_countP_trail fun p hp => ?_
  obtain ⟨hs, ha, hafter⟩ := h.of_mem_trail hes hp
  rw [p.eq_mk hafter]
  exact hstep p.before p.event hs ha

end Scheduler

end JobDispatch
