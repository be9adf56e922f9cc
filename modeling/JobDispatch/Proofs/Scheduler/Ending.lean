import Mathlib.Data.List.Perm.Lattice
import JobDispatch.Proofs.Scheduler.Course

/-!
# When the work is done

Once all executions have ended, nothing depends any more on the order of their steps: each record and
each dead letter is what the jobs and their messages say.

## Main definitions

* `Scheduler.executedJobs` — the jobs of the executions.
* `Repertoire.expected` — what executions of some jobs make of a record.
* `Scheduler.due` — the dead letters that are due for a job.

## Main results

* `Scheduler.Course.count_eq` — each waiting job that has an execution has been started once.
* `Scheduler.Course.jobs_eq` — **the records in the end.**
* `Scheduler.Course.perm_letters` — **the dead letters in the end.**
-/

namespace JobDispatch

/-- Members from which nothing is made can be left out. -/
theorem flatMap_eq_filter {α β : Type} {l : List α} {f g : α → List β} {q : α → Bool}
    (h : ∀ a ∈ l, f a = if q a then g a else []) : l.flatMap f = (l.filter q).flatMap g := by
  induction l with
  | nil => rfl
  | cons a l ih =>
    rw [List.flatMap_cons, h a List.mem_cons_self, ih fun b hb => h b (List.mem_cons_of_mem a hb),
      List.filter_cons]
    split <;> rfl

namespace Scheduler

variable {p : Repertoire} {s₀ s : Scheduler}

/-! ### Each job once -/

/-- The jobs of the executions. -/
def executedJobs (s : Scheduler) : List JobId := s.deliveries.map Delivery.job

/-- An execution of a job is counted. -/
theorem count_pos_of_hasStarted {d : Delivery} (hd : d ∈ s.deliveries)
    (hx : d.execution.hasStarted = true) : 0 < s.count d.job Execution.hasStarted :=
  List.countP_pos_iff.mpr ⟨d, hd, by simp [hx]⟩

/-- An execution that has ended without starting its job was skipped. -/
theorem eq_skipped {x : Execution} (hx : x.isFinished = true) (hn : x.hasStarted = false) :
    x = .finished .skipped := by
  cases x with
  | finished outcome =>
    cases outcome with
    | skipped => rfl
    | completed elapsed => simp [Execution.hasStarted, Execution.hasSucceeded] at hn
    | failed error decision => simp [Execution.hasStarted, Execution.hasFailed] at hn
  | _ => simp [Execution.isFinished] at hx

/-- **A job that was waiting and has an execution has been started once**, and any other not at all. -/
theorem Course.count_eq (h : Course p s₀ s) (hdone : ∀ d ∈ s.deliveries, d.execution.isFinished = true)
    (id : JobId) : s.count id Execution.hasStarted
      = if s₀.status? id = some .scheduled ∧ id ∈ s.executedJobs then 1 else 0 := by
  have hstarts := h.starts id
  by_cases hwaits : s₀.status? id = some .scheduled
  · have hone : Ledger.waiting (s₀.record? id) = 1 := Ledger.waiting_eq_one_iff.mpr hwaits
    by_cases hmem : id ∈ s.executedJobs
    · rw [if_pos ⟨hwaits, hmem⟩]
      obtain ⟨d, hd, rfl⟩ := List.mem_map.mp hmem
      cases hx : d.execution.hasStarted with
      | true =>
        have hpos := count_pos_of_hasStarted hd hx
        omega
      | false =>
        -- the execution was skipped because the job was not waiting any more
        have hfollows := h.follows d hd
        rw [eq_skipped (hdone d hd) hx] at hfollows
        have hnone : Ledger.waiting (s.record? d.job) ≠ 1 := by
          intro hwaiting
          obtain ⟨i, hi, hs⟩ := Option.map_eq_some_iff.mp (Ledger.waiting_eq_one_iff.mp hwaiting)
          exact hfollows i hi hs
        have hle := Ledger.waiting_le_one (s.record? d.job)
        omega
    · rw [if_neg fun hboth => hmem hboth.2]
      refine List.countP_eq_zero.mpr fun d hd => ?_
      have hne : d.job ≠ id := fun hid => hmem (List.mem_map.mpr ⟨d, hd, hid⟩)
      simp [hne]
  · rw [if_neg fun hboth => hwaits hboth.1]
    have hne : Ledger.waiting (s₀.record? id) ≠ 1 := fun hone =>
      hwaits (Ledger.waiting_eq_one_iff.mp hone)
    have hle := Ledger.waiting_le_one (s₀.record? id)
    omega

end Scheduler

/-- **What executions of some jobs make of a record**: it is settled if its job waits and is among
them, and else it is as it was. -/
def Repertoire.expected (p : Repertoire) (ids : List JobId) (j : Job) : Job :=
  if j.status = .scheduled ∧ j.id ∈ ids then p.settled j else j

namespace Scheduler

/-- **The record of a job in the end.** -/
theorem Course.record?_eq (h : Course p s₀ s)
    (hdone : ∀ d ∈ s.deliveries, d.execution.isFinished = true) {id : JobId} {j : Job}
    (hj : s₀.record? id = some j) :
    (s.record? id).map Job.timeless = some (p.expected s.executedJobs j).timeless := by
  have hid : j.id = id := Store.id_of_find? hj
  have hcount := h.count_eq hdone id
  have hstatus : s₀.status? id = some j.status := by rw [status?, hj, Option.map_some]
  simp only [hstatus, Option.some.injEq] at hcount
  rw [Repertoire.expected, hid]
  by_cases hrun : j.status = .scheduled ∧ id ∈ s.executedJobs
  · rw [if_pos hrun] at hcount ⊢
    have hpos : 0 < s.count id Execution.hasStarted := by omega
    obtain ⟨d, hd, hx⟩ := List.countP_pos_iff.mp hpos
    rw [Bool.and_eq_true, decide_eq_true_eq] at hx
    obtain ⟨rfl, hx⟩ := hx
    have hfollows := h.follows d hd
    have hend := hdone d hd
    cases hex : d.execution with
    | finished outcome =>
      rw [hex] at hfollows hx
      cases outcome with
      | skipped => simp [Execution.hasStarted, Execution.holds, Execution.hasFailed,
          Execution.hasSucceeded] at hx
      | completed elapsed =>
        obtain ⟨i, hi, -, -, -, hsettled⟩ := hfollows
        obtain rfl := Option.some.inj (hi.symm.trans hj)
        exact hsettled
      | failed error decision =>
        obtain ⟨i, hi, -, -, hsettled⟩ := hfollows
        obtain rfl := Option.some.inj (hi.symm.trans hj)
        exact hsettled
    | _ => simp [hex, Execution.isFinished] at hend
  · rw [if_neg hrun] at hcount ⊢
    rw [h.untouched id hcount, hj, Option.map_some]

/-- **The records in the end.** -/
theorem Course.jobs_eq (h : Course p s₀ s) (hs₀ : s₀.shared.store.Distinct)
    (hdone : ∀ d ∈ s.deliveries, d.execution.isFinished = true) :
    s.shared.store.jobs.map Job.timeless
      = s₀.shared.store.jobs.map fun j => (p.expected s.executedJobs j).timeless := by
  apply List.ext_getElem?
  intro i
  have hids := congrArg (fun l => l[i]?) h.ids
  simp only [List.getElem?_map] at hids ⊢
  cases hj₀ : s₀.shared.store.jobs[i]? with
  | none =>
    rw [hj₀, Option.map_none, Option.map_eq_none_iff] at hids
    rw [hids]
    rfl
  | some j₀ =>
    rw [hj₀, Option.map_some] at hids
    obtain ⟨j, hj, hid⟩ := Option.map_eq_some_iff.mp hids
    have hrecord₀ : s₀.record? j₀.id = some j₀ :=
      (Store.find?_eq_some_iff hs₀).mpr ⟨List.mem_of_getElem? hj₀, rfl⟩
    have hrecord : s.record? j₀.id = some j :=
      (Store.find?_eq_some_iff h.distinct).mpr ⟨List.mem_of_getElem? hj, hid⟩
    have hend := h.record?_eq hdone hrecord₀
    rw [hrecord] at hend
    rw [hj]
    exact hend

/-- The jobs that have been started, each once. -/
theorem Course.perm_started (h : Course p s₀ s) (hs₀ : s₀.shared.store.Distinct)
    (hdone : ∀ d ∈ s.deliveries, d.execution.isFinished = true) :
    ((s.deliveries.filter fun d => d.execution.hasStarted).map Delivery.job).Perm
      ((s₀.shared.store.jobs.filter fun j =>
        decide (j.status = .scheduled ∧ j.id ∈ s.executedJobs)).map Job.id) := by
  have hcount : ∀ id, ((s.deliveries.filter fun d => d.execution.hasStarted).map Delivery.job).count id
      = s.count id Execution.hasStarted := by
    intro id
    rw [List.count_eq_countP, List.countP_map, List.countP_filter]
    exact List.countP_congr fun d _ => by simp
  refine (List.perm_ext_iff_of_nodup ?_ ?_).mpr fun id => ?_
  · refine List.nodup_iff_count_le_one.mpr fun id => ?_
    rw [hcount]
    exact h.count_le_one id
  · exact (List.filter_sublist.map Job.id).nodup hs₀
  · rw [← List.count_pos_iff, hcount, h.count_eq hdone]
    simp only [List.mem_map, List.mem_filter, decide_eq_true_eq]
    constructor
    · intro hpos
      split at hpos
      · next hrun =>
        obtain ⟨j, hj, hs⟩ := Option.map_eq_some_iff.mp hrun.1
        obtain ⟨hmem, rfl⟩ := (Store.find?_eq_some_iff hs₀).mp hj
        exact ⟨j, ⟨hmem, hs, hrun.2⟩, rfl⟩
      · exact absurd hpos (Nat.lt_irrefl 0)
    · rintro ⟨j, ⟨hmem, hs, hrun⟩, rfl⟩
      have hj : s₀.record? j.id = some j := (Store.find?_eq_some_iff hs₀).mpr ⟨hmem, rfl⟩
      rw [if_pos ⟨by rw [status?, hj, Option.map_some, hs], hrun⟩]
      exact Nat.one_pos

/-- The dead letters that are due for a job. -/
def due (p : Repertoire) (s₀ : Scheduler) (id : JobId) : List DeadLetter :=
  ((s₀.record? id).map p.letters).getD []

/-- An execution that has ended has sent what was due, if it has started its job, and else nothing. -/
theorem Course.sent_eq (h : Course p s₀ s)
    (hdone : ∀ d ∈ s.deliveries, d.execution.isFinished = true) {d : Delivery} (hd : d ∈ s.deliveries) :
    p.sent (s₀.record? d.job) d.execution
      = if d.execution.hasStarted then due p s₀ d.job else [] := by
  have hfollows := h.follows d hd
  have hend := hdone d hd
  cases hex : d.execution with
  | finished outcome =>
    rw [hex] at hfollows
    cases outcome with
    | skipped => rfl
    | completed elapsed =>
      obtain ⟨j, hj, -, -, ⟨result, hok⟩, -⟩ := hfollows
      rw [due, hj]
      exact (Repertoire.letters_of_ok hok).symm
    | failed error decision => rfl
  | _ => simp [hex, Execution.isFinished] at hend

/-- **The dead letters in the end**: those that are due. -/
theorem Course.perm_letters (h : Course p s₀ s) (hs₀ : s₀.shared.store.Distinct)
    (hdone : ∀ d ∈ s.deliveries, d.execution.isFinished = true) :
    ∃ sent : List DeadLetter, s.deadLetters = s₀.deadLetters ++ sent.map DeadLetter.text ∧
      (sent.map DeadLetter.timeless).Perm
        (((s₀.shared.store.jobs.filter fun j =>
          decide (j.status = .scheduled ∧ j.id ∈ s.executedJobs)).map Job.id).flatMap (due p s₀)) := by
  obtain ⟨sent, hsent, hperm⟩ := h.letters
  refine ⟨sent, hsent, hperm.trans ?_⟩
  have hfilter : s.deliveries.flatMap (fun d => p.sent (s₀.record? d.job) d.execution)
      = ((s.deliveries.filter fun d => d.execution.hasStarted).map Delivery.job).flatMap
        (due p s₀) := by
    rw [List.flatMap_map]
    exact flatMap_eq_filter fun d hd => h.sent_eq hdone hd
  rw [hfilter]
  exact (h.perm_started hs₀ hdone).flatMap_right _

end Scheduler

end JobDispatch
