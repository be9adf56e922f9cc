import JobDispatch.Proofs.Scheduler.Delivery

/-!
# What is submitted is what is carried

A job appears in three forms: as a record in the store, as a ticket in the policy of an engine, and as a
text on the ready queue.  The record is made from a valid submission and keeps what was submitted; a
ticket is taken from the record when the job is claimed, and a message from the ticket when it is sent.
However often a job is claimed, given back and claimed again, and however often policies are switched
meanwhile, all forms that exist at a time are those of the one record.

## Main definitions

* `NewJob.WithinLimits` — the limits of a submission, one by one.

## Main results

* `NewJob.problem?_eq_none_iff_withinLimits` — a submission is accepted if and only if it keeps them.
* `Scheduler.withinLimits_of_mem_run` — every record keeps the limits.
* `Scheduler.attributes_carried` — **records are the accepted submissions, and every ticket and message
  is that of a record.**
-/

namespace JobDispatch

/-- **The limits of a submission.** -/
structure NewJob.WithinLimits (new : NewJob) : Prop where
  name : 1 ≤ new.name.length ∧ new.name.length ≤ 255
  /-- Not only blanks. -/
  jobType : (∃ c ∈ new.jobType.toList, Text.isBlank c = false) ∧ new.jobType.length ≤ 50
  priority : 1 ≤ new.priority.toNat ∧ new.priority.toNat ≤ 10
  estimatedDuration : new.estimatedDuration.isFinite = true ∧ new.estimatedDuration.isPositive = true
  maxRetries : new.maxRetries.toNat ≤ 10
  payload : new.payload.isObject = true

/-- **A submission is accepted if and only if it keeps the limits.** -/
theorem NewJob.problem?_eq_none_iff_withinLimits {new : NewJob} :
    new.problem? = none ↔ new.WithinLimits := by
  have hzero : new.priority ≠ 0 ↔ 1 ≤ new.priority.toNat := by
    rw [Nat.one_le_iff_ne_zero, ne_eq, ne_eq, ← UInt8.toNat_inj]
    rfl
  have hblank : new.jobType.toList.all Text.isBlank = false ↔
      ∃ c ∈ new.jobType.toList, Text.isBlank c = false := by
    simp
  rw [NewJob.problem?_eq_none_iff, hzero, hblank, UInt8.le_iff_toNat_le, UInt16.le_iff_toNat_le]
  constructor
  · rintro ⟨hname, htype, hpriority, hduration, hretries, hpayload⟩
    exact ⟨hname, htype, hpriority, hduration, hretries, hpayload⟩
  · intro h
    exact ⟨h.name, h.jobType, h.priority, h.estimatedDuration, h.maxRetries, h.payload⟩

namespace Scheduler

/-- At the start nothing has been submitted. -/
theorem submissions_run_start (engines : List Engine) (es : List Event) :
    ((start engines).run es).shared.store.jobs.map Job.submission
      = ((start engines).trail es).filterMap Step.submission? :=
  submissions_run (start engines) es

/-- Every record keeps the limits. -/
theorem withinLimits_of_mem_run {engines : List Engine} {es : List Event} {j : Job}
    (hj : j ∈ ((start engines).run es).shared.store.jobs) : j.request.WithinLimits := by
  have hu : j.submission ∈ ((start engines).trail es).filterMap Step.submission? := by
    rw [← submissions_run_start]
    exact List.mem_map_of_mem hj
  obtain ⟨p, -, hp⟩ := List.mem_filterMap.mp hu
  exact NewJob.problem?_eq_none_iff_withinLimits.mp (of_submission? hp).2.1

/-- A submission that is refused changes nothing. -/
theorem step_of_submit_error {s : Scheduler} {e : Event} {new : NewJob} {problem : SchedulerError}
    (hm : e.move = .submit new)
    (h : (Control.submit e.moment.services new s.shared).1 = .error problem) : s.step e = s := by
  rw [step, hm]
  simp only [submit, Control.shared_submit_of_error h]
  split <;> rfl

/-- **Records are the accepted submissions, and every ticket and message is that of a record.**  Engines
begin with nothing; any job may be submitted, any policy wanted and any text put on the ready queue by
hand, any service may be out of reach and any party may take steps at any time. -/
theorem attributes_carried (engines : List Engine)
    (hnew : ∀ e ∈ engines, Engine.create e.registry e.config = .ok e) (es : List Event) :
    (∀ p ∈ (start engines).trail es, ∀ new problem, p.event.move = .submit new →
      (Control.submit p.event.moment.services new p.before.shared).1 = .error problem →
      p.after = p.before) ∧
    ((start engines).run es).shared.store.Distinct ∧
    ((start engines).run es).shared.store.jobs.map Job.submission
      = ((start engines).trail es).filterMap Step.submission? ∧
    (∀ j ∈ ((start engines).run es).shared.store.jobs, j.request.WithinLimits) ∧
    (∀ t ∈ ((start engines).run es).held,
      ∃ j, ((start engines).run es).record? t.jobId = some j ∧ t = j.ticket) ∧
    ∀ m ∈ ((start engines).run es).shared.broker.ready, m ∈ injected es ∨
      ∃ j, ((start engines).run es).record? j.id = some j ∧ m = j.ticket.text := by
  obtain ⟨hprojected, -, -⟩ := (projected_start hnew (injected es)).run fun _ hm => hm
  have hrecord : ∀ t ∈ ((start engines).run es).shared.store.tickets,
      ∃ j, ((start engines).run es).record? j.id = some j ∧ t = j.ticket := by
    intro t ht
    obtain ⟨j, hj, rfl⟩ := Store.mem_tickets.mp ht
    exact ⟨j, hprojected.distinct.find?_id hj, rfl⟩
  refine ⟨?_, hprojected.distinct, submissions_run_start engines es,
    fun j hj => withinLimits_of_mem_run hj, fun t ht => ?_, fun m hm => ?_⟩
  · intro p hp new problem hm h
    obtain ⟨hafter, -⟩ := of_mem_trail hp
    rw [hafter]
    exact step_of_submit_error hm h
  · obtain ⟨j, hj, rfl⟩ := hrecord t (hprojected.held t ht)
    exact ⟨j, hj, rfl⟩
  · refine (hprojected.messages m (List.mem_append_left _ hm)).imp_right ?_
    rintro ⟨t, ht, rfl⟩
    obtain ⟨j, hj, rfl⟩ := hrecord t ht
    exact ⟨j, hj, rfl⟩

/-- A job is claimed and its message cannot be sent; another policy takes it over, and a submission that
asks for too low a priority is refused. -/
def refusedOnce : List Event :=
  claimedOnce ++ [⟨⟨⟨3, 0⟩, .nil, none, some "down"⟩, .tick 0⟩, (Move.wish "priority").at 4,
    (Move.tick 0).at 5, (Move.tick 0).at 6,
    ⟨⟨⟨7, 0⟩, ⟨1⟩, none, none⟩, .submit { NewJob.oneShot with priority := 11 }⟩]

/-- The policy that has taken over holds the ticket of the one record. -/
theorem carried_of_refusedOnce :
    (∀ e ∈ [Engine.standard], Engine.create e.registry e.config = .ok e) ∧
      ((start [.standard]).run refusedOnce).shared.store.jobs.length = 1 ∧
      ((start [.standard]).run refusedOnce).engines.map (fun l => l.engine.active) = ["priority"] ∧
      ∃ t j, ((start [.standard]).run refusedOnce).held = [t] ∧
        ((start [.standard]).run refusedOnce).record? t.jobId = some j ∧ t = j.ticket ∧
        j.request.WithinLimits := by
  have hnew : ∀ e ∈ [Engine.standard], Engine.create e.registry e.config = .ok e := by
    intro e he
    rw [List.mem_singleton.mp he]
    exact Engine.create_standard
  have hjobs : ((start [.standard]).run refusedOnce).shared.store.jobs.length = 1 := by
    decide +kernel
  have hactive : ((start [.standard]).run refusedOnce).engines.map (fun l => l.engine.active)
      = ["priority"] := by
    decide +kernel
  obtain ⟨t, ht⟩ : ∃ t, ((start [.standard]).run refusedOnce).held = [t] :=
    List.length_eq_one_iff.mp (by decide +kernel)
  obtain ⟨-, -, -, hlimits, hheld, -⟩ := attributes_carried [.standard] hnew refusedOnce
  obtain ⟨j, hj, hticket⟩ := hheld t (by rw [ht]; exact List.mem_singleton_self t)
  exact ⟨hnew, hjobs, hactive, t, j, ht, hj, hticket, hlimits j (Store.mem_of_find? hj)⟩

end Scheduler

end JobDispatch
