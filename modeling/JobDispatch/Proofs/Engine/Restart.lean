import JobDispatch.Proofs.Job.Texts
import JobDispatch.Proofs.Scheduler.Parties
import JobDispatch.Proofs.Store.Claims

/-!
# Starting again

When an engine starts, the store and the broker may hold anything.  If there are messages, recovery
leaves everything as it is.  If there are none, the jobs that are scheduled have lost theirs, so they
become pending, and nothing else changes.  From then on every tick claims a batch and sends it, and so
enough ticks give each job that waited its message, whatever the policy and the size of the batches.

## Main definitions

* `Moment.Answers` — both services can be reached.
* `Engine.ticks` — one tick after another.
* `Engine.Ticked` — what a tick does when both services can be reached.
* `Job.Waits` — a job waits to be claimed or to be executed.

## Main results

* `Engine.finish_dispatching` — all queued tickets are sent, in the order of the policy.
* `Engine.isOk_tick_iff` — a tick succeeds if and only if both services can be reached.
* `Engine.ticks_of_empty` — **ticks of an engine that holds nothing claim batch after batch and send all
  of it.**
* `Engine.restart_complete` — **after a restart every job that waited has exactly one message, and no
  other job has one.**
* `Engine.messages_of_restart` — after a restart the messages with the id of a job are its own.
-/

namespace JobDispatch

/-- Both services can be reached. -/
def Moment.Answers (m : Moment) : Prop := m.storeOutage = none ∧ m.brokerOutage = none

instance (m : Moment) : Decidable m.Answers := inferInstanceAs (Decidable (_ ∧ _))

variable {m : Moment} {sh : Shared}

/-! ### One tick -/

namespace Engine

variable {e : Engine}

section AnyPolicy

variable {φ π μ σ : Type} [PolicyFactory φ π μ] [SchedulingPolicy π]

/-- A tick that has not come to its end goes on with its next step. -/
theorem finish_eq_step (v : Services σ) (e : Engine φ π μ) {p : TickPhase} (h : p.result? = none) (s : σ) :
    finish v e p s = finish v (step v e p s).1.1 (step v e p s).1.2 (step v e p s).2 := by
  rw [finish]
  split
  · next result hr => exact absurd (h.symm.trans hr) (by simp)
  · rfl

theorem finish_finished (v : Services σ) (e : Engine φ π μ) (r : Except EngineError TickReport) (s : σ) :
    finish v e (.finished r) s = (r, e, s) := by
  rw [finish]
  rfl

end AnyPolicy

/-- **All queued tickets are sent, in the order of the policy.** -/
theorem finish_dispatching (hm : m.brokerOutage = none) {n : Nat} {e : Engine} (hn : e.policy.size ≤ n)
    (ingested dispatched : Nat) (sh : Shared) :
    e.finish m.services (.dispatching ingested dispatched) sh
      = (.ok ⟨ingested, dispatched + (e.policy.dequeueMany n).1.length⟩,
          { e with policy := (e.policy.dequeueMany n).2 },
          { sh with broker := { sh.broker with
              ready := sh.broker.ready ++ (e.policy.dequeueMany n).1.map Ticket.text } }) := by
  induction n generalizing e dispatched sh with
  | zero =>
    have hnone : e.policy.dequeue? = none := by
      rw [Policy.dequeue?_eq_none_iff, ← List.length_eq_zero_iff, Policy.length_tickets]
      omega
    rw [finish_eq_step _ _ rfl, step_dispatching_of_dequeue?_eq_none hnone]
    simp only [finish_finished, Policy.dequeueMany_zero, List.length_nil, Nat.add_zero, List.map_nil,
      List.append_nil]
  | succ n ih =>
    rw [finish_eq_step _ _ rfl]
    cases hd : e.policy.dequeue? with
    | none =>
      rw [step_dispatching_of_dequeue?_eq_none hd]
      simp only [finish_finished, Policy.dequeueMany_succ, hd, List.length_nil, Nat.add_zero, List.map_nil,
        List.append_nil]
    | some p =>
      obtain ⟨ticket, rest⟩ := p
      have hsize := Policy.size_of_dequeue? hd
      rw [step_dispatching_of_dequeue? hd]
      simp only [Moment.services_broker hm, Broker.perform_pushReady, Policy.dequeueMany_succ, hd]
      rw [ih (by simp only; omega)]
      simp only [Broker.pushRaw, List.length_cons, List.map_cons, List.append_assoc, List.cons_append,
        List.nil_append, Nat.add_assoc, Nat.add_comm 1]

/-- **What a tick does when both services can be reached**: a batch is claimed, and it is sent with all
that was queued. -/
structure Ticked (now : Timestamp) (e : Engine) (sh : Shared) (e' : Engine) (sh' : Shared) : Prop where
  config : e'.config = e.config
  drained : e'.policy.tickets = []
  store : sh'.store = (sh.store.claimPending e.config.batchSize now).2
  sent : ∃ sent : List Ticket,
    sh'.broker = { sh.broker with ready := sh.broker.ready ++ sent.map Ticket.text } ∧
      sent.Perm ((sh.store.claimPending e.config.batchSize now).1.map Job.ticket ++ e.policy.tickets)

theorem config_follow (e : Engine) (desired : Option String) :
    (e.follow desired).1.config = e.config := by
  unfold follow
  repeat' split
  all_goals rfl

/-- **A tick at which both services can be reached.** -/
theorem tick_of_answers (hm : m.Answers) (e : Engine) (sh : Shared) :
    ∃ (report : TickReport) (e' : Engine) (sh' : Shared),
      e.tick m.services sh = (.ok report, e', sh') ∧ Ticked m.now e sh e' sh' := by
  obtain ⟨hstore, hbroker⟩ := hm
  have hconfig := config_follow e sh.broker.policy
  have hfollow := perm_tickets_follow e sh.broker.policy
  -- the engine that follows the wanted policy, whether or not notice is given
  have hfirst : finish m.services e .reconciling sh
      = finish m.services (e.follow sh.broker.policy).1 .ingesting sh := by
    rw [finish_eq_step _ _ rfl]
    simp only [step, Moment.services_broker hbroker, Broker.perform]
    rcases e.follow sh.broker.policy with ⟨e₁, _ | notice⟩ <;> rfl
  rw [tick, hfirst, finish_eq_step _ _ rfl]
  generalize (e.follow sh.broker.policy).1 = e₁ at hconfig hfollow
  simp only [step, Moment.services_store hstore, Store.perform, hconfig]
  rw [finish_dispatching hbroker (Nat.le_refl _)]
  refine ⟨_, _, _, rfl, hconfig, Policy.tickets_dequeueMany (Nat.le_refl _), rfl, _, rfl, ?_⟩
  -- what is sent is what was queued when the batch had been added
  have hdrained := Policy.perm_drain (e₁.ingest (sh.store.claimPending e.config.batchSize m.now).1).policy
  exact hdrained.trans ((Policy.perm_enqueueAll _ _).trans (hfollow.append_left _))

/-- A tick succeeds only if both services can be reached. -/
theorem answers_of_isOk_tick (h : (e.tick m.services sh).1.isOk = true) : m.Answers := by
  rw [tick, finish_eq_step _ _ rfl] at h
  cases hbroker : m.brokerOutage with
  | some reason =>
    simp only [step, Moment.services_broker_outage hbroker, finish_finished] at h
    exact absurd h (by simp [Except.isOk, Except.toBool])
  | none =>
    refine ⟨?_, hbroker⟩
    cases hstore : m.storeOutage with
    | none => rfl
    | some reason =>
      simp only [step, Moment.services_broker hbroker, Broker.perform] at h
      rcases hf : e.follow sh.broker.policy with ⟨e₁, _ | notice⟩
      all_goals
        rw [hf, finish_eq_step _ _ rfl] at h
        simp only [step, Moment.services, Moment.onStore, hstore, finish_finished] at h
        exact absurd h (by simp [Except.isOk, Except.toBool])

/-- **A tick succeeds if and only if both services can be reached.** -/
theorem isOk_tick_iff : (e.tick m.services sh).1.isOk = true ↔ m.Answers := by
  refine ⟨answers_of_isOk_tick, fun hm => ?_⟩
  obtain ⟨report, e', sh', htick, -⟩ := tick_of_answers hm e sh
  rw [htick]
  rfl

/-! ### One tick after another -/

/-- **One tick after another**, each at its own moment: what comes of each, and the engine and what is
shared after them. -/
def ticks (e : Engine) : List Moment → Shared → List (Except EngineError TickReport) × Engine × Shared
  | [], sh => ([], e, sh)
  | m :: ms, sh =>
    let (result, e, sh) := e.tick m.services sh
    let (results, rest) := e.ticks ms sh
    (result :: results, rest)

/-- **Ticks of an engine that holds nothing claim batch after batch and send all of it.** -/
theorem ticks_of_empty {ms : List Moment} (he : e.policy.tickets = [])
    (hok : ∀ r ∈ (e.ticks ms sh).1, r.isOk = true) :
    (e.ticks ms sh).2.2.store
        = (Store.claimEach e.config.batchSize (ms.map Moment.now) sh.store).2 ∧
      ∃ sent : List Ticket,
        (e.ticks ms sh).2.2.broker
            = { sh.broker with ready := sh.broker.ready ++ sent.map Ticket.text } ∧
          sent.Perm ((Store.claimEach e.config.batchSize (ms.map Moment.now) sh.store).1.map
            Job.ticket) := by
  induction ms generalizing e sh with
  | nil =>
    refine ⟨rfl, [], ?_, List.Perm.refl _⟩
    rw [List.map_nil, List.append_nil]
    rfl
  | cons m ms ih =>
    have hfirst : (e.tick m.services sh).1.isOk = true := hok _ List.mem_cons_self
    obtain ⟨report, e', sh', htick, hticked⟩ := tick_of_answers (answers_of_isOk_tick hfirst) e sh
    have hticks : e.ticks (m :: ms) sh = (.ok report :: (e'.ticks ms sh').1, (e'.ticks ms sh').2) := by
      simp only [ticks, htick]
    rw [hticks] at hok ⊢
    obtain ⟨hstore, rest, hready, hrest⟩ :=
      ih hticked.drained fun r hr => hok r (List.mem_cons_of_mem _ hr)
    obtain ⟨first, hbroker, hperm⟩ := hticked.sent
    rw [he, List.append_nil] at hperm
    rw [hticked.store, hticked.config] at hstore hrest
    refine ⟨hstore, first ++ rest, ?_, ?_⟩
    · rw [hready, hbroker, List.map_append, List.append_assoc]
    · rw [List.map_cons, Store.claimEach, List.map_append]
      exact hperm.append hrest

/-- Every tick succeeds if and only if both services can be reached at each of them. -/
theorem isOk_ticks_iff {ms : List Moment} :
    (∀ r ∈ (e.ticks ms sh).1, r.isOk = true) ↔ ∀ m ∈ ms, m.Answers := by
  induction ms generalizing e sh with
  | nil => simp [ticks]
  | cons m ms ih =>
    have hfirst : (e.tick m.services sh).1.isOk = true ↔ m.Answers := isOk_tick_iff
    simp only [ticks, List.forall_mem_cons, hfirst, ih]

end Engine

/-! ### Recovery -/

/-- A recovery that has not come to its end goes on with its next step. -/
theorem Recovery.run_eq_step {σ : Type} (v : Services σ) {p : Recovery} (h : p.result? = none) (s : σ) :
    p.run v s = (p.step v s).1.run v (p.step v s).2 := by
  rw [run]
  split
  · next result hr => exact absurd (h.symm.trans hr) (by simp)
  · rfl

theorem Recovery.run_finished {σ : Type} (v : Services σ) (r : Except EngineError Nat) (s : σ) :
    (finished r).run v s = (r, s) := by
  rw [run]
  rfl

namespace Engine

/-- Recovery with messages on the queue changes nothing. -/
theorem recover_of_ready (hm : m.brokerOutage = none) (h : sh.broker.ready ≠ []) :
    recover m.services sh = (.ok 0, sh) := by
  have hpos : 0 < sh.broker.ready.length := List.length_pos_iff.mpr h
  rw [recover, Recovery.run_eq_step _ rfl]
  simp only [Recovery.step, Moment.services_broker hm, Broker.perform, if_pos hpos,
    Recovery.run_finished]

/-- **Recovery without messages resets the scheduled jobs**, and tells their number. -/
theorem recover_of_empty (hm : m.Answers) (h : sh.broker.ready = []) :
    recover m.services sh
      = (.ok (sh.store.countIn .scheduled), { sh with store := sh.store.resetScheduled.2 }) := by
  have hzero : ¬0 < sh.broker.ready.length := by simp [h]
  rw [recover, Recovery.run_eq_step _ rfl]
  simp only [Recovery.step, Moment.services_broker hm.2, Broker.perform, if_neg hzero]
  rw [Recovery.run_eq_step _ rfl]
  simp only [Recovery.step, Moment.services_store hm.1, Store.perform, Recovery.run_finished]
  rfl

end Engine

/-! ### After a restart -/

/-- A job that waits: to be claimed, or to be executed. -/
def Job.Waits (j : Job) : Prop := j.status = .pending ∨ j.status = .scheduled

instance (j : Job) : Decidable j.Waits := inferInstanceAs (Decidable (_ ∨ _))

namespace Store

variable {s : Store}

theorem jobs_resetScheduled (s : Store) : s.resetScheduled.2.jobs
    = s.jobs.map fun j => if j.status = .scheduled then j.unclaimed else j := by
  simp only [resetScheduled, beq_iff_eq]

/-- What a reset makes of a record is pending if and only if the job waited. -/
theorem status_reset_iff (j : Job) :
    (if j.status = .scheduled then j.unclaimed else j).status = .pending ↔ j.Waits := by
  by_cases h : j.status = .scheduled
  · simp [Job.Waits, h]
  · simp [Job.Waits, h]

theorem claimed_reset (now : Timestamp) (j : Job) :
    (if j.status = .scheduled then j.unclaimed else j).claimed now = j.claimed now := by
  split <;> rfl

/-- After a reset the tickets of the pending jobs are those of the jobs that waited. -/
theorem tickets_pending_resetScheduled (s : Store) :
    ((s.resetScheduled.2.jobs.filter fun j => j.status == .pending).map Job.ticket)
      = (s.jobs.filter fun j => decide j.Waits).map Job.ticket := by
  rw [jobs_resetScheduled, List.filter_map, List.map_map]
  have hsame : ∀ j : Job, ((fun j : Job => j.status == JobStatus.pending) ∘
      fun j => if j.status = .scheduled then j.unclaimed else j) j = decide j.Waits := by
    intro j
    rw [Function.comp, ← decide_eq_decide.mpr (status_reset_iff j)]
    exact beq_eq_decide _ _
  rw [List.filter_congr fun j _ => hsame j]
  refine List.map_congr_left fun j _ => ?_
  simp only [Function.comp]
  split <;> rfl

/-- Of the tickets of some records those with the id of one are its own, if it is among them. -/
theorem filter_tickets_id (hs : s.Distinct) (p : Job → Prop) [DecidablePred p] {j : Job}
    (hj : j ∈ s.jobs) :
    (((s.jobs.filter fun i => decide (p i)).map Job.ticket).filter fun t => decide (t.jobId = j.id))
      = if p j then [j.ticket] else [] := by
  have hcomm : ((s.jobs.filter fun i => decide (p i)).filter fun i => decide (i.id = j.id))
      = [j].filter fun i => decide (p i) := by
    rw [List.filter_comm, hs.filter_id hj]
  have hmap : (((s.jobs.filter fun i => decide (p i)).map Job.ticket).filter
      fun t => decide (t.jobId = j.id)) = ([j].filter fun i => decide (p i)).map Job.ticket := by
    rw [List.filter_map, ← hcomm]
    rfl
  rw [hmap]
  by_cases hp : p j <;> simp [hp]

/-- Of tickets that are those of the jobs that wait, the ones with the id of a job are its own, if it
waits. -/
theorem filter_sent_id (hs : s.Distinct) {sent : List Ticket}
    (h : sent.Perm ((s.jobs.filter fun j => decide j.Waits).map Job.ticket)) {j : Job} (hj : j ∈ s.jobs) :
    (sent.filter fun t => decide (t.jobId = j.id)) = if j.Waits then [j.ticket] else [] := by
  have hown := (h.filter fun t => decide (t.jobId = j.id)).trans
    (List.Perm.of_eq (filter_tickets_id hs Job.Waits hj))
  split at hown
  · next hw =>
    rw [if_pos hw]
    exact List.perm_singleton.mp hown
  · next hw =>
    rw [if_neg hw]
    exact List.perm_nil.mp hown

end Store

namespace Engine

variable {e : Engine}

/-- **Enough ticks claim and send every pending job once** and leave all other records alone. -/
theorem ticks_of_le {ms : List Moment} (he : e.policy.tickets = [])
    (hok : ∀ r ∈ (e.ticks ms sh).1, r.isOk = true)
    (hk : sh.store.countIn .pending ≤ ms.length * e.config.batchSize) :
    List.Forall₂ (fun j j' => if j.status = .pending then ∃ t ∈ ms.map Moment.now, j' = j.claimed t
        else j' = j) sh.store.jobs (e.ticks ms sh).2.2.store.jobs ∧
      ∃ sent : List Ticket,
        (e.ticks ms sh).2.2.broker
            = { sh.broker with ready := sh.broker.ready ++ sent.map Ticket.text } ∧
          sent.Perm ((sh.store.jobs.filter fun j => j.status == .pending).map Job.ticket) := by
  obtain ⟨hstore, sent, hready, hsent⟩ := ticks_of_empty he hok
  have hk' : sh.store.countIn .pending ≤ (ms.map Moment.now).length * e.config.batchSize := by
    rwa [List.length_map]
  refine ⟨?_, sent, hready, hsent.trans ?_⟩
  · rw [hstore]
    exact Store.forall₂_claimEach_of_le hk'
  · -- the batches are together as long as the list of pending records
    have hall := (Store.perm_pendingByAge sh.store).map Job.ticket
    rw [List.map_map] at hall
    rw [Store.tickets_claimEach, List.take_of_length_le (by rwa [Store.length_pendingByAge])]
    exact hall

/-- **After a restart every job that waited has exactly one message, and no other job has one.**  The
engine is new, so it holds nothing; its policy and the size of its batches may be any, and the store and
the broker may have been left in any state. -/
theorem restart_complete {e : Engine} (he : e.queued = 0) {sh : Shared} (hs : sh.store.Distinct)
    {m : Moment} (hm : m.Answers) :
    (sh.broker.ready ≠ [] → recover m.services sh = (.ok 0, sh)) ∧
    (sh.broker.ready = [] → ∃ sh₀ : Shared,
      recover m.services sh = (.ok (sh.store.countIn .scheduled), sh₀) ∧
      sh₀ = { sh with store := ⟨sh.store.jobs.map fun j =>
        if j.status = .scheduled then { j with status := .pending } else j⟩ } ∧
      ∀ ms : List Moment,
        ((∀ r ∈ (e.ticks ms sh₀).1, r.isOk = true) ↔ ∀ n ∈ ms, n.Answers) ∧
        ((∀ r ∈ (e.ticks ms sh₀).1, r.isOk = true) →
          sh₀.store.countIn .pending ≤ ms.length * e.config.batchSize →
          List.Forall₂ (fun j j' =>
              if j.Waits then
                ∃ t ∈ ms.map Moment.now, j' = { j with
                  status := .scheduled, scheduledAt := some (j.scheduledAt.getD t) }
              else j' = j)
            sh.store.jobs (e.ticks ms sh₀).2.2.store.jobs ∧
          ∃ sent : List Ticket,
            (e.ticks ms sh₀).2.2.broker = { sh.broker with ready := sent.map Ticket.text } ∧
            sent.Perm ((sh.store.jobs.filter fun j => decide j.Waits).map Job.ticket) ∧
            ∀ j ∈ sh.store.jobs, (sent.filter fun t => decide (t.jobId = j.id))
              = if j.Waits then [j.ticket] else [])) := by
  have hempty : e.policy.tickets = [] :=
    List.length_eq_zero_iff.mp (by rw [Policy.length_tickets]; exact he)
  refine ⟨recover_of_ready hm.2, fun hready => ⟨_, recover_of_empty hm hready, ?_, fun ms => ?_⟩⟩
  · exact congrArg (fun jobs => { sh with store := ⟨jobs⟩ }) (Store.jobs_resetScheduled sh.store)
  refine ⟨isOk_ticks_iff, fun hok hk => ?_⟩
  obtain ⟨hrecords, sent, hbroker, hsent⟩ := ticks_of_le hempty hok hk
  rw [Store.tickets_pending_resetScheduled] at hsent
  refine ⟨?_, sent, ?_, hsent, fun j hj => ?_⟩
  · -- a record is reset first and claimed then, which leaves nothing but its new state
    rw [Store.jobs_resetScheduled, List.forall₂_map_left_iff] at hrecords
    refine hrecords.imp fun j j' h => ?_
    by_cases hj : j.Waits
    · rw [if_pos ((Store.status_reset_iff j).mpr hj)] at h
      obtain ⟨t, ht, rfl⟩ := h
      rw [if_pos hj]
      exact ⟨t, ht, Store.claimed_reset t j⟩
    · rw [if_neg (fun h => hj ((Store.status_reset_iff j).mp h)), if_neg fun h => hj (Or.inr h)] at h
      rwa [if_neg hj]
  · rw [hbroker, hready, List.nil_append]
  · exact Store.filter_sent_id hs hsent hj

/-- **After a restart the messages that carry the id of a job are its own, once if it waited, and there
are none otherwise.** -/
theorem messages_of_restart {e : Engine} (he : e.queued = 0) {sh sh₀ : Shared} (hs : sh.store.Distinct)
    {m : Moment} (hm : m.Answers) (hready : sh.broker.ready = []) (h₀ : sh₀ = (recover m.services sh).2)
    {ms : List Moment} (hok : ∀ r ∈ (e.ticks ms sh₀).1, r.isOk = true)
    (hk : sh₀.store.countIn .pending ≤ ms.length * e.config.batchSize) {j : Job}
    (hj : j ∈ sh.store.jobs) :
    ((e.ticks ms sh₀).2.2.broker.ready.filter fun m => decide (Ticket.idOf? m = some j.id))
      = if j.Waits then [j.ticket.text] else [] := by
  have hempty : e.policy.tickets = [] :=
    List.length_eq_zero_iff.mp (by rw [Policy.length_tickets]; exact he)
  rw [recover_of_empty hm hready] at h₀
  subst h₀
  obtain ⟨-, sent, hbroker, hsent⟩ := ticks_of_le hempty hok hk
  rw [Store.tickets_pending_resetScheduled] at hsent
  rw [hbroker, hready, List.nil_append, Ticket.filter_idOf?_map_text, Store.filter_sent_id hs hsent hj]
  split <;> rfl

/-- An engine that takes up one job at a time, the most urgent of those that are queued first. -/
def oneAtATime : Engine :=
  ⟨.builtin, (Settings.engineConfig {}).withBatchSize 1, .ofKind .priority, "priority", none⟩

/-- A job that was scheduled and has lost its message, one that is pending and one that is running; the
policy that is wanted is not the one that the engine begins with. -/
def leftBehind : Shared where
  store := ⟨[(NewJob.oneShot.record (.ofNat 1) ⟨0, 0⟩).claimed ⟨3, 0⟩,
    NewJob.oneShot.record (.ofNat 2) ⟨1, 0⟩,
    ((NewJob.oneShot.record (.ofNat 3) ⟨2, 0⟩).claimed ⟨3, 0⟩).started ⟨4, 0⟩]⟩
  broker := { policy := some "sjf" }

/-- A moment at which both services answer. -/
def answering (second : Nat) : Moment := ⟨⟨second, 0⟩, .nil, none, none⟩

/-- Two ticks send the jobs that waited, each once, and leave the running one alone. -/
theorem sent_of_leftBehind :
    oneAtATime.queued = 0 ∧ leftBehind.store.Distinct ∧ (answering 8).Answers ∧
    leftBehind.broker.ready = [] ∧ ∃ sh₀ : Shared,
      recover (answering 8).services leftBehind = (.ok 1, sh₀) ∧
      sh₀.store.countIn .pending = 2 ∧
      (∀ r ∈ (oneAtATime.ticks [answering 9, answering 10] sh₀).1, r.isOk = true) ∧
      (oneAtATime.ticks [answering 9, answering 10] sh₀).2.2.store.jobs.map Job.status
        = [.scheduled, .scheduled, .running] ∧
      ∃ sent : List Ticket, sent.length = 2 ∧
        (oneAtATime.ticks [answering 9, answering 10] sh₀).2.2.broker.ready
          = sent.map Ticket.text := by
  have he : oneAtATime.queued = 0 := rfl
  have hs : leftBehind.store.Distinct := by
    show (leftBehind.store.jobs.map Job.id).Nodup
    decide +kernel
  have hm : (answering 8).Answers := ⟨rfl, rfl⟩
  have hms : ∀ n ∈ [answering 9, answering 10], n.Answers := by
    simp [answering, Moment.Answers]
  obtain ⟨-, hempty⟩ := restart_complete he hs hm
  obtain ⟨sh₀, hrecover, hsh₀, hticks⟩ := hempty rfl
  obtain ⟨hiff, hall⟩ := hticks [answering 9, answering 10]
  have hok := hiff.mpr hms
  have hcount : sh₀.store.countIn .pending = 2 := by
    rw [hsh₀]
    decide +kernel
  obtain ⟨hrecords, sent, hbroker, hsent, -⟩ := hall hok (by rw [hcount]; decide)
  refine ⟨he, hs, hm, rfl, sh₀, hrecover, hcount, hok, ?_, sent, ?_, by rw [hbroker]⟩
  · generalize (oneAtATime.ticks [answering 9, answering 10] sh₀).2.2.store.jobs = jobs at hrecords ⊢
    obtain _ | ⟨hfirst, _ | ⟨hsecond, _ | ⟨hthird, _ | _⟩⟩⟩ := hrecords
    rw [if_pos (by decide)] at hfirst hsecond
    rw [if_neg (by decide)] at hthird
    obtain ⟨_, -, rfl⟩ := hfirst
    obtain ⟨_, -, rfl⟩ := hsecond
    obtain rfl := hthird
    rfl
  · rw [hsent.length_eq]
    decide +kernel

end Engine

end JobDispatch
