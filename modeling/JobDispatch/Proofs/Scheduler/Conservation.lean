import JobDispatch.Proofs.Job.Texts
import JobDispatch.Proofs.Replacement
import JobDispatch.Proofs.Scheduler.Effect
import JobDispatch.Proofs.Store.Claims

/-!
# Claimed jobs are neither lost nor duplicated

A claimed job is held by the policy of the engine that has claimed it until its message is sent.  So at
any time the messages that the engines have sent and the tickets that they still hold are together the
tickets of all jobs claimed so far, each as often as the job was claimed.  This needs no service to be
reachable: an engine lets go of a ticket only when its message has been sent, and a switch of policy
moves all tickets.  Claims are read off the records of the store and messages off the ready queue.

## Main definitions

* `Scheduler.held` — the tickets that the engines hold.
* `Step.claims` — the records that go from pending to scheduled in a step.
* `Step.pushed` — the messages that an engine puts on the ready queue in a step.
* `Step.Balanced` — what is sent and held after a step is what was held and claimed.

## Main results

* `Execution.quiet_step` — an execution claims nothing, whatever it knows of its job.
* `Scheduler.exists_balanced` — **every step is balanced.**
* `Scheduler.balance_run` — along every run, what is sent and held is what was held at first and claimed.
* `Scheduler.ids_run` — along every run, the ids that messages carry are those of the claims.
* `Scheduler.claims_conserved` — **of engines that begin with nothing, messages and tickets held are the
  claims.**
-/

namespace JobDispatch

/-! ### Who claims nothing -/

/-- An operation on a single job claims nothing, whether or not the store can be reached. -/
theorem Moment.quiet_services_store {m : Moment} {sh : Shared} (hs : sh.store.Distinct) {α : Type}
    {call : StoreCall α} {id : JobId} (h : call.subject? = some id) :
    sh.store.Quiet (m.services.store call sh).2.store := by
  cases hm : m.storeOutage with
  | some reason =>
    simp only [services, onStore, hm]
    exact Store.quiet_refl hs
  | none =>
    rw [services_store hm]
    exact Store.quiet_perform_of_subject hs h m.now m.fresh

/-- **An execution claims nothing**, whatever it knows of its job. -/
theorem Execution.quiet_step (m : Moment) {sh : Shared} (hs : sh.store.Distinct) (x : Execution)
    (handlers : List String) : sh.store.Quiet (x.step m.services handlers sh).2.store := by
  rw [shared_step]
  cases x with
  | loading i => exact Moment.quiet_services_store hs rfl
  | starting job => exact Moment.quiet_services_store hs rfl
  | working job => exact Store.quiet_refl hs
  | completing i result elapsed => exact Moment.quiet_services_store hs rfl
  | recovering e rec =>
    cases rec with
    | loading i error => exact Moment.quiet_services_store hs rfl
    | givingBack i error n max => exact Moment.quiet_services_store hs rfl
    | exhausting job error n => exact Moment.quiet_services_store hs rfl
    | burying job error n =>
      rw [sharedAfter, Moment.services_broker_store]
      exact Store.quiet_refl hs
    | finished result => exact Store.quiet_refl hs
  | finished outcome => exact Store.quiet_refl hs

namespace Scheduler

variable {s : Scheduler} {e : Event}

/-- The tickets that the engines hold, in no particular order. -/
def held (s : Scheduler) : List Ticket := s.engines.flatMap EngineLoop.tickets

/-- **A step that is not an engine's claims nothing** and leaves the engines alone. -/
theorem quiet_step_of_ne_tick (hs : s.shared.store.Distinct) (hm : ∀ i, e.move ≠ .tick i) :
    s.shared.store.Quiet (s.step e).shared.store ∧ (s.step e).engines = s.engines := by
  have h := step_effect s e hs
  generalize s.step e = s' at h
  cases h with
  | submitted new hv hfresh => exact ⟨Store.quiet_insert hs hfresh new _, rfl⟩
  | ticked i l l' sh hmove hl ha => exact absurd hmove (hm i)
  | proceeded i r r' sh hmove hr ha =>
    cases ha with
    | kept => exact ⟨Store.quiet_refl hs, rfl⟩
    | reset => exact ⟨Store.quiet_resetScheduled hs, rfl⟩
  | executed k d hmove hd => exact ⟨d.execution.quiet_step e.moment hs d.handlers, rfl⟩
  | pursued i c c' sh hmove hc ha =>
    cases ha with
    | made id j _ hj hcan => exact ⟨Store.quiet_put hs (by simp), rfl⟩
    | _ => exact ⟨Store.quiet_refl hs, rfl⟩
  | _ => exact ⟨Store.quiet_refl hs, rfl⟩

end Scheduler

/-! ### One step -/

namespace Step

/-- The records that go from pending to scheduled in a step, as they are after it. -/
def claims (p : Step) : List Job := p.before.shared.store.claims p.after.shared.store

/-- The messages that an engine puts on the ready queue in a step, behind those that are there. -/
def pushed (p : Step) : List String :=
  match p.event.move with
  | .tick _ => p.after.shared.broker.ready.drop p.before.shared.broker.ready.length
  | _ => []

/-- Some tickets are sent in a step: with what is held after it they are what was held before it and
what is claimed in it. -/
structure Balanced (p : Step) (sent : List Ticket) : Prop where
  /-- An engine only adds to the ready queue. -/
  added : ∀ i, p.event.move = .tick i →
    p.after.shared.broker.ready = p.before.shared.broker.ready ++ sent.map Ticket.text
  pushed_eq : p.pushed = sent.map Ticket.text
  balance : (sent ++ p.after.held).Perm (p.before.held ++ p.claims.map Job.ticket)

/-- What an engine adds to the ready queue is what it pushes. -/
theorem pushed_of_tick {p : Step} {i : Nat} (hm : p.event.move = .tick i) {ts : List String}
    (h : p.after.shared.broker.ready = p.before.shared.broker.ready ++ ts) : p.pushed = ts := by
  rw [pushed, hm]
  simp only [h, List.drop_left]

theorem pushed_of_ne_tick {p : Step} (hm : ∀ i, p.event.move ≠ .tick i) : p.pushed = [] := by
  unfold pushed
  split
  · next i h => exact absurd h (hm i)
  · rfl

/-- In a step of an engine the ready queue says what is sent. -/
theorem Balanced.of_tick {p : Step} {i : Nat} (hm : p.event.move = .tick i) {sent : List Ticket}
    (h : p.after.shared.broker.ready = p.before.shared.broker.ready ++ sent.map Ticket.text)
    (hb : (sent ++ p.after.held).Perm (p.before.held ++ p.claims.map Job.ticket)) :
    p.Balanced sent where
  added := fun _ _ => h
  pushed_eq := pushed_of_tick hm h
  balance := hb

/-- Where nothing is claimed, what is sent and held is what was held. -/
theorem perm_of_quiet {p : Step} (hq : p.before.shared.store.Quiet p.after.shared.store)
    {sent : List Ticket} (hb : (sent ++ p.after.held).Perm p.before.held) :
    (sent ++ p.after.held).Perm (p.before.held ++ p.claims.map Job.ticket) := by
  rw [claims, hq.claims_eq_nil, List.map_nil, List.append_nil]
  exact hb

end Step

namespace Scheduler

variable {s : Scheduler} {e : Event}

/-- A step of an engine is balanced. -/
theorem exists_balanced_tick (hs : s.shared.store.Distinct) {i : Nat} (hm : e.move = .tick i) :
    (s.step e).shared.store.Distinct ∧ ∃ sent, (Step.mk s e (s.step e)).Balanced sent := by
  have hstep : s.step e = s.tick e.moment i := by rw [step, hm]
  rw [hstep, tick]
  cases hl : s.engines[i]? with
  | none =>
    refine ⟨hs, [], .of_tick hm (List.append_nil _).symm ?_⟩
    exact Step.perm_of_quiet (Store.quiet_refl hs) (List.Perm.refl _)
  | some l =>
    have ha := l.step_advance e.moment s.shared
    simp only
    generalize l.step e.moment.services s.shared = next at ha
    obtain ⟨l', sh⟩ := next
    have hset := perm_flatMap_set hl EngineLoop.tickets l'
    simp only at ha ⊢
    cases ha with
    | kept _ _ hperm =>
      refine ⟨hs, [], .of_tick hm (List.append_nil _).symm ?_⟩
      refine Step.perm_of_quiet (Store.quiet_refl hs) ?_
      -- the engine holds what it held
      exact (List.perm_append_left_iff l.tickets).mp (hset.trans (hperm.append_right _))
    | claimed _ _ limit hphase hperm =>
      refine ⟨hs.claimPending limit e.moment.now, [], .of_tick hm (List.append_nil _).symm ?_⟩
      have hclaims := (Store.perm_claims_claimPending hs limit e.moment.now).map Job.ticket
      have hmore := hset.trans (hperm.append_right s.held)
      rw [List.append_assoc] at hmore
      have hall := hmore.trans (List.perm_append_comm_assoc _ _ _)
      have hafter := (List.perm_append_left_iff l.tickets).mp hall
      exact hafter.trans (List.perm_append_comm.trans (hclaims.symm.append_left _))
    | sent _ _ t hperm =>
      refine ⟨hs, [t], .of_tick hm rfl ?_⟩
      refine Step.perm_of_quiet (Store.quiet_refl hs) ?_
      -- what the engine holds no more is the ticket that is sent
      have hall := (hperm.symm.append_right _).trans hset
      rw [List.cons_append] at hall
      exact (List.perm_append_left_iff l'.tickets).mp (List.perm_middle.trans hall)

/-- **Every step is balanced**, and keeps the ids of the store distinct. -/
theorem exists_balanced (hs : s.shared.store.Distinct) (e : Event) :
    (s.step e).shared.store.Distinct ∧ ∃ sent, (Step.mk s e (s.step e)).Balanced sent := by
  by_cases hm : ∃ i, e.move = .tick i
  · obtain ⟨i, hm⟩ := hm
    exact exists_balanced_tick hs hm
  · have hne : ∀ i, e.move ≠ .tick i := fun i h => hm ⟨i, h⟩
    obtain ⟨hquiet, hengines⟩ := quiet_step_of_ne_tick hs hne
    have hheld : (s.step e).held = s.held := by rw [held, held, hengines]
    refine ⟨hquiet.distinct, [], fun i h => absurd h (hne i), Step.pushed_of_ne_tick hne, ?_⟩
    refine Step.perm_of_quiet hquiet ?_
    exact List.Perm.of_eq hheld

/-! ### Runs -/

/-- **Along every run, what is sent and held is what was held at first and claimed.** -/
theorem balance_run (hs : s.shared.store.Distinct) (es : List Event) :
    (∀ p ∈ s.trail es, ∀ i, p.event.move = .tick i →
      p.after.shared.broker.ready = p.before.shared.broker.ready ++ p.pushed) ∧
    ∃ sent : List Ticket, sent.map Ticket.text = (s.trail es).flatMap Step.pushed ∧
      (sent ++ (s.run es).held).Perm
        (s.held ++ ((s.trail es).flatMap Step.claims).map Job.ticket) := by
  -- a run begins with its first step, so the state must stay general
  induction es generalizing s with
  | nil =>
    refine ⟨fun p hp => (List.not_mem_nil hp).elim, [], rfl, ?_⟩
    rw [trail, List.flatMap_nil, List.map_nil, List.append_nil]
    exact List.Perm.refl _
  | cons e es ih =>
    obtain ⟨hs', first, hfirst⟩ := exists_balanced hs e
    obtain ⟨hadded, rest, hpushed, hrest⟩ := ih hs'
    refine ⟨?_, first ++ rest, ?_, ?_⟩
    · intro p hp
      rcases List.mem_cons.mp hp with rfl | hp
      · rw [hfirst.pushed_eq]
        exact hfirst.added
      · exact hadded p hp
    · rw [trail, List.flatMap_cons, hfirst.pushed_eq, List.map_append, hpushed]
    · rw [run_cons, trail, List.flatMap_cons, List.map_append, List.append_assoc]
      have hlater := hrest.append_left first
      rw [← List.append_assoc first (s.step e).held] at hlater
      have hnow := hfirst.balance.append_right (((s.step e).trail es).flatMap Step.claims |>.map
        Job.ticket)
      rw [List.append_assoc s.held] at hnow
      exact hlater.trans hnow

/-- **Along every run, the ids that sent messages carry and those of the tickets held are those of the
claims**, together with what was held at first. -/
theorem ids_run (hs : s.shared.store.Distinct) (es : List Event) :
    (((s.trail es).flatMap Step.pushed).filterMap Ticket.idOf? ++ (s.run es).held.map Ticket.jobId).Perm
      (s.held.map Ticket.jobId ++ ((s.trail es).flatMap Step.claims).map Job.id) := by
  obtain ⟨-, sent, hpushed, hbalance⟩ := balance_run hs es
  have hids := hbalance.map Ticket.jobId
  rw [List.map_append, List.map_append, List.map_map] at hids
  rw [← hpushed, Ticket.filterMap_idOf?_map_text]
  exact hids

end Scheduler

/-- An engine that has just been created holds nothing. -/
theorem Engine.tickets_of_create {registry : PolicyRegistry} {config : EngineConfig} {e : Engine}
    (h : create registry config = .ok e) : e.policy.tickets = [] := by
  unfold create at h
  cases hp : registry.create config.defaultPolicy with
  | error problem =>
    rw [hp] at h
    cases h
  | ok policy =>
    rw [hp] at h
    obtain rfl := Except.ok.inj h
    exact PolicyRegistry.tickets_of_create hp

/-- An engine with the built-in policies and the standard settings. -/
def Engine.standard : Engine := ⟨.builtin, Settings.engineConfig {}, .ofKind .fcfs, "fcfs", none⟩

theorem Engine.create_standard :
    create .builtin (Settings.engineConfig {}) = .ok standard := by rfl

namespace Scheduler

/-- **Of engines that begin with nothing, the messages sent and the tickets held are the claims.**  The
store and the broker may hold anything at first and may be out of reach at any time; any policy may be
wanted at any time, and any other party may take steps in between. -/
theorem claims_conserved (s : Scheduler) (hs : s.shared.store.Distinct)
    (hnew : ∀ l ∈ s.engines, Engine.create l.engine.registry l.engine.config = .ok l.engine)
    (es : List Event) :
    (∀ p ∈ s.trail es, ∀ i, p.event.move = .tick i →
      p.after.shared.broker.ready = p.before.shared.broker.ready ++ p.pushed) ∧
    (∃ sent : List Ticket, sent.map Ticket.text = (s.trail es).flatMap Step.pushed ∧
      (sent ++ (s.run es).held).Perm (((s.trail es).flatMap Step.claims).map Job.ticket)) ∧
    ((s.run es).held = [] → ((s.trail es).flatMap Step.pushed).Perm
      (((s.trail es).flatMap Step.claims).map fun j => j.ticket.text)) := by
  have hheld : s.held = [] := by
    refine List.flatMap_eq_nil_iff.mpr fun l hl => ?_
    exact Engine.tickets_of_create (hnew l hl)
  obtain ⟨hadded, sent, hpushed, hbalance⟩ := balance_run hs es
  rw [hheld, List.nil_append] at hbalance
  refine ⟨hadded, ⟨sent, hpushed, hbalance⟩, fun hnone => ?_⟩
  rw [hnone, List.append_nil] at hbalance
  have htexts := hbalance.map Ticket.text
  rwa [hpushed, List.map_map] at htexts

/-- A job is claimed and its message cannot be sent; another policy takes it over; a second engine
claims and sends another job, and the first one sends its own. -/
def switchedOnce : List Event :=
  claimedOnce ++ [⟨⟨⟨3, 0⟩, .nil, none, some "down"⟩, .tick 0⟩, (Move.tick 0).at 4,
    (Move.wish "priority").at 5, (Move.tick 0).at 6, (Move.tick 0).at 7,
    ⟨⟨⟨8, 0⟩, ⟨1⟩, none, none⟩, .submit .oneShot⟩, (Move.tick 1).at 9, (Move.tick 1).at 10,
    (Move.tick 1).at 11, (Move.tick 0).at 12]

/-- Each of two claims has become one message, though the first could not be sent at once. -/
theorem pushed_of_switchedOnce :
    (start [.standard, .standard]).shared.store.Distinct ∧
      (∀ l ∈ (start [.standard, .standard]).engines,
        Engine.create l.engine.registry l.engine.config = .ok l.engine) ∧
      (((start [.standard, .standard]).trail switchedOnce).flatMap Step.claims).length = 2 ∧
      (((start [.standard, .standard]).trail switchedOnce).flatMap Step.pushed).Perm
        ((((start [.standard, .standard]).trail switchedOnce).flatMap Step.claims).map
          fun j => j.ticket.text) := by
  have hs : (start [.standard, .standard]).shared.store.Distinct := List.nodup_nil
  have hnew : ∀ l ∈ (start [.standard, .standard]).engines,
      Engine.create l.engine.registry l.engine.config = .ok l.engine := by
    intro l hl
    simp only [start, List.map_cons, List.map_nil, List.mem_cons, List.not_mem_nil, or_false,
      or_self] at hl
    rw [hl]
    exact Engine.create_standard
  have hclaims : (((start [.standard, .standard]).trail switchedOnce).flatMap Step.claims).length
      = 2 := by decide +kernel
  have hnone : ((start [.standard, .standard]).run switchedOnce).held = [] :=
    List.eq_nil_of_length_eq_zero (by decide +kernel)
  obtain ⟨-, -, hall⟩ := claims_conserved (start [.standard, .standard]) hs hnew switchedOnce
  exact ⟨hs, hnew, hclaims, hall hnone⟩

end Scheduler

end JobDispatch
