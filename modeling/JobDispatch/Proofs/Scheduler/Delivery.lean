import JobDispatch.Proofs.Job.Texts
import JobDispatch.Proofs.Scheduler.Conservation
import JobDispatch.Proofs.Scheduler.Submissions

/-!
# What becomes of an accepted submission's message

A submission is accepted whatever its payload is, as long as that is an object, but its message can be
read only if the payload is not nested too deep: the message is one level around it, and reading stops
at `Document.maxDepth`.  Nothing else keeps the message of an accepted submission from being read, but
a payload that marks one of its objects as the value of a text.  Since no operation changes what a job
was made from, the messages that engines send are those of the records that are stored, at any time.

## Main definitions

* `Store.tickets` — the tickets of all records.
* `Ticket.Accepted` — what validation guarantees of the ticket of a submission.
* `Scheduler.Projected` — every message and every ticket held is that of a record or was put in by hand.
* `Scheduler.Genuine` — the same, of records whose payloads can be held.

## Main results

* `Scheduler.tickets_step`, `Scheduler.mem_messages_step` — where tickets and messages come from.
* `Scheduler.Projected.step`, `Scheduler.Genuine.step` — **every step keeps them those of records.**
* `Scheduler.exists_job_of_message` — a message says everything about the ticket of its record.
* `Scheduler.delivered_iff_shallow` — **the message of an accepted job is read if and only if its
  payload is nested at most 126 deep.**
* `Scheduler.stranded_of_deepOnce` — an accepted job that stays scheduled because its message cannot be
  read.
-/

namespace JobDispatch

/-! ### The tickets of a store -/

namespace Store

variable {s : Store}

/-- The tickets of all records, in the order of insertion. -/
def tickets (s : Store) : List Ticket := s.jobs.map Job.ticket

theorem mem_tickets {t : Ticket} : t ∈ s.tickets ↔ ∃ j ∈ s.jobs, j.ticket = t := List.mem_map

/-- The tickets are those of what the records were made from. -/
theorem tickets_eq (s : Store) : s.tickets = s.submissions.map fun u => u.record.ticket := by
  rw [tickets, submissions, List.map_map]
  rfl

end Store

/-! ### Where messages come from -/

/-- What validation guarantees of the ticket of a submission whose payload can be held. -/
structure Ticket.Accepted (t : Ticket) : Prop where
  finite : t.estimatedDuration.isFinite = true
  wellFormed : t.payload.WellFormed
  isObject : t.payload.isObject = true

theorem NewJob.accepted_record {new : NewJob} (hv : new.problem? = none) (hw : new.payload.WellFormed)
    (id : JobId) (now : Timestamp) : (new.record id now).ticket.Accepted := by
  obtain ⟨-, -, -, ⟨hfinite, -⟩, -, hobject⟩ := (new.problem?_eq_none_iff).mp hv
  exact ⟨hfinite, hw, hobject⟩

/-- The message that a move puts in by hand. -/
def Move.injected? : Move → Option String
  | inject message => some message
  | _ => none

namespace Scheduler

/-- The messages that are put in by hand. -/
def injected (es : List Event) : List String := es.filterMap fun e => e.move.injected?

/-- The messages on the ready queue and those that were taken off it and could not be read. -/
def messages (s : Scheduler) : List String := s.shared.broker.ready ++ s.discarded

variable {s : Scheduler} {e : Event}

/-- **A step adds the ticket of a valid submission, or changes no ticket.** -/
theorem tickets_step (s : Scheduler) (e : Event) :
    (s.step e).shared.store.tickets = s.shared.store.tickets ∨
      ∃ u : Submission, e.move = .submit u.new ∧ u.new.problem? = none ∧
        (s.step e).shared.store.tickets = s.shared.store.tickets ++ [u.record.ticket] := by
  rw [Store.tickets_eq, Store.tickets_eq, submissions_step, List.map_append]
  cases hu : (Step.mk s e (s.step e)).submission? with
  | none => exact Or.inl (List.append_nil _)
  | some u =>
    obtain ⟨hm, hv, -⟩ := of_submission? hu
    exact Or.inr ⟨u, hm, hv, rfl⟩

/-- A ticket that is stored stays. -/
theorem mem_tickets_step {t : Ticket} (ht : t ∈ s.shared.store.tickets) (e : Event) :
    t ∈ (s.step e).shared.store.tickets := by
  rcases tickets_step s e with hsame | ⟨u, -, -, hnew⟩
  · rwa [hsame]
  · rw [hnew]
    exact List.mem_append_left _ ht

/-- A message that is taken is on the queue no more, and one that cannot be read is discarded. -/
theorem mem_messages_take {m : String} {handlers : List String} {timeout : Span}
    (h : m ∈ (s.take e.moment handlers timeout).messages) : m ∈ s.messages := by
  cases ho : e.moment.brokerOutage with
  | some reason =>
    simp only [take, Moment.services_broker_outage ho, receive] at h
    exact h
  | none =>
    simp only [take, Moment.services_broker ho, Broker.perform_popReady] at h
    cases hr : s.shared.broker.ready with
    | nil =>
      simp only [Broker.popReady_nil hr, receive] at h
      exact h
    | cons message rest =>
      rw [Broker.popReady_cons hr] at h
      rw [messages, hr]
      cases ht : Ticket.ofMessage message with
      | ok t =>
        rw [ht] at h
        exact List.mem_cons_of_mem message h
      | error problem =>
        obtain rfl := Ticket.ofMessage_error ht
        rw [ht] at h
        have h : m ∈ rest ++ (s.discarded ++ [message]) := h
        rw [← List.append_assoc, List.mem_append, List.mem_singleton] at h
        rcases h with h | rfl
        · exact List.mem_cons_of_mem message h
        · exact List.mem_cons_self

/-- Messages come and go only where an engine works, a text is put in or a message is taken. -/
theorem messages_step_of_others (hi : ∀ message, e.move ≠ .inject message)
    (ht : ∀ i, e.move ≠ .tick i) (hk : ∀ handlers timeout, e.move ≠ .take handlers timeout) :
    (s.step e).messages = s.messages := by
  rw [step]
  cases hm : e.move with
  | submit new =>
    simp only [submit]
    split
    · rfl
    · rcases e.moment.shared_submit new s.shared with hsame | ⟨-, hnew⟩
      · rw [hsame]
      · rw [hnew]
        rfl
  | wish name =>
    simp only
    cases ho : e.moment.brokerOutage with
    | some reason => rw [Moment.services_broker_outage ho]
    | none =>
      rw [Moment.services_broker ho]
      rfl
  | inject message => exact absurd hm (hi message)
  | tick i => exact absurd hm (ht i)
  | proceed i =>
    simp only [proceed]
    cases s.recoveries[i]? with
    | none => rfl
    | some r => simp only [messages, r.broker_step e.moment s.shared]
  | take handlers timeout => exact absurd hm (hk handlers timeout)
  | execute k =>
    simp only [execute]
    cases s.deliveries[k]? with
    | none => rfl
    | some d => simp only [messages, Execution.ready_step]
  | conclude k outcome elapsed =>
    simp only [conclude]
    cases s.deliveries[k]? <;> rfl
  | pursue i =>
    simp only [pursue]
    cases s.cancellations[i]? with
    | none => rfl
    | some c => simp only [messages, c.broker_step e.moment s.shared]
  | recover => rfl
  | hand handlers t => rfl
  | cancel id => rfl

/-- An engine sends what it pushes. -/
theorem mem_messages_tick (hs : s.shared.store.Distinct) {i : Nat} (hm : e.move = .tick i) {m : String}
    (h : m ∈ (s.step e).messages) : m ∈ s.messages ∨ m ∈ (Step.mk s e (s.step e)).pushed := by
  obtain ⟨-, sent, hsent⟩ := exists_balanced hs e
  have hready := hsent.added i hm
  rw [← hsent.pushed_eq] at hready
  have hready : (s.step e).shared.broker.ready
      = s.shared.broker.ready ++ (Step.mk s e (s.step e)).pushed := hready
  have hdiscarded : (s.step e).discarded = s.discarded := by
    rw [step, hm]
    simp only [tick]
    cases s.engines[i]? <;> rfl
  rw [messages, hready, hdiscarded, List.append_assoc, List.mem_append, List.mem_append] at h
  rcases h with h | h | h
  · exact Or.inl (List.mem_append_left _ h)
  · exact Or.inr h
  · exact Or.inl (List.mem_append_right _ h)

/-- **A message comes from an engine or is put in by hand.** -/
theorem mem_messages_step (hs : s.shared.store.Distinct) {m : String} (h : m ∈ (s.step e).messages) :
    m ∈ s.messages ∨ m ∈ (Step.mk s e (s.step e)).pushed ∨ e.move.injected? = some m := by
  by_cases hi : ∃ message, e.move = .inject message
  · obtain ⟨message, hm⟩ := hi
    simp only [step, hm, messages, Broker.ready_pushRaw, List.append_assoc, List.mem_append,
      List.mem_singleton] at h
    rcases h with hready | rfl | hdiscarded
    · exact Or.inl (List.mem_append_left _ hready)
    · exact Or.inr (Or.inr (by rw [hm]; rfl))
    · exact Or.inl (List.mem_append_right _ hdiscarded)
  by_cases ht : ∃ i, e.move = .tick i
  · obtain ⟨i, hm⟩ := ht
    exact (mem_messages_tick hs hm h).imp_right Or.inl
  by_cases hk : ∃ handlers timeout, e.move = .take handlers timeout
  · obtain ⟨handlers, timeout, hm⟩ := hk
    simp only [step, hm] at h
    exact Or.inl (mem_messages_take h)
  rw [messages_step_of_others (fun message hm => hi ⟨message, hm⟩) (fun i hm => ht ⟨i, hm⟩)
    fun handlers timeout hm => hk ⟨handlers, timeout, hm⟩] at h
  exact Or.inl h

/-! ### Tickets and messages of records -/

/-- **Every ticket held and every message is that of a record**, but for the messages `byHand`. -/
structure Projected (byHand : List String) (s : Scheduler) : Prop where
  distinct : s.shared.store.Distinct
  held : ∀ t ∈ s.held, t ∈ s.shared.store.tickets
  messages : ∀ m ∈ s.messages, m ∈ byHand ∨ ∃ t ∈ s.shared.store.tickets, m = t.text

variable {byHand : List String}

/-- **What an engine sends in a step is the ticket of a record**, as is what it holds afterwards: it was
held before or is claimed in the step. -/
theorem Projected.sent (h : s.Projected byHand) (e : Event) :
    (∀ m ∈ (Step.mk s e (s.step e)).pushed, ∃ t ∈ (s.step e).shared.store.tickets, m = t.text) ∧
      ∀ t ∈ (s.step e).held, t ∈ (s.step e).shared.store.tickets := by
  obtain ⟨-, sent, hsent⟩ := exists_balanced h.distinct e
  have hall : ∀ t ∈ sent ++ (s.step e).held, t ∈ (s.step e).shared.store.tickets := by
    intro t ht
    rcases List.mem_append.mp (hsent.balance.mem_iff.mp ht) with hheld | hclaim
    · exact mem_tickets_step (h.held t hheld) e
    · obtain ⟨j, hj, rfl⟩ := List.mem_map.mp hclaim
      exact Store.mem_tickets.mpr ⟨j, (Store.mem_claims.mp hj).1, rfl⟩
  refine ⟨fun m hm => ?_, fun t ht => hall t (List.mem_append_right _ ht)⟩
  rw [hsent.pushed_eq] at hm
  obtain ⟨t, ht, rfl⟩ := List.mem_map.mp hm
  exact ⟨t, hall t (List.mem_append_left _ ht), rfl⟩

/-- **Every step keeps tickets and messages those of records.** -/
theorem Projected.step (h : s.Projected byHand) (hb : ∀ m, e.move.injected? = some m → m ∈ byHand) :
    (s.step e).Projected byHand where
  distinct := (exists_balanced h.distinct e).1
  held := (h.sent e).2
  messages := by
    intro m hm
    rcases mem_messages_step h.distinct hm with hkept | hpushed | hinjected
    · rcases h.messages m hkept with hby | ⟨t, ht, htext⟩
      · exact Or.inl hby
      · exact Or.inr ⟨t, mem_tickets_step ht e, htext⟩
    · exact Or.inr ((h.sent e).1 m hpushed)
    · exact Or.inl (hb m hinjected)

/-- Engines that have just been created hold nothing. -/
theorem projected_start {engines : List Engine}
    (hnew : ∀ e ∈ engines, Engine.create e.registry e.config = .ok e) (byHand : List String) :
    (start engines).Projected byHand where
  distinct := List.nodup_nil
  held := by
    intro t ht
    obtain ⟨l, hl, ht⟩ := List.mem_flatMap.mp ht
    obtain ⟨e, he, rfl⟩ := List.mem_map.mp hl
    rw [EngineLoop.tickets, Engine.tickets_of_create (hnew e he)] at ht
    exact absurd ht List.not_mem_nil
  messages := fun _ hm => absurd hm List.not_mem_nil

/-- Along every run tickets and messages are those of records, and so is what engines send. -/
theorem Projected.run (h : s.Projected byHand) {es : List Event} (hb : ∀ m ∈ injected es, m ∈ byHand) :
    (s.run es).Projected byHand ∧
      (∀ t ∈ s.shared.store.tickets, t ∈ (s.run es).shared.store.tickets) ∧
      ∀ m ∈ (s.trail es).flatMap Step.pushed, ∃ t ∈ (s.run es).shared.store.tickets, m = t.text := by
  -- a run begins with its first step, so the state must stay general
  induction es generalizing s with
  | nil => exact ⟨h, fun _ ht => ht, fun _ hm => absurd hm List.not_mem_nil⟩
  | cons e es ih =>
    have hfirst : (s.step e).Projected byHand :=
      h.step fun m hm => hb m (List.mem_filterMap.mpr ⟨e, List.mem_cons_self, hm⟩)
    obtain ⟨hrun, hkept, hpushed⟩ := ih hfirst fun m hm => hb m (by
      obtain ⟨f, hf, hm⟩ := List.mem_filterMap.mp hm
      exact List.mem_filterMap.mpr ⟨f, List.mem_cons_of_mem e hf, hm⟩)
    refine ⟨hrun, fun t ht => hkept t (mem_tickets_step ht e), fun m hm => ?_⟩
    rw [trail, List.flatMap_cons, List.mem_append] at hm
    rcases hm with hm | hm
    · obtain ⟨t, ht, htext⟩ := (h.sent e).1 m hm
      exact ⟨t, hkept t ht, htext⟩
    · exact hpushed m hm

/-! ### Genuine messages -/

/-- **Every message and every ticket held is that of an accepted record**, but for the messages
`byHand`. -/
structure Genuine (byHand : List String) (s : Scheduler) : Prop where
  distinct : s.shared.store.Distinct
  accepted : ∀ t ∈ s.shared.store.tickets, t.Accepted
  held : ∀ t ∈ s.held, t ∈ s.shared.store.tickets
  messages : ∀ m ∈ s.messages, m ∈ byHand ∨ ∃ t ∈ s.shared.store.tickets, m = t.text

theorem Genuine.projected (h : s.Genuine byHand) : s.Projected byHand :=
  ⟨h.distinct, h.held, h.messages⟩

theorem Projected.genuine (h : s.Projected byHand) (ha : ∀ t ∈ s.shared.store.tickets, t.Accepted) :
    s.Genuine byHand :=
  ⟨h.distinct, ha, h.held, h.messages⟩

/-- **Every step keeps messages genuine.** -/
theorem Genuine.step (h : s.Genuine byHand) (hb : ∀ m, e.move.injected? = some m → m ∈ byHand)
    (hw : ∀ new, e.move = .submit new → new.payload.WellFormed) : (s.step e).Genuine byHand := by
  refine (h.projected.step hb).genuine fun t ht => ?_
  rcases tickets_step s e with hsame | ⟨u, hm, hv, hnew⟩
  · exact h.accepted t (hsame ▸ ht)
  · rcases List.mem_append.mp (hnew ▸ ht) with ht | ht
    · exact h.accepted t ht
    · rw [List.mem_singleton.mp ht]
      exact NewJob.accepted_record hv (hw u.new hm) _ _

/-! ### Runs -/

/-- At the start there are no messages. -/
theorem genuine_start {engines : List Engine}
    (hnew : ∀ e ∈ engines, Engine.create e.registry e.config = .ok e) (byHand : List String) :
    (start engines).Genuine byHand :=
  (projected_start hnew byHand).genuine fun _ ht => absurd ht List.not_mem_nil

/-- Along a run whose submissions have payloads that can be held, messages stay genuine. -/
theorem Genuine.run (h : s.Genuine byHand) {es : List Event} (hb : ∀ m ∈ injected es, m ∈ byHand)
    (hw : ∀ e ∈ es, ∀ new, e.move = .submit new → new.payload.WellFormed) :
    (s.run es).Genuine byHand ∧ (∀ t ∈ s.shared.store.tickets, t ∈ (s.run es).shared.store.tickets) ∧
      ∀ m ∈ (s.trail es).flatMap Step.pushed, ∃ t ∈ (s.run es).shared.store.tickets, m = t.text := by
  refine ⟨?_, (h.projected.run hb).2⟩
  refine run_induction (Q := fun e => (∀ m, e.move.injected? = some m → m ∈ byHand) ∧
    ∀ new, e.move = .submit new → new.payload.WellFormed) h (fun e he => ⟨fun m hm => ?_, hw e he⟩)
    fun s e hq hs => hs.step hq.1 hq.2
  exact hb m (List.mem_filterMap.mpr ⟨e, he, hm⟩)

/-- **In every run a message says everything about the ticket of its record**, unless it was put in by
hand: no other ticket of an accepted submission has this message. -/
theorem exists_job_of_message {engines : List Engine}
    (hnew : ∀ e ∈ engines, Engine.create e.registry e.config = .ok e) {es : List Event}
    (hw : ∀ e ∈ es, ∀ new, e.move = .submit new → new.payload.WellFormed) {m : String}
    (hm : m ∈ ((start engines).run es).messages) (hsent : m ∉ injected es) :
    ∃ j ∈ ((start engines).run es).shared.store.jobs, m = j.ticket.text ∧ Ticket.idOf? m = some j.id ∧
      ∀ t : Ticket, t.Accepted → m = t.text →
        t.jobId = j.id ∧ t.jobType = j.jobType ∧ t.priority = j.priority ∧
          t.estimatedDuration = j.estimatedDuration ∧ t.payload = j.payload := by
  obtain ⟨hgenuine, -, -⟩ := (genuine_start hnew (injected es)).run (fun _ hm => hm) hw
  obtain ⟨u, hu, rfl⟩ := (hgenuine.messages m hm).resolve_left hsent
  obtain ⟨j, hj, rfl⟩ := Store.mem_tickets.mp hu
  have haccepted := hgenuine.accepted j.ticket hu
  refine ⟨j, hj, rfl, Ticket.idOf?_text j.ticket, ?_⟩
  intro t ht htext
  rw [← Job.eq_ticket_iff]
  apply Ticket.text_injective ht.finite ht.wellFormed haccepted.finite haccepted.wellFormed
  exact htext.symm

/-- **The message of an accepted job is read if and only if its payload is nested at most 126 deep**,
unless the payload marks an object as the value of a text.  Engines begin with nothing and any policy may
be wanted; any service may be out of reach and any party may take steps at any time.  All messages are
those of records, but for the ones put in by hand: those that engines have sent, those on the ready
queue, and those that were thrown away. -/
theorem delivered_iff_shallow (engines : List Engine)
    (hnew : ∀ e ∈ engines, Engine.create e.registry e.config = .ok e) (es : List Event)
    (hw : ∀ e ∈ es, ∀ new, e.move = .submit new → new.payload.WellFormed) :
    (∀ m ∈ ((start engines).trail es).flatMap Step.pushed,
      ∃ j ∈ ((start engines).run es).shared.store.jobs, m = j.ticket.text) ∧
    (∀ m ∈ ((start engines).run es).messages, m ∈ injected es ∨
      ∃ j ∈ ((start engines).run es).shared.store.jobs, m = j.ticket.text) ∧
    ∀ j ∈ ((start engines).run es).shared.store.jobs, j.payload.Plain →
      ∀ (b : Broker) (rest : List String), b.ready = j.ticket.text :: rest →
        (j.payload.depth ≤ 126 → ∃ t : Ticket, t.jobId = j.id ∧
          b.popReady = (.ok (some t), { b with ready := rest })) ∧
        (126 < j.payload.depth →
          b.popReady = (.error (.decoding j.ticket.text), { b with ready := rest })) := by
  obtain ⟨hgenuine, -, hpushed⟩ := (genuine_start hnew (injected es)).run (fun _ hm => hm) hw
  have hjob : ∀ m : String, (∃ t ∈ ((start engines).run es).shared.store.tickets, m = t.text) →
      ∃ j ∈ ((start engines).run es).shared.store.jobs, m = j.ticket.text := by
    rintro m ⟨t, ht, htext⟩
    obtain ⟨j, hj, rfl⟩ := Store.mem_tickets.mp ht
    exact ⟨j, hj, htext⟩
  refine ⟨fun m hm => hjob m (hpushed m hm), fun m hm => (hgenuine.messages m hm).imp_right (hjob m), ?_⟩
  intro j hj hplain b rest hready
  have haccepted := hgenuine.accepted j.ticket (Store.mem_tickets.mpr ⟨j, hj, rfl⟩)
  have hread := Ticket.ofMessage_text haccepted.wellFormed hplain
  rw [Broker.popReady_cons hready]
  constructor
  · intro hshallow
    rw [if_pos ⟨haccepted.finite, hshallow⟩] at hread
    exact ⟨j.ticket.reread, rfl, by rw [hread]; rfl⟩
  · intro hdeep
    rw [if_neg fun h => absurd h.2 (Nat.not_le.mpr hdeep)] at hread
    rw [hread]
    rfl

/-! ### A payload that is too deep -/

/-- Arrays around one another. -/
def nested : Nat → Json
  | 0 => .array []
  | n + 1 => .array [nested n]

theorem depth_nested (n : Nat) : (nested n).depth = n + 1 := by
  induction n with
  | zero => simp [nested, Json.depth, Json.itemsDepth]
  | succ n ih => simp [nested, Json.depth, Json.itemsDepth, ih]

theorem wellFormed_nested (n : Nat) : (nested n).WellFormed := by
  induction n with
  | zero => simp [nested, Json.WellFormed, Json.ItemsWellFormed]
  | succ n ih => simp [nested, Json.WellFormed, Json.ItemsWellFormed, ih]

theorem plain_nested (n : Nat) : (nested n).Plain := by
  induction n with
  | zero => simp [nested, Json.Plain, Json.ItemsPlain]
  | succ n ih => simp [nested, Json.Plain, Json.ItemsPlain, ih]

/-- A message that cannot be read is thrown away, and nothing else changes. -/
theorem step_take_of_error {message : String} {rest : List String}
    (hr : s.shared.broker.ready = message :: rest)
    (ht : Ticket.ofMessage message = .error (.decoding message)) (handlers : List String)
    (timeout : Span) (n : Nat) : s.step ((Move.take handlers timeout).at n)
      = { s with
          shared := { s.shared with broker := { s.shared.broker with ready := rest } }
          discarded := s.discarded ++ [message] } := by
  have hm : (⟨⟨n, 0⟩, .nil, none, none⟩ : Moment).brokerOutage = none := rfl
  simp only [step, take, Move.at, Moment.services_broker hm, Broker.perform_popReady,
    Broker.popReady_cons hr, ht]
  rfl

/-- A job is submitted, and an engine claims it and sends its message. -/
def sentOnce (new : NewJob) : List Event :=
  [(Move.submit new).at 0, (Move.tick 0).at 1, (Move.tick 0).at 2, (Move.tick 0).at 3]

/-- The record of a job that has just been sent. -/
def sentRecord (new : NewJob) : Job := (new.record .nil ⟨0, 0⟩).claimed ⟨2, 0⟩

/-- A job that keeps the limits is stored, claimed and sent, whatever its payload. -/
theorem run_sentOnce {new : NewJob} (hv : new.problem? = none) :
    (start [.standard]).run (sentOnce new) = { (start [.standard]).run (sentOnce new) with
      shared := { store := ⟨[sentRecord new]⟩, broker := { ready := [(sentRecord new).ticket.text] } }
      deliveries := []
      discarded := [] } := by
  have hfirst : (start [.standard]).step ((Move.submit new).at 0)
      = { start [.standard] with shared := { store := ⟨[new.record .nil ⟨0, 0⟩]⟩ } } := by
    simp [step, Move.at, submit, start, Control.submit, NewJob.submit, hv, Store.find?,
      Moment.services, Moment.onStore, Store.perform, Store.insert]
  rw [sentOnce, run_cons, hfirst]
  with_unfolding_all rfl

end Scheduler

/-- A submission whose payload is one level too deep. -/
def NewJob.deep : NewJob :=
  { NewJob.oneShot with payload := .object [("a", Scheduler.nested 125)] }

/-- The same with one level less. -/
def NewJob.deepest : NewJob :=
  { NewJob.oneShot with payload := .object [("a", Scheduler.nested 124)] }

namespace Scheduler

/-- An executor takes the message of a job whose payload is too deep. -/
def deepOnce : List Event := sentOnce .deep ++ [(Move.take ["report"] Span.zero).at 4]

/-- The deepest payload that is delivered. -/
theorem delivered_of_sentOnce :
    (∀ e ∈ [Engine.standard], Engine.create e.registry e.config = .ok e) ∧
      NewJob.deepest.problem? = none ∧ NewJob.deepest.payload.depth = 126 ∧
      ∃ j ∈ ((start [.standard]).run (sentOnce .deepest)).shared.store.jobs,
        ((start [.standard]).run (sentOnce .deepest)).shared.broker.ready = [j.ticket.text] ∧
        ∃ t : Ticket, t.jobId = j.id ∧
          ((start [.standard]).run (sentOnce .deepest)).shared.broker.popReady.1 = .ok (some t) := by
  have hnew : ∀ e ∈ [Engine.standard], Engine.create e.registry e.config = .ok e := by
    intro e he
    rw [List.mem_singleton.mp he]
    exact Engine.create_standard
  have hwell : ∀ e ∈ sentOnce .deepest, ∀ new, e.move = .submit new → new.payload.WellFormed := by
    intro e he new hm
    simp only [sentOnce, Move.at, List.mem_cons, List.not_mem_nil, or_false] at he
    rcases he with rfl | rfl | rfl | rfl <;> cases hm
    simp [NewJob.deepest, Json.WellFormed, Json.FieldsWellFormed, Dictionary.names,
      Dictionary.Ascending, wellFormed_nested]
  have hplain : NewJob.deepest.payload.Plain := by
    simp [NewJob.deepest, Json.Plain, Json.FieldsPlain, Json.IsMarked, plain_nested,
      Json.Document.embeddingName]
  have hdepth : NewJob.deepest.payload.depth = 126 := by
    simp [NewJob.deepest, Json.depth, Json.fieldsDepth, depth_nested]
  have hvalid : NewJob.deepest.problem? = none := by decide +kernel
  have hrun := run_sentOnce hvalid
  have hready : ((start [.standard]).run (sentOnce .deepest)).shared.broker.ready
      = [(sentRecord .deepest).ticket.text] := by rw [hrun]
  have hj : sentRecord .deepest ∈ ((start [.standard]).run (sentOnce .deepest)).shared.store.jobs := by
    rw [hrun]
    exact List.mem_singleton_self _
  obtain ⟨-, -, hread⟩ := delivered_iff_shallow [.standard] hnew (sentOnce .deepest) hwell
  obtain ⟨t, hid, hpop⟩ := (hread _ hj hplain _ [] hready).1 hdepth.le
  exact ⟨hnew, hvalid, hdepth, _, hj, hready, t, hid, congrArg Prod.fst hpop⟩

/-- **An accepted job whose payload is one level too deep is lost**: its message is thrown away, and the
job stays scheduled. -/
theorem stranded_of_deepOnce :
    NewJob.deep.problem? = none ∧ NewJob.deep.payload.WellFormed ∧ NewJob.deep.payload.Plain ∧
      ((start [.standard]).run deepOnce).status? .nil = some .scheduled ∧
      ((start [.standard]).run deepOnce).shared.broker.ready = [] ∧
      ((start [.standard]).run deepOnce).deliveries.length = 0 ∧
      ((start [.standard]).run deepOnce).discarded
        = [(NewJob.deep.record .nil ⟨0, 0⟩).ticket.text] := by
  have hwell : NewJob.deep.payload.WellFormed := by
    simp [NewJob.deep, Json.WellFormed, Json.FieldsWellFormed, Dictionary.names, Dictionary.Ascending,
      wellFormed_nested]
  have hplain : NewJob.deep.payload.Plain := by
    simp [NewJob.deep, Json.Plain, Json.FieldsPlain, Json.IsMarked, plain_nested,
      Json.Document.embeddingName]
  have hdepth : NewJob.deep.payload.depth = 127 := by
    simp [NewJob.deep, Json.depth, Json.fieldsDepth, depth_nested]
  have hvalid : NewJob.deep.problem? = none := by decide +kernel
  have hread := Ticket.ofMessage_text (t := (sentRecord .deep).ticket) hwell hplain
  rw [if_neg fun h => absurd (hdepth ▸ h.2) (by decide)] at hread
  have hrun := run_sentOnce hvalid
  have hready : ((start [.standard]).run (sentOnce .deep)).shared.broker.ready
      = [(sentRecord .deep).ticket.text] := by rw [hrun]
  rw [deepOnce, run_append, run_cons, run_nil, step_take_of_error hready hread, hrun]
  exact ⟨hvalid, hwell, hplain, rfl, rfl, rfl, rfl⟩

end Scheduler

end JobDispatch
