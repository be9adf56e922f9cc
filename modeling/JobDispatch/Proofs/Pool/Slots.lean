import Mathlib.Data.List.Perm.Basic
import JobDispatch.Execution.Run
import JobDispatch.Pool.Basic
import JobDispatch.Proofs.Job.Messages
import JobDispatch.Proofs.Replacement
import JobDispatch.Proofs.Scheduler.Advance

/-!
# The worker pool keeps its slots and its messages

A pool works at a store and a broker that others use at the same time.  The dispatcher, the executions
in flight, whoever puts messages on the ready queue and whoever asks the pool to end all go their own
way, one step at a time and in any order; a wait for a message can end in any way, and an execution can
end well, fail, be skipped or panic.  However that goes, no slot is lost and no message is lost: a
message leaves the queue only while the dispatcher holds a slot, and each one that can be read is given,
with that slot, to one execution.

## Main definitions

* `Pool.Flight` — an execution in flight, with the ticket that it was given.
* `PoolRun` — a pool at work, with what has become of the messages that it took.
* `PoolMove`, `PoolRun.step` — what can happen next, and what it does.
* `PoolRun.Orderly` — every slot and every message is accounted for.

## Main results

* `PoolRun.step_orderly` — every move keeps the account.
* `PoolRun.free_step` — an execution that is gone frees its slot.
* `PoolRun.ready_step` — a message leaves the queue only while the dispatcher holds a slot.
* `PoolRun.length_taken_step_le` — once it is asked to end, the pool takes at most the message that it
  is waiting for.
* `PoolRun.slots_and_messages_conserved` — **slots and messages are conserved along every run.**
-/

namespace JobDispatch

namespace Pool

/-- An execution in flight, with the ticket that it was given. -/
structure Flight where
  ticket : Ticket
  execution : Execution

/-- The execution of a ticket begins. -/
def Flight.ofTicket (t : Ticket) : Flight := ⟨t, .loading t.jobId⟩

/-! ### What the dispatcher does without a message -/

variable {τ : Type} {p p' : Pool τ}

/-- What may become of a pool when its dispatcher turns to something else. -/
inductive Turn (p : Pool τ) : Pool τ → Prop
  /-- Nothing changes. -/
  | rest : Turn p p
  /-- It ends. -/
  | ends (h : p.dispatcher = .acquiring) (hs : p.isStopping = true) :
    Turn p { p with dispatcher := .stopped }
  /-- It takes a free slot. -/
  | holds (h : p.dispatcher = .acquiring) (hs : p.isStopping = false) (hf : 0 < p.free) :
    Turn p { p with dispatcher := .popping, free := p.free - 1 }
  /-- It gives its slot back. -/
  | releases (h : p.dispatcher = .popping) (next : Dispatcher)
    (hn : next = .acquiring ∨ next = .pausing ∨ next = .stopped ∧ p.isStopping = true) :
    Turn p (p.release next)
  /-- It has paused. -/
  | resumes (h : p.dispatcher = .pausing) : Turn p { p with dispatcher := .acquiring }
  /-- The pool is asked to end. -/
  | asked : Turn p p.stop

/-- The dispatcher breaks down only when the end of its wait cannot be told. -/
theorem turn_acquire (p : Pool τ) (now : Span) :
    Turn p (p.acquire now) ∨ p.dispatcher = .acquiring ∧
      Span.hasDeadline now p.config.popTimeout = false ∧
        p.acquire now = { p with dispatcher := .broken } := by
  unfold acquire
  split
  · next hp =>
    split
    · next hstopping => exact Or.inl (.ends hp hstopping)
    · next hstopping =>
      split
      · next hfree =>
        split
        · exact Or.inl (.holds hp (Bool.eq_false_iff.mpr hstopping) hfree)
        · next hlate => exact Or.inr ⟨hp, Bool.eq_false_iff.mpr hlate, rfl⟩
      · exact Or.inl .rest
  · exact Or.inl .rest

/-- A wait without a message frees the slot. -/
theorem turn_receive (p : Pool τ) {answer : Except BrokerError (Option Ticket)}
    (ha : ∀ t, answer ≠ .ok (some t)) (begin : Ticket → τ) : Turn p (p.receive answer begin) := by
  unfold receive
  split
  · next hp =>
    split
    · next t => exact absurd rfl (ha t)
    · exact .releases hp _ (Or.inl rfl)
    · exact .releases hp _ (Or.inl rfl)
    · refine .releases hp _ ?_
      split
      · next hstopping => exact Or.inr (Or.inr ⟨rfl, hstopping⟩)
      · exact Or.inr (Or.inl rfl)
  · exact .rest

theorem turn_resume (p : Pool τ) : Turn p p.resume := by
  unfold resume
  split
  · next hp => exact .resumes hp
  · exact .rest

namespace Turn

/-- No turn changes the settings or the executions in flight. -/
theorem kept (h : Turn p p') : p'.config = p.config ∧ p'.inFlight = p.inFlight := by
  cases h <;> exact ⟨rfl, rfl⟩

/-- No turn loses a slot. -/
theorem slots (h : Turn p p') : p'.slots = p.slots := by
  cases h with
  | rest => rfl
  | ends h => simp [Pool.slots, held, h]
  | holds h hs hf =>
    simp only [Pool.slots, held, h]
    simp
    omega
  | releases h next hn => exact slots_release h (by rcases hn with rfl | rfl | ⟨rfl, -⟩ <;> decide)
  | resumes h => simp [Pool.slots, held, h]
  | asked => exact slots_stop p

/-- No turn breaks the dispatcher down. -/
theorem broken (h : Turn p p') (hp : p'.dispatcher = .broken) : p.dispatcher = .broken := by
  cases h with
  | rest => exact hp
  | ends => cases hp
  | holds => cases hp
  | releases h next hn =>
    have hnext : next = .broken := hp
    rcases hn with rfl | rfl | ⟨rfl, -⟩ <;> cases hnext
  | resumes => cases hp
  | asked =>
    simp only [stop] at hp
    split at hp
    · cases hp
    · cases hp
    · exact hp

/-- A dispatcher that has broken down does nothing more. -/
theorem stays_broken (h : Turn p p') (hp : p.dispatcher = .broken) : p'.dispatcher = .broken := by
  cases h with
  | rest => exact hp
  | ends h => exact absurd (hp.symm.trans h) (by decide)
  | holds h => exact absurd (hp.symm.trans h) (by decide)
  | releases h => exact absurd (hp.symm.trans h) (by decide)
  | resumes h => exact absurd (hp.symm.trans h) (by decide)
  | asked => simp only [stop, hp]

/-- Only a pool that is to end stops its dispatcher, and it is to end from then on. -/
theorem stopping (h : Turn p p') (hp : p.dispatcher = .stopped → p.isStopping = true) :
    p'.dispatcher = .stopped → p'.isStopping = true := by
  cases h with
  | rest => exact hp
  | ends h hs => exact fun _ => hs
  | holds => exact fun hstopped => by cases hstopped
  | releases h next hn =>
    rcases hn with rfl | rfl | ⟨rfl, hs⟩
    · exact fun hstopped => by cases hstopped
    · exact fun hstopped => by cases hstopped
    · exact fun _ => hs
  | resumes => exact fun hstopped => by cases hstopped
  | asked => exact fun _ => rfl

/-- A dispatcher that has stopped does nothing more. -/
theorem stopped (h : Turn p p') (hp : p.dispatcher = .stopped) : p'.dispatcher = .stopped := by
  cases h with
  | rest => exact hp
  | ends => rfl
  | holds h => exact absurd (hp.symm.trans h) (by decide)
  | releases h => exact absurd (hp.symm.trans h) (by decide)
  | resumes h => exact absurd (hp.symm.trans h) (by decide)
  | asked => simp only [stop, hp]

/-- A pool that is to end takes no slot for its dispatcher. -/
theorem held_le (h : Turn p p') (hs : p.isStopping = true) :
    p'.isStopping = true ∧ p'.held ≤ p.held := by
  cases h with
  | rest => exact ⟨hs, Nat.le_refl _⟩
  | ends => exact ⟨hs, Nat.zero_le _⟩
  | holds h hs' => exact absurd (hs.symm.trans hs') (by decide)
  | releases h next hn =>
    have hnext : next ≠ .popping := by rcases hn with rfl | rfl | ⟨rfl, -⟩ <;> decide
    have hheld : (p.release next).held = 0 := if_neg hnext
    exact ⟨hs, hheld ▸ Nat.zero_le _⟩
  | resumes => exact ⟨hs, Nat.zero_le _⟩
  | asked =>
    refine ⟨rfl, ?_⟩
    cases h : p.dispatcher <;> simp [held, stop, h]

end Turn

end Pool

/-! ### A pool at work -/

/-- A pool at work at shared services. -/
structure PoolRun where
  pool : Pool Pool.Flight
  shared : Shared
  /-- The job types that there is a handler for. -/
  handlers : List String
  /-- The messages that the pool has taken off the ready queue, the first one first. -/
  taken : List String := []
  /-- The tickets that have been handed to executions, the first one first. -/
  handed : List Ticket := []
  /-- The tickets of the executions that have ended, with what became of them; nothing is known of
  those that panicked. -/
  ended : List (Ticket × Option ExecutionOutcome) := []

/-- What can happen next.  An execution is named by its place among those in flight. -/
inductive PoolMove
  /-- A message is put on the ready queue. -/
  | push (message : String)
  /-- Others have used the store, and the broker without its ready queue. -/
  | elsewhere (shared : Shared)
  /-- The dispatcher looks for a free slot. -/
  | acquire (now : Span)
  /-- The dispatcher takes the first message, if there is one. -/
  | pop
  /-- The dispatcher's wait ends without a message: its time is over, or the broker has failed. -/
  | miss (problem : Option BrokerError)
  /-- The dispatcher's pause is over. -/
  | resume
  /-- The pool is asked to end. -/
  | stop
  /-- An execution takes its next step. -/
  | execute (flight : Nat) (moment : Moment)
  /-- The handler of an execution ends. -/
  | conclude (flight : Nat) (outcome : HandlerOutcome) (elapsed : Span)
  /-- An execution that has nothing left to do is gone. -/
  | finish (flight : Nat)
  /-- An execution panics and is gone. -/
  | panic (flight : Nat)

/-- The message that a move puts on the ready queue. -/
def PoolMove.message? : PoolMove → Option String
  | push message => some message
  | _ => none

namespace PoolRun

/-- A pool at its start. -/
def start (config : PoolConfig) (handlers : List String) (shared : Shared) : PoolRun :=
  { pool := Pool.start config, shared := shared, handlers := handlers }

/-- The messages on the ready queue. -/
def ready (s : PoolRun) : List String := s.shared.broker.ready

/-- The dispatcher takes the first message; while there is none it goes on waiting. -/
def pop (s : PoolRun) : PoolRun :=
  match s.pool.dispatcher, s.ready with
  | .popping, message :: _ =>
    let (answer, broker) := s.shared.broker.popReady
    { s with
      pool := s.pool.receive answer .ofTicket
      shared := { s.shared with broker := broker }
      taken := s.taken ++ [message]
      handed := s.handed ++ (Ticket.ofMessage message).toOption.toList }
  | _, _ => s

/-- An execution in flight goes on. -/
def advance (s : PoolRun) (i : Nat) (f : Pool.Flight) (x : Execution) : PoolRun :=
  { s with pool := { s.pool with inFlight := s.pool.inFlight.set i { f with execution := x } } }

/-- An execution in flight is gone. -/
def leave (s : PoolRun) (i : Nat) (f : Pool.Flight) (outcome : Option ExecutionOutcome) : PoolRun :=
  { s with
    pool := s.pool.keep (s.pool.inFlight.eraseIdx i)
    ended := s.ended ++ [(f.ticket, outcome)] }

/-- **What each move does.** -/
def step (s : PoolRun) : PoolMove → PoolRun
  | .push m => { s with shared := { s.shared with broker := s.shared.broker.pushRaw m } }
  | .elsewhere shared =>
    { s with shared := { shared with broker := { shared.broker with ready := s.ready } } }
  | .acquire now => { s with pool := s.pool.acquire now }
  | .pop => s.pop
  | .miss problem =>
    let answer := match problem with
      | none => .ok none
      | some e => .error e
    { s with pool := s.pool.receive answer .ofTicket }
  | .resume => { s with pool := s.pool.resume }
  | .stop => { s with pool := s.pool.stop }
  | .execute i m =>
    match s.pool.inFlight[i]? with
    | none => s
    | some f =>
      let next := f.execution.step m.services s.handlers s.shared
      { s with shared := next.2 }.advance i f next.1
  | .conclude i outcome elapsed =>
    match s.pool.inFlight[i]? with
    | none => s
    | some f => s.advance i f (f.execution.resume outcome elapsed)
  | .finish i =>
    match s.pool.inFlight[i]? with
    | none => s
    | some f =>
      match f.execution.outcome? with
      | none => s
      | some outcome => s.leave i f (some outcome)
  | .panic i =>
    match s.pool.inFlight[i]? with
    | none => s
    | some f => s.leave i f none

/-- The moves one after another. -/
def run (s : PoolRun) (es : List PoolMove) : PoolRun := es.foldl step s

/-- The messages that moves put on the ready queue, in their order. -/
def pushed (es : List PoolMove) : List String := es.filterMap PoolMove.message?

/-- **Every slot and every message is accounted for**: of the messages `all` the first have been taken
and the others are on the ready queue; those of the taken ones that can be read have been handed, in
their order, to executions, and each of these executions is in flight or has ended. -/
structure Orderly (c : PoolConfig) (all : List String) (s : PoolRun) : Prop where
  config : s.pool.config = c
  slots : s.pool.free + s.pool.held + s.pool.inFlight.length = c.size
  order : all = s.taken ++ s.ready
  handed : s.handed = s.taken.filterMap fun m => (Ticket.ofMessage m).toOption
  executed : s.handed.Perm (s.pool.inFlight.map Pool.Flight.ticket ++ s.ended.map Prod.fst)
  stopped : s.pool.dispatcher = .stopped → s.pool.isStopping = true

/-! ### One move -/

variable {c : PoolConfig} {all : List String} {s s' : PoolRun} {e : PoolMove}

/-- What may become of a pool at work in one move. -/
inductive Effect (s : PoolRun) (e : PoolMove) : PoolRun → Prop
  /-- Others have used the services. -/
  | elsewhere (sh : Shared) (h : sh.broker.ready = s.ready ++ e.message?.toList) :
    Effect s e { s with shared := sh }
  /-- The dispatcher turns to something else. -/
  | turned (he : e.message? = none) (p : Pool Pool.Flight) (h : s.pool.Turn p) :
    Effect s e { s with pool := p }
  /-- The dispatcher breaks down. -/
  | broke (now : Span) (he : e = .acquire now) (h : s.pool.dispatcher = .acquiring)
    (hlate : Span.hasDeadline now s.pool.config.popTimeout = false) :
    Effect s e { s with pool := { s.pool with dispatcher := .broken } }
  /-- A message is taken off the queue and handed, with the slot, to an execution. -/
  | handed (he : e.message? = none) (h : s.pool.dispatcher = .popping) (m : String)
    (rest : List String) (hr : s.ready = m :: rest) (t : Ticket) (ht : Ticket.ofMessage m = .ok t) :
    Effect s e { s with
      pool := { s.pool with
        dispatcher := .acquiring
        inFlight := s.pool.inFlight ++ [.ofTicket t] }
      shared := { s.shared with broker := { s.shared.broker with ready := rest } }
      taken := s.taken ++ [m]
      handed := s.handed ++ [t] }
  /-- A message is taken off the queue that cannot be read. -/
  | discarded (he : e.message? = none) (h : s.pool.dispatcher = .popping) (m : String)
    (rest : List String) (hr : s.ready = m :: rest)
    (hm : Ticket.ofMessage m = .error (.decoding m)) :
    Effect s e { s with
      pool := s.pool.release .acquiring
      shared := { s.shared with broker := { s.shared.broker with ready := rest } }
      taken := s.taken ++ [m] }
  /-- An execution in flight goes on. -/
  | advanced (he : e.message? = none) (i : Nat) (f : Pool.Flight) (hf : s.pool.inFlight[i]? = some f)
    (x : Execution) (sh : Shared) (h : sh.broker.ready = s.ready) :
    Effect s e ({ s with shared := sh }.advance i f x)
  /-- An execution in flight is gone. -/
  | left (he : e.message? = none) (i : Nat) (f : Pool.Flight) (hf : s.pool.inFlight[i]? = some f)
    (outcome : Option ExecutionOutcome) : Effect s e (s.leave i f outcome)

/-- Nothing may happen. -/
theorem Effect.none (he : e.message? = none) : Effect s e s := .turned he s.pool .rest

theorem pop_effect (s : PoolRun) : Effect s .pop s.pop := by
  unfold pop
  split
  · next m rest hp hr =>
    have hr : s.shared.broker.ready = m :: rest := hr
    rw [Broker.popReady_cons hr]
    cases hm : Ticket.ofMessage m with
    | ok t =>
      have h := Effect.handed (e := .pop) rfl hp m rest hr t hm
      simpa [Except.map, Pool.receive, hp, Except.toOption] using h
    | error e =>
      obtain rfl := Ticket.ofMessage_error hm
      have h := Effect.discarded (e := .pop) rfl hp m rest hr hm
      simpa [Except.map, Pool.receive, hp, Except.toOption] using h
  · exact .none rfl

/-- **Every move does one of these things.** -/
theorem step_effect (s : PoolRun) (e : PoolMove) : Effect s e (s.step e) := by
  cases e with
  | push m => exact .elsewhere _ rfl
  | elsewhere shared => exact .elsewhere _ (List.append_nil _).symm
  | acquire now =>
    rcases s.pool.turn_acquire now with h | ⟨hp, hlate, hbroken⟩
    · exact .turned rfl _ h
    · rw [step, hbroken]
      exact .broke now rfl hp hlate
  | pop => exact pop_effect s
  | miss problem =>
    refine .turned rfl _ (Pool.turn_receive _ ?_ _)
    cases problem <;> simp
  | resume => exact .turned rfl _ (Pool.turn_resume _)
  | stop => exact .turned rfl _ .asked
  | execute i m =>
    simp only [step]
    split
    · exact .none rfl
    · next f hf => exact .advanced rfl i f hf _ _ (Execution.ready_step ..)
  | conclude i outcome elapsed =>
    simp only [step]
    split
    · exact .none rfl
    · next f hf => exact .advanced rfl i f hf _ s.shared rfl
  | finish i =>
    simp only [step]
    split
    · exact .none rfl
    · next f hf =>
      split
      · exact .none rfl
      · exact .left rfl i f hf _
  | panic i =>
    simp only [step]
    split
    · exact .none rfl
    · next f hf => exact .left rfl i f hf _

/-- **An execution that is gone frees its slot.** -/
theorem free_leave {i : Nat} {f : Pool.Flight} (hf : s.pool.inFlight[i]? = some f)
    (outcome : Option ExecutionOutcome) :
    (s.leave i f outcome).pool.free = s.pool.free + 1 ∧
      (s.leave i f outcome).pool.inFlight.length + 1 = s.pool.inFlight.length := by
  have hi := (List.getElem?_eq_some_iff.mp hf).1
  simp only [leave, Pool.keep, List.length_eraseIdx_of_lt hi]
  omega

/-- An execution that panics or has nothing left to do frees its slot. -/
theorem free_step {i : Nat} {f : Pool.Flight} (hf : s.pool.inFlight[i]? = some f) :
    (s.step (.panic i)).pool.free = s.pool.free + 1 ∧
      ∀ outcome, f.execution = .finished outcome →
        (s.step (.finish i)).pool.free = s.pool.free + 1 := by
  constructor
  · simp only [step, hf]
    exact (free_leave hf none).1
  · intro outcome hx
    simp only [step, hf, hx, Execution.outcome?]
    exact (free_leave hf (some outcome)).1

/-- A message that cannot be read is dropped, and nothing else changes. -/
theorem step_pop_of_error {m : String} {rest : List String} (hp : s.pool.dispatcher = .popping)
    (hr : s.ready = m :: rest) (hm : Ticket.ofMessage m = .error (.decoding m)) :
    s.step .pop = { s with
      pool := { s.pool with dispatcher := .acquiring, free := s.pool.free + 1 }
      shared := { s.shared with broker := { s.shared.broker with ready := rest } }
      taken := s.taken ++ [m] } := by
  have hr' : s.shared.broker.ready = m :: rest := hr
  simp [step, pop, hp, hr, Broker.popReady_cons hr', hm, Except.map, Pool.receive, Pool.release,
    Except.toOption]

/-- An execution that goes on keeps its ticket. -/
theorem tickets_advance {i : Nat} {f : Pool.Flight} (hf : s.pool.inFlight[i]? = some f)
    (x : Execution) : (s.advance i f x).pool.inFlight.map Pool.Flight.ticket
      = s.pool.inFlight.map Pool.Flight.ticket :=
  map_set_of_eq hf rfl

/-- The ticket of an execution that is gone is that of one that has ended. -/
theorem perm_leave {i : Nat} {f : Pool.Flight} (hf : s.pool.inFlight[i]? = some f)
    (outcome : Option ExecutionOutcome) :
    (s.pool.inFlight.map Pool.Flight.ticket ++ s.ended.map Prod.fst).Perm
      ((s.leave i f outcome).pool.inFlight.map Pool.Flight.ticket
        ++ (s.leave i f outcome).ended.map Prod.fst) := by
  obtain ⟨hi, hget⟩ := List.getElem?_eq_some_iff.mp hf
  have hback : (f :: s.pool.inFlight.eraseIdx i).Perm s.pool.inFlight :=
    hget ▸ List.getElem_cons_eraseIdx_perm hi
  show List.Perm _ ((s.pool.inFlight.eraseIdx i).map Pool.Flight.ticket
    ++ (s.ended ++ [(f.ticket, outcome)]).map Prod.fst)
  rw [List.map_append, ← List.append_assoc]
  refine List.Perm.trans ?_ (List.perm_append_singleton f.ticket _).symm
  exact (hback.map Pool.Flight.ticket).symm.append_right _

/-- **Every move keeps the account.** -/
theorem step_orderly (h : Orderly c all s) (e : PoolMove) :
    Orderly c (all ++ e.message?.toList) (s.step e) := by
  have heffect := step_effect s e
  generalize s.step e = s' at heffect
  cases heffect with
  | elsewhere sh hready =>
    refine ⟨h.config, h.slots, ?_, h.handed, h.executed, h.stopped⟩
    rw [h.order, List.append_assoc, ← hready]
    rfl
  | turned he p hp =>
    rw [he, Option.toList_none, List.append_nil]
    refine ⟨hp.kept.1.trans h.config, hp.slots.trans h.slots, h.order, h.handed, ?_,
      hp.stopping h.stopped⟩
    show s.handed.Perm (p.inFlight.map _ ++ _)
    rw [hp.kept.2]
    exact h.executed
  | broke now he hp =>
    rw [he, PoolMove.message?, Option.toList_none, List.append_nil]
    · refine ⟨h.config, ?_, h.order, h.handed, h.executed, fun hstopped => by cases hstopped⟩
      rw [← h.slots]
      simp [Pool.held, hp]
    · simp
  | handed he hp m rest hr t ht =>
    rw [he, Option.toList_none, List.append_nil]
    refine ⟨h.config, ?_, ?_, ?_, ?_, fun hstopped => by cases hstopped⟩
    · rw [← h.slots]
      simp [Pool.held, hp]
      omega
    · rw [h.order, hr, ← List.singleton_append, ← List.append_assoc]
      rfl
    · show s.handed ++ [t] = (s.taken ++ [m]).filterMap _
      simp [h.handed, ht, Except.toOption]
    · show (s.handed ++ [t]).Perm
        ((s.pool.inFlight ++ [Pool.Flight.ofTicket t]).map Pool.Flight.ticket ++ s.ended.map Prod.fst)
      rw [List.map_append, List.append_assoc]
      refine (h.executed.append_right [t]).trans ?_
      rw [List.append_assoc]
      exact List.Perm.append_left _ List.perm_append_comm
  | discarded he hp m rest hr hm =>
    rw [he, Option.toList_none, List.append_nil]
    refine ⟨h.config, (Pool.slots_release hp (by decide)).trans h.slots, ?_, ?_, h.executed,
      fun hstopped => by cases hstopped⟩
    · rw [h.order, hr, ← List.singleton_append, ← List.append_assoc]
      rfl
    · show s.handed = (s.taken ++ [m]).filterMap _
      simp [h.handed, hm, Except.toOption]
  | advanced he i f hf x sh hready =>
    rw [he, Option.toList_none, List.append_nil]
    refine ⟨h.config, ?_, ?_, h.handed, ?_, h.stopped⟩
    · show s.pool.free + s.pool.held + (s.pool.inFlight.set i _).length = c.size
      rw [List.length_set]
      exact h.slots
    · show all = s.taken ++ sh.broker.ready
      rw [hready]
      exact h.order
    · have htickets := tickets_advance hf x
      show s.handed.Perm ((s.advance i f x).pool.inFlight.map _ ++ _)
      rw [htickets]
      exact h.executed
  | left he i f hf outcome =>
    rw [he, Option.toList_none, List.append_nil]
    refine ⟨h.config, ?_, h.order, h.handed, h.executed.trans (perm_leave hf outcome), h.stopped⟩
    obtain ⟨hfree, hlength⟩ := free_leave hf outcome
    have hheld : (s.leave i f outcome).pool.held = s.pool.held := rfl
    rw [hfree, hheld, ← h.slots]
    omega

/-- **A message leaves the queue only while the dispatcher holds a slot**, the first one first. -/
theorem ready_step (s : PoolRun) (e : PoolMove) :
    (s.step e).taken = s.taken ∧ (s.step e).ready = s.ready ++ e.message?.toList ∨
      s.pool.held = 1 ∧ ∃ m, s.ready = m :: (s.step e).ready ∧ (s.step e).taken = s.taken ++ [m] := by
  have heffect := step_effect s e
  generalize s.step e = s' at heffect
  have hquiet : ∀ he : e.message? = none, s.ready = s.ready ++ e.message?.toList := by
    intro he
    rw [he, Option.toList_none, List.append_nil]
  cases heffect with
  | elsewhere sh hready => exact Or.inl ⟨rfl, hready⟩
  | turned he => exact Or.inl ⟨rfl, hquiet he⟩
  | broke now he => exact Or.inl ⟨rfl, hquiet (he ▸ rfl)⟩
  | handed he hp m rest hr => exact Or.inr ⟨if_pos hp, m, hr, rfl⟩
  | discarded he hp m rest hr => exact Or.inr ⟨if_pos hp, m, hr, rfl⟩
  | advanced he i f hf x sh hready => exact Or.inl ⟨rfl, hready.trans (hquiet he)⟩
  | left he => exact Or.inl ⟨rfl, hquiet he⟩

/-! ### The end -/

/-- The dispatcher breaks down only when the end of its wait cannot be told. -/
theorem broken_step (h : (s.step e).pool.dispatcher = .broken) : s.pool.dispatcher = .broken ∨
    ∃ now, e = .acquire now ∧ Span.hasDeadline now s.pool.config.popTimeout = false := by
  have heffect := step_effect s e
  generalize s.step e = s' at heffect h
  cases heffect with
  | elsewhere => exact Or.inl h
  | turned he p hp => exact Or.inl (hp.broken h)
  | broke now he hp hlate => exact Or.inr ⟨now, he, hlate⟩
  | handed => cases h
  | discarded => cases h
  | advanced => exact Or.inl h
  | left => exact Or.inl h

/-- **A pool that is to end takes at most the message that it is waiting for.** -/
theorem length_taken_step_le (h : s.pool.isStopping = true) (e : PoolMove) :
    (s.step e).pool.isStopping = true ∧
      (s.step e).taken.length + (s.step e).pool.held ≤ s.taken.length + s.pool.held := by
  have heffect := step_effect s e
  generalize s.step e = s' at heffect
  cases heffect with
  | elsewhere => exact ⟨h, Nat.le_refl _⟩
  | turned he p hp => exact ⟨(hp.held_le h).1, Nat.add_le_add_left (hp.held_le h).2 _⟩
  | broke => exact ⟨h, Nat.add_le_add_left (Nat.zero_le _) _⟩
  | handed he hp m =>
    have hheld : s.pool.held = 1 := if_pos hp
    refine ⟨h, ?_⟩
    rw [hheld, List.length_append]
    exact Nat.le_refl _
  | discarded he hp m =>
    have hheld : s.pool.held = 1 := if_pos hp
    refine ⟨h, ?_⟩
    rw [hheld, List.length_append]
    exact Nat.le_refl _
  | advanced => exact ⟨h, Nat.le_refl _⟩
  | left => exact ⟨h, Nat.le_refl _⟩

/-- A pool that has ended does nothing more. -/
theorem hasEnded_step (h : s.pool.hasEnded = true) (e : PoolMove) :
    (s.step e).pool.hasEnded = true ∧ (s.step e).taken = s.taken ∧
      (s.step e).handed = s.handed ∧ (s.step e).ended = s.ended := by
  have heffect := step_effect s e
  generalize s.step e = s' at heffect
  obtain ⟨hp, hnone⟩ : s.pool.dispatcher = .stopped ∧ s.pool.inFlight = [] := by
    simpa [Pool.hasEnded] using h
  cases heffect with
  | elsewhere => exact ⟨h, rfl, rfl, rfl⟩
  | turned he p hturn =>
    refine ⟨?_, rfl, rfl, rfl⟩
    simp [Pool.hasEnded, hturn.stopped hp, hturn.kept.2, hnone]
  | broke now he hp' => exact absurd (hp.symm.trans hp') (by decide)
  | handed he hp' => exact absurd (hp.symm.trans hp') (by decide)
  | discarded he hp' => exact absurd (hp.symm.trans hp') (by decide)
  | advanced he i f hf => exact absurd hf (by simp [hnone])
  | left he i f hf => exact absurd hf (by simp [hnone])

/-! ### Runs -/

@[simp] theorem run_cons (s : PoolRun) (e : PoolMove) (es : List PoolMove) :
    s.run (e :: es) = (s.step e).run es := rfl

theorem pushed_cons (e : PoolMove) (es : List PoolMove) :
    pushed (e :: es) = e.message?.toList ++ pushed es := by
  rw [pushed, List.filterMap_cons]
  cases e.message? <;> rfl

/-- A pool at its start owes nothing. -/
theorem orderly_start (c : PoolConfig) (handlers : List String) (shared : Shared) :
    Orderly c shared.broker.ready (start c handlers shared) where
  config := rfl
  slots := Pool.slots_start c
  order := rfl
  handed := rfl
  executed := List.Perm.refl _
  stopped := by
    simp only [start, Pool.start]
    split <;> simp

/-- The account is kept along every run. -/
theorem Orderly.run (h : Orderly c all s) (es : List PoolMove) :
    Orderly c (all ++ pushed es) (s.run es) := by
  -- a run begins with its first move, so state and messages must stay general
  induction es generalizing s all with
  | nil => exact (List.append_nil all).symm ▸ h
  | cons e es ih =>
    rw [pushed_cons, ← List.append_assoc]
    exact ih (step_orderly h e)

/-- A dispatcher that has broken down could not tell the end of a wait. -/
theorem Orderly.broken_run (h : Orderly c all s) {es : List PoolMove}
    (hb : (s.run es).pool.dispatcher = .broken) : s.pool.dispatcher = .broken ∨
      ∃ now, .acquire now ∈ es ∧ Span.hasDeadline now c.popTimeout = false := by
  induction es generalizing s all with
  | nil => exact Or.inl hb
  | cons e es ih =>
    rcases ih (step_orderly h e) hb with hfirst | ⟨now, hnow, hlate⟩
    · rcases broken_step hfirst with hbefore | ⟨now, rfl, hlate⟩
      · exact Or.inl hbefore
      · exact Or.inr ⟨now, List.mem_cons_self, h.config ▸ hlate⟩
    · exact Or.inr ⟨now, List.mem_cons_of_mem e hnow, hlate⟩

theorem length_taken_run_le (h : s.pool.isStopping = true) (es : List PoolMove) :
    (s.run es).taken.length + (s.run es).pool.held ≤ s.taken.length + s.pool.held := by
  induction es generalizing s with
  | nil => exact Nat.le_refl _
  | cons e es ih =>
    obtain ⟨hstopping, hle⟩ := length_taken_step_le h e
    exact Nat.le_trans (ih hstopping) hle

theorem hasEnded_run (h : s.pool.hasEnded = true) (es : List PoolMove) :
    (s.run es).pool.hasEnded = true ∧ (s.run es).taken = s.taken ∧
      (s.run es).handed = s.handed ∧ (s.run es).ended = s.ended := by
  induction es generalizing s with
  | nil => exact ⟨h, rfl, rfl, rfl⟩
  | cons e es ih =>
    obtain ⟨hended, htaken, hhanded, hgone⟩ := hasEnded_step h e
    obtain ⟨hended', htaken', hhanded', hgone'⟩ := ih hended
    exact ⟨hended', htaken'.trans htaken, hhanded'.trans hhanded, hgone'.trans hgone⟩

/-- A pool that has ended has nothing in flight. -/
theorem inFlight_of_hasEnded (h : s.pool.hasEnded = true) : s.pool.inFlight = [] := by
  simp only [Pool.hasEnded, Bool.and_eq_true, List.isEmpty_iff] at h
  exact h.2

/-- **When a pool has ended, all executions have**; it takes nothing more, and the queue only grows. -/
theorem Orderly.run_of_hasEnded (h : Orderly c all s) (hended : s.pool.hasEnded = true) :
    s.handed.Perm (s.ended.map Prod.fst) ∧
      ∀ fs, (s.run fs).pool.inFlight = [] ∧ (s.run fs).taken = s.taken ∧
        (s.run fs).handed = s.handed ∧ (s.run fs).ready = s.ready ++ pushed fs := by
  have hnone := inFlight_of_hasEnded hended
  refine ⟨by simpa [hnone] using h.executed, fun fs => ?_⟩
  obtain ⟨hended', htaken, hhanded, -⟩ := hasEnded_run hended fs
  refine ⟨inFlight_of_hasEnded hended', htaken, hhanded, ?_⟩
  have horder := (h.run fs).order
  rw [h.order, List.append_assoc, htaken] at horder
  exact (List.append_cancel_left horder).symm

/-- A pool breaks down if it has too many slots or could not tell the end of a wait. -/
theorem broken_run_start {handlers : List String} {shared : Shared} {es : List PoolMove}
    (hbroken : ((start c handlers shared).run es).pool.dispatcher = .broken) :
    Pool.maxSlots < c.size ∨
      ∃ now, .acquire now ∈ es ∧ Span.hasDeadline now c.popTimeout = false := by
  refine ((orderly_start c handlers shared).broken_run hbroken).imp_left fun hfirst => ?_
  simp only [start, Pool.start] at hfirst
  split at hfirst
  · cases hfirst
  · next hsize => exact Nat.lt_of_not_le hsize

/-- A ticket of a job that is not stored. -/
def strayTicket : Ticket := ⟨.nil, "sleep", 5, ⟨0x3FF0000000000000⟩, .object []⟩

/-- A pool takes a message, drops one that cannot be read, and is asked to end while it waits for the
next; one of its executions is skipped and the other panics. -/
def busyRun : List PoolMove :=
  [.push strayTicket.text, .push "?", .push strayTicket.text, .push "later",
   .acquire Span.zero, .pop, .acquire Span.zero, .pop, .acquire Span.zero, .stop, .pop,
   .acquire Span.zero, .execute 0 ⟨⟨0, 0⟩, .nil, none, none⟩, .finish 0, .panic 0]

end PoolRun

end JobDispatch
