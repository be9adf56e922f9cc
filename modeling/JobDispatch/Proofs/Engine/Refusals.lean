import JobDispatch.Proofs.Engine.Following
import JobDispatch.Proofs.Store.Ages

/-!
# Sending to a broker that refuses

A tick claims the oldest pending jobs, queues them behind what is left of earlier ticks and sends the
messages one by one.  The broker may refuse any of them.  Then the messages before it have been sent
and all others are still queued, in the same order, so that the next tick goes on where this one broke
off, with what it claims itself sorted in.

## Main definitions

* `Uplink` — what is shared, over a broker that refuses some messages.
* `Engine.due` — the tickets that a tick is to send, in order.
* `Engine.Sent` — what a tick leaves behind that has sent the first of them.

## Main results

* `Engine.finish_dispatching_of_accepted` — sending, as far as the messages are accepted.
* `Engine.tick_with_refusals` — **a tick sends the tickets that are due up to the first refusal, and
  keeps the others in their order.**
-/

namespace JobDispatch

/-! ### A broker that refuses -/

/-- What is shared, over a broker that refuses some messages; the attempts to send one are counted. -/
structure Uplink where
  shared : Shared
  attempts : Nat := 0

namespace Uplink

/-- Puts a message on the ready queue, or is refused. -/
def push (refusal : Nat → Option BrokerError) (t : Ticket) (u : Uplink) :
    Except BrokerError Unit × Uplink :=
  match refusal u.attempts with
  | some problem => (.error problem, { u with attempts := u.attempts + 1 })
  | none =>
    (.ok (), { shared := { u.shared with broker := u.shared.broker.pushRaw t.text },
               attempts := u.attempts + 1 })

/-- **The services over a broker that refuses the n-th message for the reason `refusal n`**, if there is
one.  Nothing else fails. -/
def services (now : Timestamp) (refusal : Nat → Option BrokerError) : Services Uplink where
  store call u := ((u.shared.store.perform now .nil call).1,
    { u with shared := { u.shared with store := (u.shared.store.perform now .nil call).2 } })
  broker call u :=
    match call with
    | .pushReady t => u.push refusal t
    | call => ((u.shared.broker.perform call).1,
        { u with shared := { u.shared with broker := (u.shared.broker.perform call).2 } })
  clock u := (now, u)
  note _ u := u

/-- Some tickets have been sent. -/
def sent (u : Uplink) (ts : List Ticket) : Uplink where
  shared := { u.shared with broker := { u.shared.broker with
    ready := u.shared.broker.ready ++ ts.map Ticket.text } }
  attempts := u.attempts + ts.length

theorem sent_nil (u : Uplink) : u.sent [] = u := by
  rw [sent, List.map_nil, List.append_nil]
  rfl

theorem sent_cons (u : Uplink) (t : Ticket) (ts : List Ticket) :
    u.sent (t :: ts) = (u.sent [t]).sent ts := by
  simp only [sent, List.map_cons, List.map_nil, List.append_assoc, List.cons_append, List.nil_append,
    List.length_cons, List.length_nil, Nat.add_assoc, Nat.add_comm 1, Nat.zero_add]

variable {now : Timestamp} {refusal : Nat → Option BrokerError} {u : Uplink}

@[simp] theorem services_broker_pushReady (t : Ticket) :
    (services now refusal).broker (.pushReady t) u = u.push refusal t := rfl

theorem push_accepted (h : refusal u.attempts = none) (t : Ticket) :
    u.push refusal t = (.ok (), u.sent [t]) := by
  simp only [push, h]
  rfl

theorem push_refused {problem : BrokerError} (h : refusal u.attempts = some problem) (t : Ticket) :
    u.push refusal t = (.error problem, { u with attempts := u.attempts + 1 }) := by
  simp only [push, h]

end Uplink

namespace Engine

variable {e e' : Engine} {now : Timestamp} {refusal : Nat → Option BrokerError} {u : Uplink}

/-! ### Sending -/

/-- **Sending, as far as the messages are accepted**: the first tickets leave the policy, in its
order. -/
theorem finish_dispatching_of_accepted {k : Nat} (hk : k ≤ e.policy.size)
    (haccepted : ∀ i < k, refusal (u.attempts + i) = none) (ingested dispatched : Nat) :
    e.finish (Uplink.services now refusal) (.dispatching ingested dispatched) u
      = { e with policy := (e.policy.dequeueMany k).2 }.finish (Uplink.services now refusal)
          (.dispatching ingested (dispatched + k)) (u.sent (e.policy.order.take k)) := by
  induction k generalizing e u dispatched with
  | zero =>
    rw [List.take_zero, Uplink.sent_nil]
    rfl
  | succ k ih =>
    cases hd : e.policy.dequeue? with
    | none =>
      have hempty := congrArg List.length (Policy.order_of_dequeue?_eq_none hd)
      rw [Policy.length_order, List.length_nil] at hempty
      omega
    | some next =>
      obtain ⟨t, rest⟩ := next
      have hsize := Policy.size_of_dequeue? hd
      have hfirst : refusal u.attempts = none := haccepted 0 (Nat.succ_pos k)
      -- the next message is sent, and for the others the attempts have been counted up
      have hothers : ∀ i < k, refusal ((u.sent [t]).attempts + i) = none := by
        intro i hi
        have hlater := haccepted (i + 1) (Nat.succ_lt_succ hi)
        rwa [Nat.add_comm i 1, ← Nat.add_assoc] at hlater
      have hleft : (e.policy.dequeueMany (k + 1)).2 = (rest.dequeueMany k).2 := by
        rw [Policy.dequeueMany_succ, hd]
      rw [finish_eq_step _ _ rfl, Policy.order_of_dequeue? hd, List.take_succ_cons,
        Uplink.sent_cons u t, hleft, Nat.add_comm k 1, ← Nat.add_assoc]
      rw [step_dispatching_of_dequeue? hd]
      simp only [Uplink.services_broker_pushReady, Uplink.push_accepted hfirst]
      exact ih (by simp only; omega) hothers (dispatched + 1)

/-- With nothing left to send the tick ends. -/
theorem finish_dispatching_of_order_nil (h : e.policy.order = []) (ingested dispatched : Nat) :
    e.finish (Uplink.services now refusal) (.dispatching ingested dispatched) u
      = (.ok ⟨ingested, dispatched⟩, e, u) := by
  rw [finish_eq_step _ _ rfl, step_dispatching_of_dequeue?_eq_none (Policy.order_eq_nil_iff.mp h),
    finish_finished]

/-- A message that is refused ends the tick and leaves everything in its place. -/
theorem finish_dispatching_of_refused {problem : BrokerError} (h : e.policy.order ≠ [])
    (hrefused : refusal u.attempts = some problem) (ingested dispatched : Nat) :
    e.finish (Uplink.services now refusal) (.dispatching ingested dispatched) u
      = (.error (.broker problem), e, { u with attempts := u.attempts + 1 }) := by
  rw [finish_eq_step _ _ rfl]
  cases hd : e.policy.dequeue? with
  | none => exact absurd (Policy.order_of_dequeue?_eq_none hd) h
  | some next =>
    rw [step_dispatching_of_dequeue? hd]
    simp only [Uplink.services_broker_pushReady, Uplink.push_refused hrefused, finish_finished]

/-! ### A tick -/

/-- **The tickets that a tick is to send, in order**: those that are queued and behind them those of the
oldest pending jobs, stably sorted by the policy in force. -/
def due (e : Engine) (sh : Shared) : List Ticket :=
  (e.policy.order ++ (sh.store.oldestPending e.config.batchSize).map Job.ticket).mergeSort
    (e.inForce sh.broker.policy).le

/-- The engine with all tickets that are due, in the moment before it sends the first of them. -/
def loaded (e : Engine) (now : Timestamp) (sh : Shared) : Engine :=
  (e.follow sh.broker.policy).1.ingest (sh.store.claimPending e.config.batchSize now).1

/-- What is shared in that moment. -/
def claimedFrom (e : Engine) (now : Timestamp) (sh : Shared) : Shared :=
  { sh with store := (sh.store.claimPending e.config.batchSize now).2 }

/-- The tickets that are due come in the order of the policy in force, when it has taken over what was
queued and the claimed jobs have been added. -/
theorem order_enqueue_oldest (he : e.policy.Reachable) (sh : Shared) :
    ((e.follow sh.broker.policy).1.policy.enqueueAll
      ((sh.store.oldestPending e.config.batchSize).map Job.ticket)).order = e.due sh := by
  rw [(reachable_follow he sh.broker.policy).order_enqueueAll, order_follow he, kind_follow,
    mergeSort_mergeSort_append (PolicyKind.le_trans _) (PolicyKind.le_total _), due]

theorem order_loaded (he : e.policy.Reachable) (now : Timestamp) (sh : Shared) :
    (e.loaded now sh).policy.order = e.due sh := by
  have hclaimed : (sh.store.claimPending e.config.batchSize now).1.map Job.ticket
      = (sh.store.oldestPending e.config.batchSize).map Job.ticket := by
    rw [Store.claimPending_fst, List.map_map]
    rfl
  rw [loaded, ingest, hclaimed]
  exact order_enqueue_oldest he sh

theorem kind_loaded (e : Engine) (now : Timestamp) (sh : Shared) :
    (e.loaded now sh).policy.kind = e.inForce sh.broker.policy :=
  (Policy.kind_enqueueAll _ _).trans (kind_follow e sh.broker.policy)

/-- **A tick up to its first message.** -/
theorem tick_eq_finish_dispatching (e : Engine) (now : Timestamp)
    (refusal : Nat → Option BrokerError) (sh : Shared) :
    e.tick (Uplink.services now refusal) ⟨sh, 0⟩
      = (e.loaded now sh).finish (Uplink.services now refusal)
          (.dispatching (sh.store.oldestPending e.config.batchSize).length 0)
          ⟨e.claimedFrom now sh, 0⟩ := by
  have hconfig := config_follow e sh.broker.policy
  have hfirst : finish (Uplink.services now refusal) e .reconciling ⟨sh, 0⟩
      = finish (Uplink.services now refusal) (e.follow sh.broker.policy).1 .ingesting ⟨sh, 0⟩ := by
    rw [finish_eq_step _ _ rfl]
    simp only [step, Uplink.services, Broker.perform]
    rcases e.follow sh.broker.policy with ⟨e₁, _ | notice⟩ <;> rfl
  have hlength : (sh.store.claimPending e.config.batchSize now).1.length
      = (sh.store.oldestPending e.config.batchSize).length := by
    rw [Store.claimPending_fst, List.length_map]
  rw [tick, hfirst, finish_eq_step _ _ rfl]
  simp only [step, Uplink.services, Store.perform, hconfig, hlength]
  rfl

/-- **What a tick leaves behind that has sent the first `k` tickets that were due.** -/
structure Sent (e : Engine) (now : Timestamp) (sh : Shared) (k : Nat) (e' : Engine) (sh' : Shared) :
    Prop where
  /-- The oldest pending jobs are scheduled, and nothing else has changed in the store. -/
  claimed : sh.store.ClaimsOnly (sh.store.oldestPending e.config.batchSize) now sh'.store
  /-- The messages of the first tickets are on the ready queue, behind what was there. -/
  sent : sh'.broker
    = { sh.broker with ready := sh.broker.ready ++ ((e.due sh).take k).map Ticket.text }
  /-- The others are queued in the same order. -/
  left : e'.policy.order = (e.due sh).drop k
  kind : e'.policy.kind = e.inForce sh.broker.policy
  /-- As long as the same policy is wanted, it stays in force. -/
  inForce : e'.inForce sh.broker.policy = e.inForce sh.broker.policy
  config : e'.config = e.config
  reachable : e'.policy.Reachable

/-- Reading the same wish again changes nothing. -/
theorem inForce_follow (e : Engine) (desired : Option String) :
    (e.follow desired).1.inForce desired = e.inForce desired := by
  cases desired with
  | none => rfl
  | some name =>
    by_cases hname : name = e.active
    · subst hname
      rw [follow_active]
      rfl
    · cases h : e.registry.find? name with
      | none =>
        rw [follow_of_find?_eq_none hname h]
        rfl
      | some k =>
        have hkind := kind_follow e (some name)
        rw [follow_builtin hname h] at hkind ⊢
        exact (if_pos rfl).trans hkind

/-- The tickets that are due, after some of them have been sent. -/
theorem sent_of_loaded (he : e.policy.Reachable) (now : Timestamp) (sh : Shared) (k : Nat) :
    Sent e now sh k { e.loaded now sh with policy := ((e.loaded now sh).policy.dequeueMany k).2 }
      ((⟨e.claimedFrom now sh, 0⟩ : Uplink).sent ((e.due sh).take k)).shared where
  claimed := Store.claimsOnly_claimPending _ _ _
  sent := rfl
  left := by
    show ((e.loaded now sh).policy.dequeueMany k).2.order = (e.due sh).drop k
    rw [(Policy.order_dequeueMany k _).2, order_loaded he]
  kind := (Policy.kind_dequeueMany _ _).trans (kind_loaded e now sh)
  inForce := by
    have hkind : ((e.loaded now sh).policy.dequeueMany k).2.kind
        = (e.follow sh.broker.policy).1.policy.kind := by
      rw [Policy.kind_dequeueMany, kind_loaded, kind_follow]
    rw [← inForce_follow e sh.broker.policy]
    simp only [Engine.inForce, hkind]
    rfl
  config := config_follow e sh.broker.policy
  reachable := ((reachable_follow he _).enqueueAll _).dequeueMany k

/-- The tick has come to the refusal, or to its end. -/
theorem tick_eq_finish_sent (he : e.policy.Reachable) (now : Timestamp) (sh : Shared) {k : Nat}
    (hk : k ≤ (e.due sh).length) (haccepted : ∀ i < k, refusal i = none) :
    ∃ e' sh', Sent e now sh k e' sh' ∧
      e.tick (Uplink.services now refusal) ⟨sh, 0⟩
        = e'.finish (Uplink.services now refusal)
            (.dispatching (sh.store.oldestPending e.config.batchSize).length k) ⟨sh', k⟩ := by
  have hsize : (e.due sh).length = (e.loaded now sh).policy.size := by
    rw [← order_loaded he now sh, Policy.length_order]
  have haccepted' : ∀ i < k, refusal ((⟨e.claimedFrom now sh, 0⟩ : Uplink).attempts + i) = none := by
    intro i hi
    rw [Nat.zero_add]
    exact haccepted i hi
  have hattempts : ((⟨e.claimedFrom now sh, 0⟩ : Uplink).sent ((e.due sh).take k)).attempts = k := by
    show 0 + ((e.due sh).take k).length = k
    rw [Nat.zero_add, List.length_take, Nat.min_eq_left hk]
  refine ⟨_, _, sent_of_loaded he now sh k, ?_⟩
  rw [tick_eq_finish_dispatching, finish_dispatching_of_accepted (hsize ▸ hk) haccepted',
    order_loaded he, Nat.zero_add]
  exact congrArg (finish _ _ _) (congrArg (Uplink.mk _) hattempts)

/-- **A tick at which no message is refused.** -/
theorem tick_of_accepted (he : e.policy.Reachable) (now : Timestamp) (sh : Shared)
    (haccepted : ∀ i < (e.due sh).length, refusal i = none) :
    ∃ e' sh', Sent e now sh (e.due sh).length e' sh' ∧
      e.tick (Uplink.services now refusal) ⟨sh, 0⟩
        = (.ok ⟨(sh.store.oldestPending e.config.batchSize).length, (e.due sh).length⟩, e',
            ⟨sh', (e.due sh).length⟩) := by
  obtain ⟨e', sh', hsent, htick⟩ := tick_eq_finish_sent he now sh (Nat.le_refl _) haccepted
  have hnil : e'.policy.order = [] := by rw [hsent.left, List.drop_length]
  rw [finish_dispatching_of_order_nil hnil] at htick
  exact ⟨e', sh', hsent, htick⟩

/-- **A tick at which a message is refused.** -/
theorem tick_of_refused (he : e.policy.Reachable) (now : Timestamp) (sh : Shared) {k : Nat}
    (hk : k < (e.due sh).length) {problem : BrokerError} (haccepted : ∀ i < k, refusal i = none)
    (hrefused : refusal k = some problem) :
    ∃ e' sh', Sent e now sh k e' sh' ∧
      e.tick (Uplink.services now refusal) ⟨sh, 0⟩
        = (.error (.broker problem), e', ⟨sh', k + 1⟩) := by
  obtain ⟨e', sh', hsent, htick⟩ := tick_eq_finish_sent he now sh (Nat.le_of_lt hk) haccepted
  have hleft : e'.policy.order ≠ [] := by
    rw [hsent.left]
    intro hnil
    exact absurd (List.drop_eq_nil_iff.mp hnil) (Nat.not_le_of_lt hk)
  rw [finish_dispatching_of_refused hleft hrefused] at htick
  exact ⟨e', sh', hsent, htick⟩

/-- **A tick sends the tickets that are due up to the first refusal, and keeps the others in their
order.**  The store and the ready queue may hold anything, any policy may be wanted, and any message may
be refused; the next tick that is not refused anything sends the rest with what it claims itself. -/
theorem tick_with_refusals (he : e.policy.Reachable) (sh : Shared) :
    (sh.store.oldestPending e.config.batchSize).length
      = min e.config.batchSize (sh.store.countIn .pending) ∧
    ((e.follow sh.broker.policy).1.policy.enqueueAll
      ((sh.store.oldestPending e.config.batchSize).map Job.ticket)).order = e.due sh ∧
    (∀ now refusal, (∀ i < (e.due sh).length, refusal i = none) → ∃ e' sh',
      e.tick (Uplink.services now refusal) ⟨sh, 0⟩
        = (.ok ⟨(sh.store.oldestPending e.config.batchSize).length, (e.due sh).length⟩, e',
            ⟨sh', (e.due sh).length⟩) ∧
      Sent e now sh (e.due sh).length e' sh' ∧ e'.queued = 0) ∧
    ∀ now refusal, ∀ k < (e.due sh).length, ∀ problem, (∀ i < k, refusal i = none) →
      refusal k = some problem → ∃ e' sh',
        e.tick (Uplink.services now refusal) ⟨sh, 0⟩
          = (.error (.broker problem), e', ⟨sh', k + 1⟩) ∧
        Sent e now sh k e' sh' ∧
        (∀ sh₂, e'.due sh₂ = ((e.due sh).drop k ++
          (sh₂.store.oldestPending e.config.batchSize).map Job.ticket).mergeSort
            (e'.inForce sh₂.broker.policy).le) ∧
        ∀ later sh₂ refusal₂, (∀ i < (e'.due sh₂).length, refusal₂ i = none) → ∃ e₂ sh₂',
          e'.tick (Uplink.services later refusal₂) ⟨sh₂, 0⟩
            = (.ok ⟨(sh₂.store.oldestPending e.config.batchSize).length, (e'.due sh₂).length⟩, e₂,
                ⟨sh₂', (e'.due sh₂).length⟩) ∧
          Sent e' later sh₂ (e'.due sh₂).length e₂ sh₂' := by
  refine ⟨Store.length_oldestPending _ _, order_enqueue_oldest he sh, fun now refusal haccepted => ?_,
    fun now refusal k hk problem haccepted hrefused => ?_⟩
  · obtain ⟨e', sh', hsent, htick⟩ := tick_of_accepted he now sh haccepted
    refine ⟨e', sh', htick, hsent, ?_⟩
    have hqueued : e'.queued = e'.policy.order.length := (Policy.length_order _).symm
    rw [hqueued, hsent.left, List.drop_length, List.length_nil]
  · obtain ⟨e', sh', hsent, htick⟩ := tick_of_refused he now sh hk haccepted hrefused
    refine ⟨e', sh', htick, hsent, fun sh₂ => ?_, fun later sh₂ refusal₂ haccepted₂ => ?_⟩
    · -- the next tick finds the rest of the tickets in the policy
      rw [due, hsent.left, hsent.config]
    · obtain ⟨e₂, sh₂', hsent₂, htick₂⟩ := tick_of_accepted hsent.reachable later sh₂ haccepted₂
      rw [hsent.config] at htick₂
      exact ⟨e₂, sh₂', htick₂, hsent₂⟩

/-- An engine that takes up one job at a time and has a ticket left of an earlier tick. -/
def interrupted : Engine :=
  { oneAtATime with policy :=
      (Policy.ofKind .priority).enqueue (NewJob.oneShot.record (.ofNat 7) ⟨0, 0⟩).ticket }

theorem due_interrupted : interrupted.due leftBehind
    = [(NewJob.oneShot.record (.ofNat 7) ⟨0, 0⟩).ticket,
      (NewJob.oneShot.record (.ofNat 2) ⟨1, 0⟩).ticket] := by
  have hforce : interrupted.inForce leftBehind.broker.policy = .shortestFirst := by decide +kernel
  have hqueued : interrupted.policy.order = [(NewJob.oneShot.record (.ofNat 7) ⟨0, 0⟩).ticket] := rfl
  have hclaimed : leftBehind.store.oldestPending interrupted.config.batchSize
      = [NewJob.oneShot.record (.ofNat 2) ⟨1, 0⟩] :=
    congrArg (List.take 1) (List.mergeSort_singleton _)
  rw [due, hforce, hqueued, hclaimed]
  exact List.mergeSort_of_pairwise (by decide +kernel)

/-- The second message is refused: the first ticket has been sent, and the next tick sends the other. -/
theorem resumed_of_interrupted :
    interrupted.policy.Reachable ∧ ∃ e' sh',
      interrupted.tick (Uplink.services ⟨9, 0⟩ fun i => if i = 1 then some .badState else none)
        ⟨leftBehind, 0⟩ = (.error (.broker .badState), e', ⟨sh', 2⟩) ∧
      e'.policy.order = [(NewJob.oneShot.record (.ofNat 2) ⟨1, 0⟩).ticket] ∧
      sh'.broker.ready = [(NewJob.oneShot.record (.ofNat 7) ⟨0, 0⟩).ticket.text] ∧
      ∃ e₂ sh₂',
        e'.tick (Uplink.services ⟨10, 0⟩ fun _ => none) ⟨{ broker := leftBehind.broker }, 0⟩
          = (.ok ⟨0, 1⟩, e₂, ⟨sh₂', 1⟩) := by
  have he : interrupted.policy.Reachable := (Policy.Reachable.fresh .priority).enqueue _
  have hlength : (interrupted.due leftBehind).length = 2 := by
    rw [due_interrupted]
    rfl
  have hnothing : (({ } : Store).oldestPending interrupted.config.batchSize).length = 0 :=
    Store.length_oldestPending _ _
  obtain ⟨-, -, -, hrefused⟩ := tick_with_refusals he leftBehind
  obtain ⟨e', sh', htick, hsent, hnext, hticks⟩ := hrefused ⟨9, 0⟩
    (fun i => if i = 1 then some .badState else none) 1 (by omega) .badState
    (fun i hi => if_neg (by omega)) (if_pos rfl)
  have hrest : (e'.due { broker := leftBehind.broker }).length = 1 := by
    rw [hnext, List.length_mergeSort, List.length_append, List.length_drop, hlength, List.length_map,
      hnothing]
  obtain ⟨e₂, sh₂', htick₂, -⟩ := hticks ⟨10, 0⟩ { broker := leftBehind.broker } (fun _ => none)
    fun _ _ => rfl
  rw [hrest, hnothing] at htick₂
  refine ⟨he, e', sh', htick, ?_, ?_, e₂, sh₂', htick₂⟩
  · rw [hsent.left, due_interrupted]
    rfl
  · rw [hsent.sent, due_interrupted]
    rfl

end Engine

end JobDispatch
