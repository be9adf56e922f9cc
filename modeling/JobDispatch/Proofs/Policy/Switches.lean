import JobDispatch.Proofs.Policy.Order

/-!
# Switching from policy to policy

All tickets of a policy are moved into a fresh one, which takes its place, again and again; between two
switches tickets are added and taken.  Each switch sorts what is queued by the keys of the new policy
and keeps the order among equal keys, although the new policy numbers the arrivals from the start: the
old one is emptied in its own order.  What is added later arrives behind all that was moved, and so
comes behind it among equal keys.  No ticket is lost or doubled along the whole chain.

## Main definitions

* `Handling` — a ticket is added to a policy or taken from it.
* `PolicyChain` — the current policy of a chain, with all that has been added and taken so far.
* `PolicyChain.Conserves` — what every step of a chain keeps.

## Main results

* `PolicyChain.Conserves.run` — along every chain, what was taken and is queued is what was added.
* `PolicyChain.exists_handleAll` — between two switches the arrivals are those that were moved, followed
  by those that were added.
* `PolicyChain.switches_sort_stably` — **every switch sorts stably, empties its source and loses nothing.**
-/

namespace JobDispatch

/-- What is done with a policy between two switches. -/
inductive Handling
  | enqueue (t : Ticket)
  | dequeue

/-- The ticket that arrives. -/
def Handling.arrival? : Handling → Option Ticket
  | enqueue t => some t
  | dequeue => none

/-- What happens along a chain of policies. -/
inductive ChainMove
  | handle (h : Handling)
  /-- All tickets are moved into a fresh policy, which takes the place of the current one. -/
  | switch (k : PolicyKind)

/-- A chain of policies, with the tickets that have been added and taken so far, in this order. -/
structure PolicyChain where
  current : Policy
  enqueued : List Ticket := []
  dequeued : List Ticket := []

namespace PolicyChain

/-- A chain that begins with a fresh policy. -/
def start (k : PolicyKind) : PolicyChain := { current := .ofKind k }

/-- A ticket is added to the current policy or taken from it. -/
def handle (c : PolicyChain) : Handling → PolicyChain
  | .enqueue t => { c with current := c.current.enqueue t, enqueued := c.enqueued ++ [t] }
  | .dequeue =>
    match c.current.dequeue? with
    | none => c
    | some (t, p) => { c with current := p, dequeued := c.dequeued ++ [t] }

/-- Several tickets are added and taken, one after another. -/
def handleAll (c : PolicyChain) (hs : List Handling) : PolicyChain := hs.foldl handle c

/-- A fresh policy takes over all tickets. -/
def switch (c : PolicyChain) (k : PolicyKind) : PolicyChain :=
  { c with current := (c.current.drainInto (.ofKind k)).target }

/-- What a move does. -/
def step (c : PolicyChain) : ChainMove → PolicyChain
  | .handle h => c.handle h
  | .switch k => c.switch k

/-- **The chain after some moves**, one after another. -/
def run (c : PolicyChain) (ms : List ChainMove) : PolicyChain := ms.foldl step c

variable {c : PolicyChain} {q : ReferenceQueue}

/-! ### Whole chains -/

/-- **What every step of a chain keeps**: the current policy holds what has been added and not been
taken, and has numbered no more arrivals than tickets have been added. -/
structure Conserves (c : PolicyChain) : Prop where
  represented : ∃ q, c.current.Represents q ∧ q.arrivals ≤ c.enqueued.length
  conserved : (c.dequeued ++ c.current.order).Perm c.enqueued

theorem conserves_start (k : PolicyKind) : (start k).Conserves where
  represented := ⟨_, Policy.represents_ofKind k, Nat.le_refl 0⟩
  conserved := by
    show ([] ++ (Policy.ofKind k).order).Perm []
    rw [Policy.order_ofKind]
    exact List.Perm.refl _

namespace Conserves

theorem handle (hc : c.Conserves) (h : Handling) : (c.handle h).Conserves := by
  obtain ⟨q, hq, harrivals⟩ := hc.represented
  cases h with
  | enqueue t =>
    refine ⟨⟨_, hq.enqueue t, ?_⟩, ?_⟩
    · show q.arrivals + 1 ≤ (c.enqueued ++ [t]).length
      rw [List.length_append]
      exact Nat.succ_le_succ harrivals
    · -- the new ticket is somewhere among those that are queued
      have hmore : (c.current.enqueue t).order.Perm (c.current.order ++ [t]) := by
        have hadded := (Policy.perm_drain _).trans (Policy.perm_enqueue c.current t)
        have hqueued := (Policy.perm_drain c.current).symm.cons t
        exact (hadded.trans hqueued).trans (List.perm_append_singleton t _).symm
      have hall := (hmore.append_left c.dequeued).trans
        (List.Perm.of_eq (List.append_assoc _ _ _).symm)
      exact hall.trans (hc.conserved.append_right [t])
  | dequeue =>
    rw [PolicyChain.handle]
    rcases hq.dequeue? with ⟨hd, -⟩ | ⟨a, p, hd, -, hp⟩
    · rw [hd]
      exact hc
    · rw [hd]
      refine ⟨⟨_, hp, harrivals⟩, ?_⟩
      have hall := hc.conserved
      rw [Policy.order_of_dequeue? hd] at hall
      show ((c.dequeued ++ [a.ticket]) ++ p.order).Perm c.enqueued
      rwa [List.append_assoc]

theorem switch (hc : c.Conserves) (k : PolicyKind) : (c.switch k).Conserves := by
  obtain ⟨r, hr, -, harrivals⟩ := (Policy.represents_ofKind k).exists_enqueueAll c.current.order
  refine ⟨⟨r, hr, ?_⟩, ?_⟩
  · -- what is moved has been added and not been taken
    have hlength := hc.conserved.length_eq
    have hstart : (ReferenceQueue.empty k).arrivals = 0 := rfl
    rw [List.length_append] at hlength
    show r.arrivals ≤ c.enqueued.length
    omega
  · have hmoved := Policy.order_drainInto c.current k
    show (c.dequeued ++ (c.current.drainInto (.ofKind k)).target.order).Perm c.enqueued
    rw [hmoved]
    exact ((List.mergeSort_perm _ _).append_left _).trans hc.conserved

/-- Along every chain, what was taken and is queued is what was added. -/
theorem run (hc : c.Conserves) (ms : List ChainMove) : (c.run ms).Conserves := by
  induction ms generalizing c with
  | nil => exact hc
  | cons m ms ih =>
    cases m with
    | handle h => exact ih (hc.handle h)
    | switch k => exact ih (hc.switch k)

end Conserves

/-! ### Between two switches -/

/-- **Between two switches the arrivals are those that were moved, followed by those that were added**,
without those that have been taken. -/
theorem exists_handleAll (hq : c.current.Represents q) (hs : List Handling) :
    ∃ r, (c.handleAll hs).current.Represents r ∧ r.kind = q.kind ∧
      r.tickets.Sublist (q.tickets ++ hs.filterMap Handling.arrival?) := by
  induction hs generalizing c q with
  | nil =>
    refine ⟨q, hq, rfl, ?_⟩
    rw [List.filterMap_nil, List.append_nil]
  | cons h hs ih =>
    cases h with
    | enqueue t =>
      have hadded : (c.handle (.enqueue t)).current.Represents (q.enqueue t) := hq.enqueue t
      obtain ⟨r, hr, hkind, hsub⟩ := ih hadded
      refine ⟨r, hr, hkind, ?_⟩
      rw [ReferenceQueue.tickets_enqueue, List.append_assoc] at hsub
      exact hsub
    | dequeue =>
      rcases hq.dequeue? with ⟨hd, -⟩ | ⟨a, p, hd, -, hp⟩
      · have hsame : c.handle .dequeue = c := by rw [handle, hd]
        obtain ⟨r, hr, hkind, hsub⟩ := ih (hsame.symm ▸ hq)
        exact ⟨r, hr, hkind, hsub⟩
      · have hleft : (c.handle .dequeue).current.Represents (q.without a) := by
          rw [handle, hd]
          exact hp
        obtain ⟨r, hr, hkind, hsub⟩ := ih hleft
        exact ⟨r, hr, hkind, hsub.trans ((q.tickets_without_sublist a).append_right _)⟩

/-- After a switch what is left of the moved tickets comes, among equal keys, before what has been added
since. -/
theorem order_switch_handleAll (c : PolicyChain) (k : PolicyKind) (hs : List Handling) :
    ∃ moved added : List Ticket, moved.Sublist c.current.order ∧
      added.Sublist (hs.filterMap Handling.arrival?) ∧
      ((c.switch k).handleAll hs).current.order = (moved ++ added).mergeSort k.le ∧
      ∀ t, ((c.switch k).handleAll hs).current.order.filter (sameClass k.le t)
        = moved.filter (sameClass k.le t) ++ added.filter (sameClass k.le t) := by
  obtain ⟨q, hq, htickets, -⟩ := (Policy.represents_ofKind k).exists_enqueueAll c.current.order
  have hqueued : (c.switch k).current.Represents q := hq
  have hkind : q.kind = k := by rw [← hq.kind, Policy.kind_enqueueAll, Policy.kind_ofKind]
  obtain ⟨r, hr, hrkind, hsub⟩ := exists_handleAll hqueued hs
  rw [htickets, ReferenceQueue.tickets_empty, List.nil_append] at hsub
  obtain ⟨moved, added, hsplit, hmoved, hadded⟩ := List.sublist_append_iff.mp hsub
  have horder : ((c.switch k).handleAll hs).current.order = (moved ++ added).mergeSort k.le := by
    rw [hr.order_eq, hsplit, hrkind, hkind]
  refine ⟨moved, added, hmoved, hadded, horder, fun t => ?_⟩
  rw [horder, filter_sameClass_mergeSort k.le_trans k.le_total, List.filter_append]

/-- **Every switch sorts stably, empties its source and loses nothing.**  A chain may begin with any
policy and switch to any others, with tickets added and taken in between.  A switch to a policy whose
keys are all equal leaves the order as it is. -/
theorem switches_sort_stably (k₀ : PolicyKind) (ms : List ChainMove) :
    let c := (start k₀).run ms
    (c.dequeued ++ c.current.order).Perm c.enqueued ∧
    c.current.arrivals ≤ c.enqueued.length ∧
    (∀ k, let d := c.current.drainInto (.ofKind k)
      d.source.order = [] ∧ d.source.size = 0 ∧ d.moved = c.current.size ∧
      d.target.order = c.current.order.mergeSort k.le) ∧
    (c.current.drainInto (.ofKind .fcfs)).target.order = c.current.order ∧
    (∀ quantum, (c.current.drainInto (.ofKind (.roundRobin quantum))).target.order
      = c.current.order) ∧
    ∀ k hs, ∃ moved added : List Ticket, moved.Sublist c.current.order ∧
      added.Sublist (hs.filterMap Handling.arrival?) ∧
      ((c.switch k).handleAll hs).current.order = (moved ++ added).mergeSort k.le ∧
      ∀ t, ((c.switch k).handleAll hs).current.order.filter (sameClass k.le t)
        = moved.filter (sameClass k.le t) ++ added.filter (sameClass k.le t) := by
  intro c
  have hc : c.Conserves := (conserves_start k₀).run ms
  obtain ⟨q, hq, harrivals⟩ := hc.represented
  have hempty : ∀ target, (c.current.drainInto target).source.order = [] :=
    Policy.order_source_drainInto c.current
  refine ⟨hc.conserved, Nat.le_trans hq.arrivals_le harrivals, fun k => ?_, ?_, fun quantum => ?_,
    order_switch_handleAll c⟩
  · refine ⟨hempty _, ?_, Policy.moved_drainInto _ _, Policy.order_drainInto _ k⟩
    rw [← Policy.length_order, hempty, List.length_nil]
  · rw [Policy.order_drainInto, PolicyKind.isQueue_fcfs.mergeSort_eq]
  · rw [Policy.order_drainInto, (PolicyKind.isQueue_roundRobin quantum).mergeSort_eq]

end PolicyChain

end JobDispatch
