import JobDispatch.Proofs.Policy.Reference
import JobDispatch.Proofs.Sorting

/-!
# The order in which a policy gives its tickets back

A policy gives its tickets back by their keys and, of several with one key, in the order in which they
arrived: its order is the list of arrivals, stably sorted.  So a ticket that is added goes behind all
that its key does not precede, and tickets that are moved into another policy keep their order among
equal keys there, although that policy numbers the arrivals anew.

## Main definitions

* `Policy.order` — the tickets of a policy, next one first.
* `Policy.Reachable` — the policies that come of a fresh one.

## Main results

* `Policy.Represents.order_eq` — **the order is the list of arrivals, stably sorted.**
* `Policy.Reachable.order_enqueueAll` — the order after tickets have been added.
* `Policy.order_drainInto` — **the order after all tickets have been moved into a fresh policy.**
* `Policy.order_dequeueMany` — the order after some tickets have been taken.
-/

namespace JobDispatch

namespace PolicyKind

/-- Whether a ticket comes no later than another by the keys of a kind. -/
def le (k : PolicyKind) (t u : Ticket) : Bool := decide (k.KeyLe t u)

variable {k : PolicyKind}

theorem le_iff {t u : Ticket} : k.le t u = true ↔ k.key t ≤ k.key u := by
  rw [le, decide_eq_true_iff, keyLe_iff]

theorem le_trans (k : PolicyKind) (t u w : Ticket) (htu : k.le t u = true) (huw : k.le u w = true) :
    k.le t w = true :=
  le_iff.mpr (Int.le_trans (le_iff.mp htu) (le_iff.mp huw))

theorem le_total (k : PolicyKind) (t u : Ticket) : (k.le t u || k.le u t) = true := by
  rw [Bool.or_eq_true, le_iff, le_iff]
  exact Int.le_total _ _

/-- Without an order of keys a stable sort changes nothing. -/
theorem IsQueue.mergeSort_eq (hk : k.IsQueue) (ts : List Ticket) : ts.mergeSort k.le = ts :=
  List.mergeSort_of_pairwise (List.pairwise_of_forall fun t u => decide_eq_true (hk t u))

end PolicyKind

/-! ### The arrivals of a reference queue -/

namespace ReferenceQueue

variable {q : ReferenceQueue} {a : Arrival}

/-- The tickets that are present, in the order of their arrivals. -/
def tickets (q : ReferenceQueue) : List Ticket := q.present.map Arrival.ticket

@[simp] theorem tickets_empty (k : PolicyKind) : (empty k).tickets = [] := rfl

@[simp] theorem tickets_enqueue (q : ReferenceQueue) (t : Ticket) :
    (q.enqueue t).tickets = q.tickets ++ [t] := by
  rw [tickets, enqueue, List.map_append]
  rfl

theorem tickets_without_sublist (q : ReferenceQueue) (a : Arrival) :
    (q.without a).tickets.Sublist q.tickets :=
  List.eraseP_sublist.map _

/-- The next ticket is present and precedes all that are. -/
theorem precedes_of_first? (h : q.first? = some a) :
    a ∈ q.present ∧ ∀ b ∈ q.present, a.Precedes q.kind b := by
  have hfound := h
  rw [first?, List.find?_eq_some_iff_append] at hfound
  exact ⟨List.mem_of_find?_eq_some h,
    fun b hb => of_decide_eq_true (List.all_eq_true.mp hfound.1 b hb)⟩

/-- No ticket with the key of the next one has arrived before it. -/
theorem Numbered.split_first (hn : q.Numbered) (h : q.first? = some a) :
    ∃ before after, q.present = before ++ a :: after ∧ (q.without a).present = before ++ after ∧
      ∀ b ∈ before, ¬ q.kind.KeyLe b.ticket a.ticket := by
  obtain ⟨ha, hall⟩ := precedes_of_first? h
  obtain ⟨b, before, after, -, hb, hsplit, hrest⟩ :=
    List.exists_of_eraseP (p := fun b => b.number == a.number) ha (beq_self_eq_true a.number)
  have hmem : b ∈ q.present := hsplit ▸ List.mem_append_right before List.mem_cons_self
  obtain rfl := hn.eq_of_number hmem ha (beq_iff_eq.mp hb)
  refine ⟨before, after, hsplit, hrest, fun c hc hkey => ?_⟩
  have hle := (hall c (hsplit ▸ List.mem_append_left _ hc)).2 hkey
  have hincreasing := hn.increasing
  rw [hsplit, List.pairwise_append] at hincreasing
  have hlt := hincreasing.2.2 c hc b List.mem_cons_self
  omega

/-- **The next ticket is the first of the arrivals, stably sorted**, and the others are the rest. -/
theorem Numbered.mergeSort_tickets (hn : q.Numbered) (h : q.first? = some a) :
    q.tickets.mergeSort q.kind.le = a.ticket :: (q.without a).tickets.mergeSort q.kind.le := by
  have htrans := q.kind.le_trans
  have htotal := q.kind.le_total
  obtain ⟨before, after, hsplit, hrest, hbefore⟩ := hn.split_first h
  have hleast : ∀ t ∈ (q.without a).tickets.mergeSort q.kind.le, q.kind.le a.ticket t = true := by
    intro t ht
    have hpresent := (tickets_without_sublist q a).subset (List.mem_mergeSort.mp ht)
    obtain ⟨b, hb, rfl⟩ := List.mem_map.mp hpresent
    exact decide_eq_true ((precedes_of_first? h).2 b hb).1
  refine eq_of_filter_sameClass (fun t => by simpa using htotal t t)
    (List.pairwise_mergeSort htrans htotal _)
    (List.pairwise_cons.mpr ⟨hleast, List.pairwise_mergeSort htrans htotal _⟩) fun t => ?_
  have htickets : q.tickets = before.map Arrival.ticket ++ a.ticket :: after.map Arrival.ticket := by
    rw [tickets, hsplit, List.map_append, List.map_cons]
  have hothers : (q.without a).tickets
      = before.map Arrival.ticket ++ after.map Arrival.ticket := by
    rw [tickets, hrest, List.map_append]
  rw [filter_sameClass_mergeSort htrans htotal, List.filter_cons,
    filter_sameClass_mergeSort htrans htotal, htickets, hothers]
  split
  · next hclass =>
    -- of the class of the next ticket none has arrived before it
    have hnone : (before.map Arrival.ticket).filter (sameClass q.kind.le t) = [] := by
      refine List.filter_eq_nil_iff.mpr fun u hu hsame => ?_
      obtain ⟨b, hb, rfl⟩ := List.mem_map.mp hu
      rw [sameClass, Bool.and_eq_true] at hclass hsame
      exact hbefore b hb (of_decide_eq_true (htrans _ _ _ hsame.2 hclass.1))
    rw [List.filter_append, List.filter_append, hnone, List.filter_cons_of_pos hclass]
    rfl
  · next hclass =>
    rw [List.filter_append, List.filter_append, List.filter_cons_of_neg hclass]

end ReferenceQueue

namespace Policy

/-! ### The order -/

/-- The tickets of a policy in the order in which they are dequeued. -/
def order (p : Policy) : List Ticket := p.drain.1

variable {p q : Policy} {t : Ticket}

theorem order_of_dequeue?_eq_none (h : p.dequeue? = none) : p.order = [] := by
  have hsize : p.size = 0 := by
    rw [← length_tickets, (dequeue?_eq_none_iff p).mp h, List.length_nil]
  rw [order, drain_eq, hsize]
  rfl

theorem order_of_dequeue? (h : p.dequeue? = some (t, q)) : p.order = t :: q.order := by
  rw [order, drain_eq, size_of_dequeue? h, dequeueMany_succ, h]
  rfl

@[simp] theorem length_order (p : Policy) : p.order.length = p.size := by
  rw [← length_tickets]
  exact (perm_drain p).length_eq

theorem order_eq_nil_iff : p.order = [] ↔ p.dequeue? = none := by
  refine ⟨fun h => ?_, order_of_dequeue?_eq_none⟩
  cases hd : p.dequeue? with
  | none => rfl
  | some d =>
    rw [order_of_dequeue? (t := d.1) (q := d.2) hd] at h
    cases h

@[simp] theorem order_ofKind (k : PolicyKind) : (ofKind k).order = [] :=
  List.eq_nil_of_length_eq_zero (by rw [length_order, size_ofKind])

/-- **What is taken is the beginning of the order, and what is left is the rest.** -/
theorem order_dequeueMany (n : Nat) (p : Policy) :
    (dequeueMany n p).1 = p.order.take n ∧ (dequeueMany n p).2.order = p.order.drop n := by
  induction n generalizing p with
  | zero => exact ⟨rfl, rfl⟩
  | succ n ih =>
    rw [dequeueMany_succ]
    cases hd : p.dequeue? with
    | none => simp [order_of_dequeue?_eq_none hd]
    | some d =>
      obtain ⟨t, q⟩ := d
      obtain ⟨htaken, hleft⟩ := ih q
      rw [order_of_dequeue? hd]
      exact ⟨congrArg (t :: ·) htaken, hleft⟩

/-- The kind of a policy stays when tickets are taken. -/
theorem kind_of_dequeue? (h : p.dequeue? = some (t, q)) : q.kind = p.kind := by
  cases p <;> obtain ⟨d, -, he⟩ := Option.map_eq_some_iff.mp h <;>
    obtain ⟨-, rfl⟩ := Prod.mk.inj he <;> rfl

@[simp] theorem kind_dequeueMany (n : Nat) (p : Policy) : (dequeueMany n p).2.kind = p.kind := by
  induction n generalizing p with
  | zero => rfl
  | succ n ih =>
    rw [dequeueMany_succ]
    split
    · rfl
    · next t q hd => exact (ih q).trans (kind_of_dequeue? hd)

@[simp] theorem kind_enqueueAll (p : Policy) (ts : List Ticket) :
    (p.enqueueAll ts).kind = p.kind := by
  induction ts generalizing p with
  | nil => rfl
  | cons t ts ih => exact (ih (p.enqueue t)).trans (kind_enqueue p t)

@[simp] theorem kind_drainInto (source target : Policy) :
    (source.drainInto target).target.kind = target.kind := kind_enqueueAll _ _

/-! ### The policies that come of a fresh one -/

/-- The policies that come of a fresh one when tickets are added and taken. -/
inductive Reachable : Policy → Prop
  | fresh (k : PolicyKind) : Reachable (ofKind k)
  | enqueue {p : Policy} (hp : Reachable p) (t : Ticket) : Reachable (p.enqueue t)
  | dequeue {p q : Policy} {t : Ticket} (hp : Reachable p) (h : p.dequeue? = some (t, q)) : Reachable q

namespace Represents

variable {q : ReferenceQueue}

/-- **The order is the list of arrivals, stably sorted.** -/
theorem order_eq (h : p.Represents q) : p.order = q.tickets.mergeSort q.kind.le := by
  -- a policy has one ticket less after its next one has been taken
  induction hn : p.size generalizing p q with
  | zero =>
    have hempty : q.tickets = [] := by
      refine List.eq_nil_of_length_eq_zero ?_
      rw [ReferenceQueue.tickets, List.length_map]
      exact h.size.symm.trans hn
    rw [hempty, List.mergeSort_nil]
    exact List.eq_nil_of_length_eq_zero (by rw [length_order, hn])
  | succ n ih =>
    rcases h.dequeue? with ⟨hd, -⟩ | ⟨a, r, hd, hf, hr⟩
    · have hnil := congrArg List.length (order_of_dequeue?_eq_none hd)
      rw [length_order, hn] at hnil
      cases hnil
    · have hsize := size_of_dequeue? hd
      rw [order_of_dequeue? hd, ih hr (by omega), h.numbered.mergeSort_tickets hf]
      rfl

/-- Tickets that are added arrive one after another. -/
theorem exists_enqueueAll (h : p.Represents q) (ts : List Ticket) :
    ∃ r, (p.enqueueAll ts).Represents r ∧ r.tickets = q.tickets ++ ts ∧
      r.arrivals = q.arrivals + ts.length := by
  induction ts generalizing p q with
  | nil => exact ⟨q, h, (List.append_nil _).symm, rfl⟩
  | cons t ts ih =>
    obtain ⟨r, hr, htickets, harrivals⟩ := ih (h.enqueue t)
    refine ⟨r, hr, ?_, ?_⟩
    · rw [htickets, ReferenceQueue.tickets_enqueue, List.append_assoc]
      rfl
    · have hone : (q.enqueue t).arrivals = q.arrivals + 1 := rfl
      rw [harrivals, hone, List.length_cons]
      omega

end Represents

namespace Reachable

theorem represents (h : p.Reachable) : ∃ q, p.Represents q := by
  induction h with
  | fresh k => exact ⟨_, represents_ofKind k⟩
  | enqueue hp t ih =>
    obtain ⟨q, hq⟩ := ih
    exact ⟨_, hq.enqueue t⟩
  | dequeue hp h ih =>
    obtain ⟨q, hq⟩ := ih
    rcases hq.dequeue? with ⟨hd, -⟩ | ⟨a, r, hd, -, hr⟩
    · rw [h] at hd
      cases hd
    · rw [h] at hd
      obtain ⟨-, rfl⟩ := Prod.mk.inj (Option.some.inj hd)
      exact ⟨_, hr⟩

theorem enqueueAll (h : p.Reachable) (ts : List Ticket) : (p.enqueueAll ts).Reachable := by
  induction ts generalizing p with
  | nil => exact h
  | cons t ts ih => exact ih (h.enqueue t)

theorem dequeueMany (h : p.Reachable) (n : Nat) : (p.dequeueMany n).2.Reachable := by
  induction n generalizing p with
  | zero => exact h
  | succ n ih =>
    rw [Policy.dequeueMany_succ]
    split
    · exact h
    · next t q hd => exact ih (h.dequeue hd)

theorem drainInto {source target : Policy} (h : target.Reachable) :
    (source.drainInto target).target.Reachable := h.enqueueAll _

/-- The order is sorted already. -/
theorem mergeSort_order (h : p.Reachable) : p.order.mergeSort p.kind.le = p.order := by
  obtain ⟨q, hq⟩ := h.represents
  rw [hq.order_eq, hq.kind]
  exact List.mergeSort_of_pairwise (List.pairwise_mergeSort q.kind.le_trans q.kind.le_total _)

/-- **The order after tickets have been added**: they go behind all that their keys do not precede. -/
theorem order_enqueueAll (h : p.Reachable) (ts : List Ticket) :
    (p.enqueueAll ts).order = (p.order ++ ts).mergeSort p.kind.le := by
  obtain ⟨q, hq⟩ := h.represents
  obtain ⟨r, hr, htickets, -⟩ := hq.exists_enqueueAll ts
  have hkind : r.kind = q.kind := by rw [← hr.kind, kind_enqueueAll, hq.kind]
  rw [hr.order_eq, hq.order_eq, htickets, hkind, hq.kind]
  exact (mergeSort_mergeSort_append q.kind.le_trans q.kind.le_total _ _).symm

end Reachable

/-! ### Moving all tickets -/

/-- **The order after all tickets have been moved into a fresh policy.** -/
theorem order_drainInto (source : Policy) (k : PolicyKind) :
    (source.drainInto (ofKind k)).target.order = source.order.mergeSort k.le := by
  have horder := (Reachable.fresh k).order_enqueueAll source.order
  rwa [order_ofKind, List.nil_append, kind_ofKind] at horder

/-- A policy whose tickets have been moved is empty. -/
theorem order_source_drainInto (source target : Policy) :
    (source.drainInto target).source.order = [] := by
  have hleft : (source.drainInto target).source.order = source.order.drop source.size :=
    (order_dequeueMany source.size source).2
  rw [hleft, ← length_order, List.drop_length]

theorem moved_drainInto (source target : Policy) :
    (source.drainInto target).moved = source.size := length_order source

end Policy

end JobDispatch
