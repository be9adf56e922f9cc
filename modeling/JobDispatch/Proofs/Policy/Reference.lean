import JobDispatch.Proofs.Number.TotalOrder
import JobDispatch.Proofs.Policy.HeapOrder
import Mathlib.Data.List.Nodup

/-!
# Policies as reference queues

What a policy answers is what a plain list would answer.  The list keeps the tickets that are present
with the numbers of their arrivals; the next one is the present ticket with the least key, and of
several with one key the one that arrived first.  A first-in first-out queue keeps the same list; a heap
keeps the same entries in another shape, and its top is the only entry that precedes all others.

## Main definitions

* `PolicyKind.KeyLe` — the order of a kind's keys: none, the priority number, or the total order of the
  estimated durations.
* `ReferenceQueue` — the present tickets in the order of their arrivals, with the operations of a policy.
* `Request`, `Reply`, `replies` — calls of a queue, and what it answers to a list of them.
* `Policy.Represents` — a policy keeps what a reference queue keeps.

## Main results

* `ReferenceQueue.exists_first` — a queue that is not empty has a next ticket.
* `Policy.Represents.dequeue?` — both give away the same ticket.
* `Policy.Represents.serve` — every request is answered alike.
* `Policy.replies_eq_reference` — **a policy answers every list of requests as its reference queue.**
-/

namespace JobDispatch

/-! ### The order of a kind -/

namespace PolicyKind

/-- Whether a ticket comes no later than another by the keys of a kind. -/
def KeyLe : PolicyKind → Ticket → Ticket → Prop
  | fcfs, _, _ => True
  | shortestFirst, t, u => t.estimatedDuration.TotalLe u.estimatedDuration
  | priority, t, u => t.priority ≤ u.priority
  | roundRobin _, _, _ => True

/-- The order of the keys is the order of the numbers that stand for them. -/
theorem keyLe_iff (k : PolicyKind) (t u : Ticket) : k.KeyLe t u ↔ k.key t ≤ k.key u := by
  cases k with
  | fcfs => simp [KeyLe, key]
  | shortestFirst => exact Double.totalLe_iff _ _
  | priority => simp [KeyLe, key, UInt8.le_iff_toNat_le]
  | roundRobin quantum => simp [KeyLe, key]

instance (k : PolicyKind) (t u : Ticket) : Decidable (k.KeyLe t u) :=
  decidable_of_iff _ (k.keyLe_iff t u).symm

/-- Whether a kind has no order but that of arrival. -/
def IsQueue (k : PolicyKind) : Prop := ∀ t u, k.KeyLe t u

theorem isQueue_fcfs : IsQueue fcfs := fun _ _ => trivial

theorem isQueue_roundRobin (quantum : Span) : IsQueue (roundRobin quantum) := fun _ _ => trivial

end PolicyKind

/-! ### Reference queues -/

/-- A ticket and the number of its arrival. -/
structure Arrival where
  ticket : Ticket
  number : Nat

namespace Arrival

/-- Whether an arrival is dispatched no later than another: the least key first, and of equal keys the
one that arrived first. -/
def Precedes (k : PolicyKind) (a b : Arrival) : Prop :=
  k.KeyLe a.ticket b.ticket ∧ (k.KeyLe b.ticket a.ticket → a.number ≤ b.number)

instance (k : PolicyKind) (a b : Arrival) : Decidable (Precedes k a b) :=
  inferInstanceAs (Decidable (_ ∧ _))

/-- The entry of an arrival in a heap. -/
def entry (k : PolicyKind) (a : Arrival) : HeapEntry Ticket := ⟨k.key a.ticket, a.number, a.ticket⟩

theorem precedes_iff {k : PolicyKind} {a b : Arrival} :
    Precedes k a b ↔ (a.entry k).le (b.entry k) = true := by
  rw [Precedes, PolicyKind.keyLe_iff, PolicyKind.keyLe_iff, HeapEntry.le_iff]
  simp only [entry]
  omega

theorem precedes_refl (k : PolicyKind) (a : Arrival) : Precedes k a a :=
  precedes_iff.mpr (HeapEntry.le_refl _)

theorem precedes_trans {k : PolicyKind} {a b c : Arrival} (hab : Precedes k a b)
    (hbc : Precedes k b c) : Precedes k a c :=
  precedes_iff.mpr (HeapEntry.le_trans _ _ _ (precedes_iff.mp hab) (precedes_iff.mp hbc))

theorem precedes_total (k : PolicyKind) (a b : Arrival) : Precedes k a b ∨ Precedes k b a := by
  rw [precedes_iff, precedes_iff]
  exact HeapEntry.le_total _ _

/-- Arrivals that precede each other have one number. -/
theorem number_eq_of_precedes {k : PolicyKind} {a b : Arrival} (hab : Precedes k a b)
    (hba : Precedes k b a) : a.number = b.number :=
  (HeapEntry.le_antisymm (precedes_iff.mp hab) (precedes_iff.mp hba)).2

end Arrival

/-- The tickets that are present, in the order of their arrivals. -/
structure ReferenceQueue where
  kind : PolicyKind
  present : List Arrival := []
  /-- How many tickets have arrived so far. -/
  arrivals : Nat := 0

namespace ReferenceQueue

/-- A queue at which nothing has arrived. -/
def empty (k : PolicyKind) : ReferenceQueue := { kind := k }

/-- A ticket arrives. -/
def enqueue (q : ReferenceQueue) (t : Ticket) : ReferenceQueue :=
  { q with present := q.present ++ [⟨t, q.arrivals⟩], arrivals := q.arrivals + 1 }

/-- The arrival that precedes all that are present. -/
def first? (q : ReferenceQueue) : Option Arrival :=
  q.present.find? fun a => q.present.all fun b => decide (a.Precedes q.kind b)

/-- The queue without an arrival. -/
def without (q : ReferenceQueue) (a : Arrival) : ReferenceQueue :=
  { q with present := q.present.eraseP fun b => b.number == a.number }

/-- The next ticket and the queue without it. -/
def dequeue? (q : ReferenceQueue) : Option (Ticket × ReferenceQueue) :=
  q.first?.map fun a => (a.ticket, q.without a)

/-- The ticket that would be dequeued. -/
def peek? (q : ReferenceQueue) : Option Ticket := q.first?.map Arrival.ticket

/-- The number of tickets that are present. -/
def size (q : ReferenceQueue) : Nat := q.present.length

/-- A ticket that is put back counts as an arrival; only a round-robin queue takes one. -/
def requeue? (q : ReferenceQueue) (t : Ticket) : Option ReferenceQueue :=
  match q.kind with
  | .roundRobin _ => some (q.enqueue t)
  | _ => none

/-- A queue that is not empty has an arrival that precedes all others. -/
theorem exists_first (k : PolicyKind) {l : List Arrival} (hne : l ≠ []) :
    ∃ a ∈ l, ∀ b ∈ l, a.Precedes k b := by
  induction l with
  | nil => exact absurd rfl hne
  | cons a l ih =>
    rcases eq_or_ne l [] with rfl | hl
    · exact ⟨a, List.mem_singleton_self a, fun b hb => by
        rw [List.mem_singleton.mp hb]
        exact Arrival.precedes_refl k a⟩
    obtain ⟨c, hc, hcall⟩ := ih hl
    rcases Arrival.precedes_total k a c with hac | hca
    · refine ⟨a, List.mem_cons_self, fun b hb => ?_⟩
      rcases List.mem_cons.mp hb with rfl | hb
      · exact Arrival.precedes_refl k b
      · exact Arrival.precedes_trans hac (hcall b hb)
    · refine ⟨c, List.mem_cons_of_mem a hc, fun b hb => ?_⟩
      rcases List.mem_cons.mp hb with rfl | hb
      · exact hca
      · exact hcall b hb

/-- Only an empty queue has no next ticket. -/
theorem first?_eq_none_iff (q : ReferenceQueue) : q.first? = none ↔ q.present = [] := by
  constructor
  · intro hnone
    by_contra hne
    obtain ⟨a, ha, hall⟩ := exists_first q.kind hne
    have hnot := List.find?_eq_none.mp hnone a ha
    exact hnot (List.all_eq_true.mpr fun b hb => decide_eq_true (hall b hb))
  · intro hempty
    rw [first?, hempty]
    rfl

/-- Arrivals are numbered one after another. -/
structure Numbered (q : ReferenceQueue) : Prop where
  increasing : q.present.Pairwise fun a b => a.number < b.number
  below : ∀ a ∈ q.present, a.number < q.arrivals

theorem numbered_empty (k : PolicyKind) : (empty k).Numbered where
  increasing := List.Pairwise.nil
  below := fun _ ha => (List.not_mem_nil ha).elim

theorem Numbered.enqueue {q : ReferenceQueue} (hn : q.Numbered) (t : Ticket) :
    (q.enqueue t).Numbered where
  increasing := by
    refine List.pairwise_append.mpr ⟨hn.increasing, List.pairwise_singleton _ _, ?_⟩
    intro a ha b hb
    rw [List.mem_singleton.mp hb]
    exact hn.below a ha
  below := by
    intro a ha
    rcases List.mem_append.mp ha with ha | ha
    · exact Nat.lt_succ_of_lt (hn.below a ha)
    · rw [List.mem_singleton.mp ha]
      exact Nat.lt_succ_self _

theorem Numbered.without {q : ReferenceQueue} (hn : q.Numbered) (a : Arrival) :
    (q.without a).Numbered where
  increasing := hn.increasing.sublist (List.eraseP_sublist)
  below := fun b hb => hn.below b (List.mem_of_mem_eraseP hb)

/-- A number belongs to one arrival. -/
theorem Numbered.eq_of_number {q : ReferenceQueue} (hn : q.Numbered) {a b : Arrival}
    (ha : a ∈ q.present) (hb : b ∈ q.present) (h : a.number = b.number) : a = b := by
  have hnodup : (q.present.map Arrival.number).Nodup :=
    List.pairwise_map.mpr (hn.increasing.imp fun hlt => Nat.ne_of_lt hlt)
  exact List.inj_on_of_nodup_map hnodup ha hb h

/-- **The next ticket is the only one that precedes all others.** -/
theorem Numbered.first?_eq_some {q : ReferenceQueue} (hn : q.Numbered) {a : Arrival}
    (ha : a ∈ q.present) (hall : ∀ b ∈ q.present, a.Precedes q.kind b) : q.first? = some a := by
  cases hfirst : q.first? with
  | none =>
    rw [(first?_eq_none_iff q).mp hfirst] at ha
    exact (List.not_mem_nil ha).elim
  | some b =>
    have hb : b ∈ q.present := List.mem_of_find?_eq_some hfirst
    have hfound := hfirst
    rw [first?, List.find?_eq_some_iff_append] at hfound
    have hball := List.all_eq_true.mp hfound.1
    have hnumber : b.number = a.number :=
      Arrival.number_eq_of_precedes (of_decide_eq_true (hball a ha)) (hall b hb)
    exact congrArg some (hn.eq_of_number hb ha hnumber)

/-- Taking an arrival away leaves the others. -/
theorem Numbered.perm_without {q : ReferenceQueue} (hn : q.Numbered) {a : Arrival}
    (ha : a ∈ q.present) : q.present.Perm (a :: (q.without a).present) := by
  obtain ⟨b, l, r, -, hb, hsplit, hrest⟩ :=
    List.exists_of_eraseP (p := fun b => b.number == a.number) ha (beq_self_eq_true a.number)
  have hmem : b ∈ q.present := hsplit ▸ List.mem_append_right l List.mem_cons_self
  obtain rfl := hn.eq_of_number hmem ha (beq_iff_eq.mp hb)
  rw [ReferenceQueue.without, hrest, hsplit]
  exact List.perm_middle

end ReferenceQueue

/-! ### Queues and heaps keep what the reference keeps -/

/-- A first-in first-out queue holds the present tickets in the order of their arrivals. -/
def Fifo.Keeps (f : Fifo Ticket) (q : ReferenceQueue) : Prop :=
  f.toList = q.present.map Arrival.ticket

/-- A heap holds the present tickets as its entries, and counts the arrivals. -/
structure StableHeap.Keeps (h : StableHeap Ticket) (q : ReferenceQueue) : Prop where
  ordered : h.Ordered
  arrivals : h.arrivals = q.arrivals
  entries : h.entries.Perm (q.present.map (Arrival.entry q.kind))

namespace Fifo.Keeps

variable {f : Fifo Ticket} {q : ReferenceQueue}

theorem enqueue (h : f.Keeps q) (t : Ticket) : (f.enqueue t).Keeps (q.enqueue t) := by
  have hlist : f.toList = q.present.map Arrival.ticket := h
  unfold Fifo.Keeps
  rw [toList_enqueue, hlist, ReferenceQueue.enqueue, List.map_append]
  rfl

theorem size (h : f.Keeps q) : f.size = q.size := by
  rw [size_eq, h, List.length_map, ReferenceQueue.size]

/-- Without an order of keys the oldest arrival precedes all others. -/
theorem dequeue? (h : f.Keeps q) (hn : q.Numbered) (hk : q.kind.IsQueue) :
    (f.dequeue? = none ∧ q.first? = none) ∨
      ∃ a r, f.dequeue? = some (a.ticket, r) ∧ q.first? = some a ∧ r.Keeps (q.without a) := by
  have hlist : f.toList = q.present.map Arrival.ticket := h
  cases hpresent : q.present with
  | nil =>
    refine .inl ⟨(dequeue?_eq_none_iff f).mpr ?_, (q.first?_eq_none_iff).mpr hpresent⟩
    rw [hlist, hpresent]
    rfl
  | cons a rest =>
    have hmem : a ∈ q.present := hpresent ▸ List.mem_cons_self
    have hincreasing := hn.increasing
    rw [hpresent] at hincreasing
    have hall : ∀ b ∈ q.present, a.Precedes q.kind b := by
      intro b hb
      refine ⟨hk _ _, fun _ => ?_⟩
      rw [hpresent] at hb
      rcases List.mem_cons.mp hb with rfl | hb
      · exact Nat.le_refl _
      · exact Nat.le_of_lt ((List.pairwise_cons.mp hincreasing).1 b hb)
    have hfirst : q.first? = some a := hn.first?_eq_some hmem hall
    have hrest : (q.without a).present = rest := by
      simp only [ReferenceQueue.without, hpresent]
      exact List.eraseP_cons_of_pos (beq_self_eq_true a.number)
    cases hd : f.dequeue? with
    | none =>
      rw [(dequeue?_eq_none_iff f).mp hd, hpresent] at hlist
      cases hlist
    | some d =>
      have hhead : a.ticket :: rest.map Arrival.ticket = d.1 :: d.2.toList := by
        rw [← toList_of_dequeue? hd, hlist, hpresent]
        rfl
      obtain ⟨hticket, htail⟩ := List.cons.inj hhead
      refine .inr ⟨a, d.2, by rw [hticket], hfirst, ?_⟩
      unfold Fifo.Keeps
      rw [hrest, htail]

end Fifo.Keeps

namespace StableHeap.Keeps

variable {h : StableHeap Ticket} {q : ReferenceQueue}

theorem enqueue (hh : h.Keeps q) (t : Ticket) :
    (h.push (q.kind.key t) t).Keeps (q.enqueue t) where
  ordered := ordered_push hh.ordered _ _
  arrivals := congrArg (· + 1) hh.arrivals
  entries := by
    have hpush := perm_entries_push h (q.kind.key t) t
    rw [hh.arrivals] at hpush
    have hlast : (q.enqueue t).present.map (Arrival.entry q.kind) =
        q.present.map (Arrival.entry q.kind) ++ [Arrival.entry q.kind ⟨t, q.arrivals⟩] := by
      rw [ReferenceQueue.enqueue, List.map_append]
      rfl
    rw [show (q.enqueue t).kind = q.kind from rfl, hlast]
    exact (hpush.trans (hh.entries.cons _)).trans (List.perm_append_singleton _ _).symm

theorem size (hh : h.Keeps q) : h.size = q.size := by
  rw [size_eq, hh.entries.length_eq, List.length_map, ReferenceQueue.size]

/-- The top of the heap is the entry of the arrival that precedes all others. -/
theorem pop? (hh : h.Keeps q) (hn : q.Numbered) :
    (h.pop? = none ∧ q.first? = none) ∨
      ∃ a r, h.pop? = some (a.ticket, r) ∧ q.first? = some a ∧ r.Keeps (q.without a) := by
  cases hp : h.pop? with
  | none =>
    have hvalues : h.entries.map HeapEntry.value = [] := (pop?_eq_none_iff h).mp hp
    have hpresent : q.present.map (Arrival.entry q.kind) = [] := by
      have hnil := hh.entries
      rw [List.map_eq_nil_iff.mp hvalues] at hnil
      exact List.nil_perm.mp hnil
    exact .inl ⟨rfl, (q.first?_eq_none_iff).mpr (List.map_eq_nil_iff.mp hpresent)⟩
  | some d =>
    obtain ⟨t, hroot, hvalue, harrivals, hperm⟩ := perm_entries_pop? (a := d.1) (r := d.2) hp
    have htop : t.1 ∈ q.present.map (Arrival.entry q.kind) :=
      hh.entries.mem_iff.mp (hperm.mem_iff.mpr List.mem_cons_self)
    obtain ⟨a, ha, hentry⟩ := List.mem_map.mp htop
    have hall : ∀ b ∈ q.present, a.Precedes q.kind b := by
      intro b hb
      have hmem : b.entry q.kind ∈ h.entries :=
        hh.entries.mem_iff.mpr (List.mem_map_of_mem hb)
      rw [Arrival.precedes_iff, hentry]
      exact le_of_root hh.ordered hroot hmem
    have hticket : a.ticket = d.1 := by
      rw [← hvalue, ← hentry]
      rfl
    refine .inr ⟨a, d.2, by rw [hticket], hn.first?_eq_some ha hall, ?_⟩
    refine ⟨ordered_pop? hh.ordered (a := d.1) hp, harrivals.trans hh.arrivals, ?_⟩
    -- the top and the rest of the entries are the arrival and the rest of those present
    have hrest := (hperm.symm.trans hh.entries).trans ((hn.perm_without ha).map _)
    rw [List.map_cons, hentry] at hrest
    exact hrest.cons_inv

end StableHeap.Keeps

/-! ### Requests and replies -/

/-- A call of a queue. -/
inductive Request
  | enqueue (t : Ticket)
  | dequeue
  | peek
  | size
  /-- A ticket is put back after its time quantum. -/
  | requeue (t : Ticket)

/-- What a queue answers. -/
inductive Reply
  | done
  | next (t : Option Ticket)
  | count (n : Nat)
  /-- The queue does not know the call. -/
  | refused

/-- Whether a request lets a ticket arrive. -/
def Request.arrives : Request → Bool
  | enqueue _ => true
  | requeue _ => true
  | _ => false

section Replies

variable {σ τ : Type}

/-- What is answered to a list of requests, one after another. -/
def replies (serve : σ → Request → Reply × σ) (s : σ) : List Request → List Reply
  | [] => []
  | r :: rs => (serve s r).1 :: replies serve (serve s r).2 rs

/-- What a list of requests leaves behind. -/
def served (serve : σ → Request → Reply × σ) (s : σ) : List Request → σ
  | [] => s
  | r :: rs => served serve (serve s r).2 rs

/-- A relation in which every request is answered alike and which is kept lets all lists of requests be
answered alike. -/
theorem replies_eq_of_step {f : σ → Request → Reply × σ} {g : τ → Request → Reply × τ}
    {R : σ → τ → Prop} (hstep : ∀ s t r, R s t → (f s r).1 = (g t r).1 ∧ R (f s r).2 (g t r).2)
    (rs : List Request) :
    ∀ s t, R s t → replies f s rs = replies g t rs ∧ R (served f s rs) (served g t rs) := by
  induction rs with
  | nil =>
    intro s t h
    exact ⟨rfl, h⟩
  | cons r rs ih =>
    intro s t h
    obtain ⟨hreply, hnext⟩ := hstep s t r h
    obtain ⟨hreplies, hlast⟩ := ih _ _ hnext
    refine ⟨?_, hlast⟩
    rw [replies, replies, hreply, hreplies]

end Replies

/-- What a reference queue answers to a request. -/
def ReferenceQueue.serve (q : ReferenceQueue) : Request → Reply × ReferenceQueue
  | .enqueue t => (.done, q.enqueue t)
  | .dequeue =>
    match q.dequeue? with
    | some (t, r) => (.next (some t), r)
    | none => (.next none, q)
  | .peek => (.next q.peek?, q)
  | .size => (.count q.size, q)
  | .requeue t =>
    match q.requeue? t with
    | some r => (.done, r)
    | none => (.refused, q)

/-- The number of arrivals is the number of requests that let a ticket arrive. -/
theorem ReferenceQueue.arrivals_served (rs : List Request) :
    ∀ q : ReferenceQueue, (served serve q rs).arrivals ≤ q.arrivals + rs.countP Request.arrives := by
  induction rs with
  | nil =>
    intro q
    exact Nat.le_refl _
  | cons r rs ih =>
    intro q
    have hstep : (q.serve r).2.arrivals ≤ q.arrivals + if r.arrives then 1 else 0 := by
      cases r with
      | enqueue t => exact Nat.le_refl _
      | dequeue =>
        rw [serve]
        cases hd : q.dequeue? with
        | none => exact Nat.le_refl _
        | some d =>
          obtain ⟨a, -, rfl⟩ := Option.map_eq_some_iff.mp hd
          exact Nat.le_refl _
      | peek => exact Nat.le_refl _
      | size => exact Nat.le_refl _
      | requeue t =>
        rw [serve, requeue?]
        cases q.kind <;> first | exact Nat.le_refl _ | exact Nat.le_succ _
    have hrest := ih (q.serve r).2
    rw [List.countP_cons, served]
    omega

namespace Policy

/-- What a policy answers to a request. -/
def serve (p : Policy) : Request → Reply × Policy
  | .enqueue t => (.done, p.enqueue t)
  | .dequeue =>
    match p.dequeue? with
    | some (t, q) => (.next (some t), q)
    | none => (.next none, p)
  | .peek => (.next p.peek?, p)
  | .size => (.count p.size, p)
  | .requeue t =>
    match p.requeue? t with
    | some q => (.done, q)
    | none => (.refused, p)

/-- The number of the next arrival, where arrivals are numbered. -/
def arrivals : Policy → Nat
  | .shortestFirst heap => heap.arrivals
  | .priority heap => heap.arrivals
  | _ => 0

/-- A policy holds the present tickets of a reference queue, in its own shape. -/
def Holds : Policy → ReferenceQueue → Prop
  | .fcfs queue, q => queue.Keeps q
  | .shortestFirst heap, q => heap.Keeps q
  | .priority heap, q => heap.Keeps q
  | .roundRobin _ queue, q => queue.Keeps q

/-- A policy keeps what a reference queue of its kind keeps. -/
structure Represents (p : Policy) (q : ReferenceQueue) : Prop where
  kind : p.kind = q.kind
  numbered : q.Numbered
  holds : p.Holds q

theorem represents_ofKind (k : PolicyKind) : (ofKind k).Represents (.empty k) := by
  refine ⟨kind_ofKind k, ReferenceQueue.numbered_empty k, ?_⟩
  cases k with
  | fcfs => rfl
  | shortestFirst => exact ⟨StableHeap.ordered_empty, rfl, List.Perm.refl _⟩
  | priority => exact ⟨StableHeap.ordered_empty, rfl, List.Perm.refl _⟩
  | roundRobin quantum => rfl

namespace Represents

variable {p : Policy} {q : ReferenceQueue}

theorem enqueue (h : p.Represents q) (t : Ticket) : (p.enqueue t).Represents (q.enqueue t) := by
  refine ⟨(kind_enqueue p t).trans h.kind, h.numbered.enqueue t, ?_⟩
  have hkind := h.kind
  have hholds := h.holds
  cases p with
  | fcfs queue => exact Fifo.Keeps.enqueue hholds t
  | shortestFirst heap =>
    have hkeeps := StableHeap.Keeps.enqueue hholds t
    rw [← hkind] at hkeeps
    exact hkeeps
  | priority heap =>
    have hkeeps := StableHeap.Keeps.enqueue hholds t
    rw [← hkind] at hkeeps
    exact hkeeps
  | roundRobin quantum queue => exact Fifo.Keeps.enqueue hholds t

theorem size (h : p.Represents q) : p.size = q.size := by
  have hholds := h.holds
  cases p with
  | fcfs queue => exact Fifo.Keeps.size hholds
  | shortestFirst heap => exact StableHeap.Keeps.size hholds
  | priority heap => exact StableHeap.Keeps.size hholds
  | roundRobin quantum queue => exact Fifo.Keeps.size hholds

/-- Both give away the same ticket, or nothing. -/
theorem dequeue? (h : p.Represents q) :
    (p.dequeue? = none ∧ q.first? = none) ∨
      ∃ a r, p.dequeue? = some (a.ticket, r) ∧ q.first? = some a ∧ r.Represents (q.without a) := by
  have hkind := h.kind
  have hholds := h.holds
  cases p with
  | fcfs queue =>
    have hqueue : q.kind.IsQueue := hkind ▸ PolicyKind.isQueue_fcfs
    rcases Fifo.Keeps.dequeue? hholds h.numbered hqueue with ⟨hd, hf⟩ | ⟨a, r, hd, hf, hr⟩
    · exact .inl ⟨by rw [Policy.dequeue?, hd]; rfl, hf⟩
    · exact .inr ⟨a, .fcfs r, by rw [Policy.dequeue?, hd]; rfl, hf, hkind, h.numbered.without a, hr⟩
  | shortestFirst heap =>
    rcases StableHeap.Keeps.pop? hholds h.numbered with ⟨hd, hf⟩ | ⟨a, r, hd, hf, hr⟩
    · exact .inl ⟨by rw [Policy.dequeue?, hd]; rfl, hf⟩
    · exact .inr ⟨a, .shortestFirst r, by rw [Policy.dequeue?, hd]; rfl, hf, hkind,
        h.numbered.without a, hr⟩
  | priority heap =>
    rcases StableHeap.Keeps.pop? hholds h.numbered with ⟨hd, hf⟩ | ⟨a, r, hd, hf, hr⟩
    · exact .inl ⟨by rw [Policy.dequeue?, hd]; rfl, hf⟩
    · exact .inr ⟨a, .priority r, by rw [Policy.dequeue?, hd]; rfl, hf, hkind,
        h.numbered.without a, hr⟩
  | roundRobin quantum queue =>
    have hqueue : q.kind.IsQueue := hkind ▸ PolicyKind.isQueue_roundRobin quantum
    rcases Fifo.Keeps.dequeue? hholds h.numbered hqueue with ⟨hd, hf⟩ | ⟨a, r, hd, hf, hr⟩
    · exact .inl ⟨by rw [Policy.dequeue?, hd]; rfl, hf⟩
    · exact .inr ⟨a, .roundRobin quantum r, by rw [Policy.dequeue?, hd]; rfl, hf, hkind,
        h.numbered.without a, hr⟩

theorem peek? (h : p.Represents q) : p.peek? = q.peek? := by
  rw [Policy.peek?_eq, ReferenceQueue.peek?]
  rcases h.dequeue? with ⟨hd, hf⟩ | ⟨a, r, hd, hf, -⟩
  · rw [hd, hf]; rfl
  · rw [hd, hf]; rfl

/-- Both take a ticket back, or neither knows the call. -/
theorem requeue? (h : p.Represents q) (t : Ticket) :
    (p.requeue? t = none ∧ q.requeue? t = none) ∨
      (p.requeue? t = some (p.enqueue t) ∧ q.requeue? t = some (q.enqueue t)) := by
  have hkind := h.kind
  cases p with
  | fcfs queue => exact .inl ⟨rfl, by rw [ReferenceQueue.requeue?, ← hkind]; rfl⟩
  | shortestFirst heap => exact .inl ⟨rfl, by rw [ReferenceQueue.requeue?, ← hkind]; rfl⟩
  | priority heap => exact .inl ⟨rfl, by rw [ReferenceQueue.requeue?, ← hkind]; rfl⟩
  | roundRobin quantum queue => exact .inr ⟨rfl, by rw [ReferenceQueue.requeue?, ← hkind]; rfl⟩

/-- The arrivals of a policy are no more than those of its reference. -/
theorem arrivals_le (h : p.Represents q) : p.arrivals ≤ q.arrivals := by
  have hholds := h.holds
  cases p with
  | fcfs queue => exact Nat.zero_le _
  | shortestFirst heap => exact Nat.le_of_eq (StableHeap.Keeps.arrivals hholds)
  | priority heap => exact Nat.le_of_eq (StableHeap.Keeps.arrivals hholds)
  | roundRobin quantum queue => exact Nat.zero_le _

/-- **Every request is answered alike.** -/
theorem serve (h : p.Represents q) (r : Request) :
    (p.serve r).1 = (q.serve r).1 ∧ (p.serve r).2.Represents (q.serve r).2 := by
  cases r with
  | enqueue t => exact ⟨rfl, h.enqueue t⟩
  | dequeue =>
    rw [Policy.serve, ReferenceQueue.serve, ReferenceQueue.dequeue?]
    rcases h.dequeue? with ⟨hd, hf⟩ | ⟨a, r, hd, hf, hr⟩
    · rw [hd, hf]
      exact ⟨rfl, h⟩
    · rw [hd, hf]
      exact ⟨rfl, hr⟩
  | peek => exact ⟨congrArg Reply.next h.peek?, h⟩
  | size => exact ⟨congrArg Reply.count h.size, h⟩
  | requeue t =>
    rw [Policy.serve, ReferenceQueue.serve]
    rcases h.requeue? t with ⟨hp, hq⟩ | ⟨hp, hq⟩
    · rw [hp, hq]
      exact ⟨rfl, h⟩
    · rw [hp, hq]
      exact ⟨rfl, h.enqueue t⟩

end Represents

/-- **A policy answers every list of requests as its reference queue**, and the numbers it gives to
arrivals stay below the number of tickets that have arrived. -/
theorem replies_eq_reference (k : PolicyKind) (rs : List Request) :
    replies serve (ofKind k) rs = replies ReferenceQueue.serve (.empty k) rs ∧
      (served serve (ofKind k) rs).arrivals ≤ rs.countP Request.arrives := by
  obtain ⟨hreplies, hlast⟩ := replies_eq_of_step (f := serve) (g := ReferenceQueue.serve)
    (R := Represents) (fun p q r h => h.serve r) rs _ _ (represents_ofKind k)
  refine ⟨hreplies, ?_⟩
  have hcount := ReferenceQueue.arrivals_served rs (.empty k)
  have hempty : (ReferenceQueue.empty k).arrivals = 0 := rfl
  rw [hempty, Nat.zero_add] at hcount
  exact Nat.le_trans hlast.arrivals_le hcount

end Policy

end JobDispatch
