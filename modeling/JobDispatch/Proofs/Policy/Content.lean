import JobDispatch.Policy.Basic

/-!
# What a policy holds

Whatever the order in which a policy gives its tickets back, it neither loses nor invents one.  The
content of a policy is a list of tickets that is only ever looked at up to its order.

## Main definitions

* `Policy.tickets` — the content of a policy.

## Main results

* `Policy.perm_enqueue`, `Policy.perm_dequeue?` — a ticket is added, or taken away.
* `Policy.dequeue?_eq_none_iff` — only an empty policy has no next ticket.
* `Policy.perm_drainInto` — **moving all tickets into another policy loses none.**
-/

namespace JobDispatch

/-! ### Heaps -/

namespace Forest

variable {β : Type}

/-- The members of a tree: its top and what is below it. -/
def members (t : β × Forest β) : List β := t.1 :: t.2.toList

theorem perm_join (le : β → β → Bool) (s t : β × Forest β) :
    (members (join le s t)).Perm (members s ++ members t) := by
  rw [join]
  split
  · -- the second tree goes below the top of the first
    simp only [members, toList, List.cons_append]
    refine List.Perm.cons _ ?_
    have hcomm : (s.2.toList ++ t.1 :: t.2.toList).Perm (t.1 :: t.2.toList ++ s.2.toList) :=
      List.perm_append_comm
    exact hcomm.symm
  · -- the first tree goes below the top of the second
    simp only [members, toList]
    have hmiddle : (s.1 :: s.2.toList ++ t.1 :: t.2.toList).Perm
        (t.1 :: (s.1 :: s.2.toList ++ t.2.toList)) := List.perm_middle
    exact hmiddle.symm

/-- The members of what may be a tree. -/
def members? : Option (β × Forest β) → List β
  | none => []
  | some t => members t

/-- Joining all trees keeps every member. -/
theorem perm_joinAll (le : β → β → Bool) (f : Forest β) :
    (members? (joinAll le f)).Perm f.toList := by
  fun_induction joinAll le f with
  | case1 => exact List.Perm.nil
  | case2 a s => simp [members?, members, toList]
  | case3 a s b t rest pair h ih =>
    rw [h, members?] at ih
    have hpair := perm_join le (a, s) (b, t)
    have hrest : rest.toList = [] := List.nil_perm.mp ih
    rw [members?, toList, toList, hrest, List.append_nil]
    simpa [members] using hpair
  | case4 a s b t rest pair joined h ih =>
    rw [h, members?] at ih
    have hpair := perm_join le (a, s) (b, t)
    have hall := (perm_join le pair joined).trans (hpair.append ih)
    rw [members?, toList, toList]
    simpa [members] using hall

end Forest

namespace StableHeap

variable {α : Type}

/-- All members, in no particular order. -/
def values (h : StableHeap α) : List α := h.entries.map HeapEntry.value

theorem length_values (h : StableHeap α) : h.values.length = h.size := by
  rw [values, List.length_map, size_eq]

/-- A new entry has the key it is given and the number of the next arrival. -/
theorem perm_entries_push (h : StableHeap α) (key : Int) (a : α) :
    (h.push key a).entries.Perm (⟨key, h.arrivals, a⟩ :: h.entries) := by
  obtain ⟨root, arrivals⟩ := h
  cases root with
  | none => exact List.Perm.refl _
  | some t =>
    have hjoin := Forest.perm_join HeapEntry.le t (⟨key, arrivals, a⟩, .nil)
    exact hjoin.trans (List.perm_append_singleton _ _)

/-- The entry that is taken away is the top. -/
theorem perm_entries_pop? {h r : StableHeap α} {a : α} (hp : h.pop? = some (a, r)) :
    ∃ t, h.root = some t ∧ t.1.value = a ∧ r.arrivals = h.arrivals ∧
      h.entries.Perm (t.1 :: r.entries) := by
  obtain ⟨root, arrivals⟩ := h
  cases root with
  | none => simp [pop?] at hp
  | some t =>
    simp only [pop?, Option.some.injEq, Prod.mk.injEq] at hp
    obtain ⟨rfl, rfl⟩ := hp
    refine ⟨t, rfl, rfl, rfl, ?_⟩
    have hjoin := Forest.perm_joinAll HeapEntry.le t.2
    simp only [entries]
    refine List.Perm.cons _ (hjoin.symm.trans (List.Perm.of_eq ?_))
    cases Forest.joinAll HeapEntry.le t.2 <;> rfl

theorem perm_push (h : StableHeap α) (key : Int) (a : α) :
    (h.push key a).values.Perm (a :: h.values) :=
  (perm_entries_push h key a).map HeapEntry.value

theorem perm_pop? {h r : StableHeap α} {a : α} (hp : h.pop? = some (a, r)) :
    h.values.Perm (a :: r.values) := by
  obtain ⟨t, -, rfl, -, hperm⟩ := perm_entries_pop? hp
  exact hperm.map HeapEntry.value

theorem pop?_eq_none_iff (h : StableHeap α) : h.pop? = none ↔ h.values = [] := by
  obtain ⟨root, arrivals⟩ := h
  cases root with
  | none => simp [pop?, values, entries]
  | some t => simp [pop?, values, entries]

end StableHeap

/-! ### Policies -/

namespace Policy

/-- The tickets that a policy holds, in no particular order. -/
def tickets : Policy → List Ticket
  | .fcfs queue => queue.toList
  | .shortestFirst heap => heap.values
  | .priority heap => heap.values
  | .roundRobin _ queue => queue.toList

@[simp] theorem tickets_ofKind (k : PolicyKind) : (ofKind k).tickets = [] := by cases k <;> rfl

theorem length_tickets (p : Policy) : p.tickets.length = p.size := by
  cases p with
  | fcfs queue => exact (Fifo.size_eq queue).symm
  | shortestFirst heap => exact StableHeap.length_values heap
  | priority heap => exact StableHeap.length_values heap
  | roundRobin quantum queue => exact (Fifo.size_eq queue).symm

theorem perm_enqueue (p : Policy) (t : Ticket) : (p.enqueue t).tickets.Perm (t :: p.tickets) := by
  cases p with
  | fcfs queue => simp [tickets, enqueue]
  | shortestFirst heap => exact StableHeap.perm_push ..
  | priority heap => exact StableHeap.perm_push ..
  | roundRobin quantum queue => simp [tickets, enqueue]

theorem perm_dequeue? {p q : Policy} {t : Ticket} (h : p.dequeue? = some (t, q)) :
    p.tickets.Perm (t :: q.tickets) := by
  cases p with
  | fcfs queue =>
    obtain ⟨⟨t', r⟩, hd, he⟩ := Option.map_eq_some_iff.mp h
    obtain ⟨rfl, rfl⟩ := Prod.mk.inj he
    exact List.Perm.of_eq (Fifo.toList_of_dequeue? hd)
  | shortestFirst heap =>
    obtain ⟨⟨t', r⟩, hd, he⟩ := Option.map_eq_some_iff.mp h
    obtain ⟨rfl, rfl⟩ := Prod.mk.inj he
    exact StableHeap.perm_pop? hd
  | priority heap =>
    obtain ⟨⟨t', r⟩, hd, he⟩ := Option.map_eq_some_iff.mp h
    obtain ⟨rfl, rfl⟩ := Prod.mk.inj he
    exact StableHeap.perm_pop? hd
  | roundRobin quantum queue =>
    obtain ⟨⟨t', r⟩, hd, he⟩ := Option.map_eq_some_iff.mp h
    obtain ⟨rfl, rfl⟩ := Prod.mk.inj he
    exact List.Perm.of_eq (Fifo.toList_of_dequeue? hd)

/-- Only an empty policy has no next ticket. -/
theorem dequeue?_eq_none_iff (p : Policy) : p.dequeue? = none ↔ p.tickets = [] := by
  cases p <;> simp [dequeue?, tickets, Fifo.dequeue?_eq_none_iff, StableHeap.pop?_eq_none_iff]

theorem perm_enqueueAll (ts : List Ticket) (p : Policy) :
    (p.enqueueAll ts).tickets.Perm (ts ++ p.tickets) := by
  induction ts generalizing p with
  | nil => exact List.Perm.refl _
  | cons t ts ih =>
    have hrest : (p.enqueueAll (t :: ts)).tickets.Perm (ts ++ (p.enqueue t).tickets) :=
      ih (p.enqueue t)
    exact hrest.trans (((perm_enqueue p t).append_left ts).trans List.perm_middle)

/-- What is dequeued and what is left make up the content. -/
theorem perm_dequeueMany (n : Nat) (p : Policy) :
    p.tickets.Perm ((dequeueMany n p).1 ++ (dequeueMany n p).2.tickets) := by
  induction n generalizing p with
  | zero => exact List.Perm.refl _
  | succ n ih =>
    rw [dequeueMany_succ]
    split
    · exact List.Perm.refl _
    · next t q hd =>
      exact (perm_dequeue? hd).trans ((ih q).cons t)

/-- As many dequeues as there are tickets leave nothing. -/
theorem tickets_dequeueMany {n : Nat} {p : Policy} (h : p.size ≤ n) :
    (dequeueMany n p).2.tickets = [] := by
  induction n generalizing p with
  | zero => exact List.length_eq_zero_iff.mp (by rw [length_tickets]; exact Nat.le_zero.mp h)
  | succ n ih =>
    rw [dequeueMany_succ]
    split
    · next hd => exact (dequeue?_eq_none_iff p).mp hd
    · next t q hd =>
      have hsize := size_of_dequeue? hd
      exact ih (by omega)

theorem perm_drain (p : Policy) : p.drain.1.Perm p.tickets := by
  have hall := perm_dequeueMany p.size p
  rw [tickets_dequeueMany (Nat.le_refl _), List.append_nil] at hall
  exact hall.symm

/-- **Moving all tickets into another policy loses none.** -/
theorem perm_drainInto (source target : Policy) :
    (source.drainInto target).target.tickets.Perm (source.tickets ++ target.tickets) :=
  (perm_enqueueAll _ _).trans ((perm_drain source).append_right _)

end Policy

end JobDispatch
