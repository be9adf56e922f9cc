import JobDispatch.Proofs.Policy.Content

/-!
# The order inside a heap

In a heap no member comes before the top of its tree, at any depth.  Joining keeps this, whatever the
trees, as long as the comparison is a total preorder; the comparison of entries is one, and entries of
different arrivals are never equal in it, so the top of a heap is its only first entry.

## Main definitions

* `Forest.Ordered`, `Forest.Heaped` — no member of a tree comes before its top, for the trees below a
  top and for one tree.
* `StableHeap.Ordered` — the same of a heap.

## Main results

* `HeapEntry.le_trans`, `HeapEntry.le_total`, `HeapEntry.le_antisymm` — the comparison of entries is a
  total preorder, in which equal entries have one arrival.
* `Forest.heaped_join`, `Forest.heaped_joinAll` — joining keeps the order.
* `StableHeap.ordered_push`, `StableHeap.ordered_pop?` — **the operations of a heap keep the order.**
* `StableHeap.le_of_root` — the top comes before all entries.
-/

namespace JobDispatch

/-! ### Comparing entries -/

namespace HeapEntry

variable {α : Type} {a b c : HeapEntry α}

theorem le_iff : a.le b = true ↔ a.key < b.key ∨ (a.key = b.key ∧ a.arrival ≤ b.arrival) :=
  decide_eq_true_iff

theorem le_refl (a : HeapEntry α) : a.le a = true := le_iff.mpr (.inr ⟨rfl, Nat.le_refl _⟩)

theorem le_trans (a b c : HeapEntry α) (hab : a.le b = true) (hbc : b.le c = true) :
    a.le c = true := by
  rw [le_iff] at *
  rcases hab with hab | ⟨hab, habarr⟩
  · -- the key grows in the first step already
    rcases hbc with hbc | ⟨hbc, -⟩
    · exact .inl (Int.lt_trans hab hbc)
    · exact .inl (hbc ▸ hab)
  · rcases hbc with hbc | ⟨hbc, hbcarr⟩
    · exact .inl (hab ▸ hbc)
    · exact .inr ⟨hab.trans hbc, Nat.le_trans habarr hbcarr⟩

theorem le_total (a b : HeapEntry α) : a.le b = true ∨ b.le a = true := by
  rw [le_iff, le_iff]
  rcases Int.lt_trichotomy a.key b.key with hlt | heq | hgt
  · exact .inl (.inl hlt)
  · rcases Nat.le_total a.arrival b.arrival with harr | harr
    · exact .inl (.inr ⟨heq, harr⟩)
    · exact .inr (.inr ⟨heq.symm, harr⟩)
  · exact .inr (.inl hgt)

theorem le_antisymm (hab : a.le b = true) (hba : b.le a = true) :
    a.key = b.key ∧ a.arrival = b.arrival := by
  rw [le_iff] at *
  omega

end HeapEntry

/-! ### Trees -/

namespace Forest

variable {β : Type} (le : β → β → Bool)

/-- No member of the trees below a top comes before the top of its own tree. -/
def Ordered : Forest β → Prop
  | .nil => True
  | .tree top below rest =>
    (∀ b ∈ below.toList, le top b = true) ∧ below.Ordered ∧ rest.Ordered

/-- No member of a tree comes before its top, nor in the trees below. -/
def Heaped (t : β × Forest β) : Prop := (∀ b ∈ t.2.toList, le t.1 b = true) ∧ t.2.Ordered le

variable {le}

section Joining

variable (htrans : ∀ a b c : β, le a b = true → le b c = true → le a c = true)
include htrans

/-- A top that comes before another comes before everything in that one's tree. -/
theorem Heaped.le_of_mem {t : β × Forest β} (ht : Heaped le t) {a b : β} (ha : le a t.1 = true)
    (hb : b ∈ members t) : le a b = true := by
  rcases List.mem_cons.mp hb with rfl | hbelow
  · exact ha
  · exact htrans _ _ _ ha (ht.1 b hbelow)

/-- **Joining keeps the order.** -/
theorem heaped_join
    (htotal : ∀ a b : β, le a b = true ∨ le b a = true) {s t : β × Forest β} (hs : Heaped le s)
    (ht : Heaped le t) : Heaped le (join le s t) := by
  rw [join]
  split
  · next hle =>
    -- the second tree goes below the first top, in front of what is there
    refine ⟨?_, ht.1, ht.2, hs.2⟩
    intro b hb
    simp only [toList, List.mem_cons, List.mem_append] at hb
    rcases hb with hb | hb | hb
    · exact ht.le_of_mem htrans hle (List.mem_cons.mpr (.inl hb))
    · exact ht.le_of_mem htrans hle (List.mem_cons_of_mem _ hb)
    · exact hs.1 b hb
  · next hle =>
    have hge : le t.1 s.1 = true := (htotal s.1 t.1).resolve_left hle
    refine ⟨?_, hs.1, hs.2, ht.2⟩
    intro b hb
    simp only [toList, List.mem_cons, List.mem_append] at hb
    rcases hb with hb | hb | hb
    · exact hs.le_of_mem htrans hge (List.mem_cons.mpr (.inl hb))
    · exact hs.le_of_mem htrans hge (List.mem_cons_of_mem _ hb)
    · exact ht.1 b hb

/-- Joining all trees keeps the order. -/
theorem heaped_joinAll (htotal : ∀ a b : β, le a b = true ∨ le b a = true) (f : Forest β)
    (hf : f.Ordered le) :
    ∀ t, joinAll le f = some t → Heaped le t := by
  fun_induction joinAll le f with
  | case1 =>
    intro t ht
    cases ht
  | case2 a s =>
    intro t ht
    obtain rfl := Option.some.inj ht
    exact ⟨hf.1, hf.2.1⟩
  | case3 a s b t rest pair hrest ih =>
    intro u hu
    obtain rfl := Option.some.inj hu
    exact heaped_join htrans htotal ⟨hf.1, hf.2.1⟩ ⟨hf.2.2.1, hf.2.2.2.1⟩
  | case4 a s b t rest pair joined hrest ih =>
    intro u hu
    obtain rfl := Option.some.inj hu
    have hpair : Heaped le pair :=
      heaped_join htrans htotal ⟨hf.1, hf.2.1⟩ ⟨hf.2.2.1, hf.2.2.2.1⟩
    have hjoined : Heaped le joined := ih hf.2.2.2.2 joined hrest
    exact heaped_join htrans htotal hpair hjoined

end Joining

end Forest

/-! ### Heaps -/

namespace StableHeap

variable {α : Type}

/-- No entry comes before the top of its tree. -/
def Ordered (h : StableHeap α) : Prop := ∀ t, h.root = some t → Forest.Heaped HeapEntry.le t

theorem ordered_empty : (empty : StableHeap α).Ordered := by
  intro t ht
  cases ht

theorem ordered_push {h : StableHeap α} (ho : h.Ordered) (key : Int) (a : α) :
    (h.push key a).Ordered := by
  have hnew : Forest.Heaped HeapEntry.le ((⟨key, h.arrivals, a⟩ : HeapEntry α), .nil) :=
    ⟨fun b hb => (List.not_mem_nil hb).elim, trivial⟩
  intro t ht
  cases hroot : h.root with
  | none =>
    simp only [push, hroot, Option.some.injEq] at ht
    exact ht ▸ hnew
  | some s =>
    simp only [push, hroot, Option.some.injEq] at ht
    exact ht ▸ Forest.heaped_join HeapEntry.le_trans HeapEntry.le_total (ho s hroot) hnew

theorem ordered_pop? {h r : StableHeap α} {a : α} (ho : h.Ordered) (hp : h.pop? = some (a, r)) :
    r.Ordered := by
  intro t ht
  cases hroot : h.root with
  | none => simp [pop?, hroot] at hp
  | some s =>
    simp only [pop?, hroot, Option.some.injEq, Prod.mk.injEq] at hp
    obtain ⟨-, rfl⟩ := hp
    exact Forest.heaped_joinAll HeapEntry.le_trans HeapEntry.le_total s.2 (ho s hroot).2 t ht

/-- The top of a heap comes before all its entries. -/
theorem le_of_root {h : StableHeap α} (ho : h.Ordered) {t : HeapEntry α × Forest (HeapEntry α)}
    (ht : h.root = some t) {e : HeapEntry α} (he : e ∈ h.entries) : t.1.le e = true := by
  have hmem : e ∈ Forest.members t := by
    rw [entries, ht] at he
    exact he
  exact (ho t ht).le_of_mem HeapEntry.le_trans (HeapEntry.le_refl t.1) hmem

end StableHeap

end JobDispatch
