/-!
# Stable heaps

A heap gives back the member with the least key; of several with equal keys, the one that arrived
first.  It is a forest of trees in which no member comes before the top of its tree: joining two
trees puts the one with the larger top below the other, and taking the top off joins the trees below
it, first in pairs and then the pairs.

## Main definitions

* `HeapEntry` — a member with its key and the number of its arrival; `HeapEntry.le` compares them.
* `Forest` — the trees below a top.
* `StableHeap` — the heap, and its operations `push`, `pop?`, `peek?` and `size`.
-/

namespace JobDispatch

/-- A member of a heap, with its key and the number of its arrival. -/
structure HeapEntry (α : Type) where
  key : Int
  arrival : Nat
  value : α

/-- Whether an entry comes no later than another: by the key first, then by the arrival. -/
def HeapEntry.le {α : Type} (a b : HeapEntry α) : Bool :=
  decide (a.key < b.key ∨ (a.key = b.key ∧ a.arrival ≤ b.arrival))

/-- A list of trees, each with a top and the trees below it. -/
inductive Forest (β : Type)
  | nil
  | tree (top : β) (below rest : Forest β)

namespace Forest

variable {β : Type}

/-- All members. -/
def toList : Forest β → List β
  | .nil => []
  | .tree top below rest => top :: (below.toList ++ rest.toList)

/-- The number of members. -/
def size : Forest β → Nat
  | .nil => 0
  | .tree _ below rest => below.size + rest.size + 1

/-- Two trees become one: the larger top goes below the other. -/
def join (le : β → β → Bool) (s t : β × Forest β) : β × Forest β :=
  if le s.1 t.1 then (s.1, .tree t.1 t.2 s.2) else (t.1, .tree s.1 s.2 t.2)

/-- All trees become one: neighbours are joined first, then the pairs from the last to the first. -/
def joinAll (le : β → β → Bool) : Forest β → Option (β × Forest β)
  | .nil => none
  | .tree a s .nil => some (a, s)
  | .tree a s (.tree b t rest) =>
    let pair := join le (a, s) (b, t)
    match joinAll le rest with
    | none => some pair
    | some joined => some (join le pair joined)

@[simp] theorem toList_nil : (nil : Forest β).toList = [] := rfl

@[simp] theorem size_nil : (nil : Forest β).size = 0 := rfl

theorem size_eq (f : Forest β) : f.size = f.toList.length := by
  induction f with
  | nil => rfl
  | tree top below rest ihb ihr => simp [size, toList, ihb, ihr]

theorem size_join (le : β → β → Bool) (s t : β × Forest β) :
    (join le s t).2.size = s.2.size + t.2.size + 1 := by
  rw [join]
  split
  · -- the first top stays, and the second tree hangs below it
    rw [size, Nat.add_comm t.2.size]
  · -- the second top stays, and the first tree hangs below it
    rw [size]

/-- Joining all trees keeps every member: one becomes the top. -/
theorem size_joinAll (le : β → β → Bool) (f : Forest β) :
    f.size = match joinAll le f with
      | none => 0
      | some t => t.2.size + 1 := by
  fun_induction joinAll le f with
  | case1 => rfl
  | case2 a s => simp [size]
  | case3 a s b t rest pair h ih =>
    rw [h] at ih
    simp only [size, pair, size_join, ih]
    omega
  | case4 a s b t rest pair joined h ih =>
    rw [h] at ih
    simp only [size, pair, size_join, ih]
    omega

end Forest

/-- A heap that gives back its members by key, and by arrival among equal keys. -/
structure StableHeap (α : Type) where
  /-- The tree of all members. -/
  root : Option (HeapEntry α × Forest (HeapEntry α)) := none
  /-- The number of arrivals so far. -/
  arrivals : Nat := 0

namespace StableHeap

variable {α : Type}

/-- A heap without members. -/
def empty : StableHeap α := {}

/-- Adds a member under a key. -/
def push (h : StableHeap α) (key : Int) (a : α) : StableHeap α :=
  let entry : HeapEntry α × Forest (HeapEntry α) := (⟨key, h.arrivals, a⟩, .nil)
  { root := some (match h.root with
      | none => entry
      | some t => Forest.join HeapEntry.le t entry)
    arrivals := h.arrivals + 1 }

/-- The first member and the heap without it. -/
def pop? (h : StableHeap α) : Option (α × StableHeap α) :=
  match h.root with
  | none => none
  | some (top, below) => some (top.value, { h with root := Forest.joinAll HeapEntry.le below })

/-- The first member. -/
def peek? (h : StableHeap α) : Option α := h.root.map fun t => t.1.value

/-- The number of members. -/
def size (h : StableHeap α) : Nat :=
  match h.root with
  | none => 0
  | some (_, below) => below.size + 1

/-- All members with their keys and arrivals. -/
def entries (h : StableHeap α) : List (HeapEntry α) :=
  match h.root with
  | none => []
  | some (top, below) => top :: below.toList

@[simp] theorem entries_empty : (empty : StableHeap α).entries = [] := rfl

theorem size_eq (h : StableHeap α) : h.size = h.entries.length := by
  obtain ⟨root, _⟩ := h
  cases root with
  | none => rfl
  | some t => simp [size, entries, Forest.size_eq]

/-- Taking the first member leaves one less. -/
theorem size_of_pop? {h r : StableHeap α} {a : α} (hp : h.pop? = some (a, r)) :
    h.size = r.size + 1 := by
  obtain ⟨root, n⟩ := h
  cases root with
  | none => simp [pop?] at hp
  | some t =>
    simp only [pop?, Option.some.injEq, Prod.mk.injEq] at hp
    obtain ⟨-, rfl⟩ := hp
    have key := Forest.size_joinAll HeapEntry.le t.2
    simp only [size]
    cases hj : Forest.joinAll HeapEntry.le t.2 <;> simp_all

theorem peek?_eq_pop? (h : StableHeap α) : h.peek? = h.pop?.map Prod.fst := by
  obtain ⟨root, arrivals⟩ := h
  cases root <;> rfl

end StableHeap

end JobDispatch
