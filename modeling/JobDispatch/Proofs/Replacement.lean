import Mathlib.Data.List.Perm.Basic

/-!
# Replacing one member of a list

The executions of a scheduler and those in flight in a pool stand in lists, and a step replaces one of
them.  What is read off the whole list changes only by what the step has changed in that one.

## Main results

* `map_set_of_eq` — what the replacement keeps, the list keeps.
* `of_mem_set` — the members after a replacement.
* `perm_flatMap_set` — the part of one member is exchanged for that of its replacement.
-/

namespace JobDispatch

variable {α β : Type} {l : List α} {k : Nat} {a b : α}

/-- What the replacement of a member keeps of it, the list keeps. -/
theorem map_set_of_eq (h : l[k]? = some a) {f : α → β} (hf : f b = f a) :
    (l.set k b).map f = l.map f := by
  have hget : (l.map f)[k]? = some (f a) := by rw [List.getElem?_map, h, Option.map_some]
  obtain ⟨hk, hself⟩ := List.getElem?_eq_some_iff.mp hget
  rw [List.map_set, hf, ← hself]
  exact List.set_getElem_self hk

/-- A member of a list after a replacement: the new one, or an old one at another place. -/
theorem of_mem_set (h : a ∈ l.set k b) : a = b ∨ ∃ i, i ≠ k ∧ l[i]? = some a := by
  obtain ⟨i, hi⟩ := List.mem_iff_getElem?.mp h
  by_cases hik : i = k
  · subst hik
    rw [List.getElem?_set] at hi
    simp only [if_true] at hi
    split at hi
    · exact Or.inl (Option.some.inj hi).symm
    · exact absurd hi (by simp)
  · exact Or.inr ⟨i, hik, (List.getElem?_set_ne (Ne.symm hik)).symm.trans hi⟩

/-- Of a list that is made from all members, the part of one member is exchanged for that of its
replacement. -/
theorem perm_flatMap_set (h : l[k]? = some a) (f : α → List β) (b : α) :
    (f a ++ (l.set k b).flatMap f).Perm (f b ++ l.flatMap f) := by
  induction l generalizing k with
  | nil => exact absurd h (by simp)
  | cons c l ih =>
    cases k with
    | zero =>
      obtain rfl : c = a := by simpa using h
      rw [List.set_cons_zero, List.flatMap_cons, List.flatMap_cons]
      exact List.perm_append_comm_assoc _ _ _
    | succ k =>
      have hrest := (ih (by simpa using h)).append_left (f c)
      rw [List.set_cons_succ, List.flatMap_cons, List.flatMap_cons]
      exact (List.perm_append_comm_assoc _ _ _).trans (hrest.trans (List.perm_append_comm_assoc _ _ _))

/-- What the replacement adds, the list gets. -/
theorem perm_flatMap_set_of_eq (h : l[k]? = some a) {f : α → List β} {more : List β}
    (hf : f b = f a ++ more) : ((l.set k b).flatMap f).Perm (l.flatMap f ++ more) := by
  have hset := perm_flatMap_set h f b
  rw [hf, List.append_assoc] at hset
  exact ((List.perm_append_left_iff _).mp hset).trans List.perm_append_comm

end JobDispatch
