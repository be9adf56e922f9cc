import Mathlib.Data.List.Basic

/-!
# Stable sorting

A sorted list is fixed by what it lists of each class of equal keys, in which order.  A stable sort
leaves that alone, so it commutes with every choice of members, and sorting a part first makes no
difference.

## Main definitions

* `sameClass` — whether two members have equal keys.

## Main results

* `mergeSort_filter` — a stable sort keeps the order of those that are left.
* `filter_sameClass_mergeSort` — **a stable sort keeps the order of members with equal keys.**
* `eq_of_filter_sameClass` — sorted lists that agree on every class of equal keys are equal.
* `mergeSort_mergeSort_append` — a part may be sorted before the whole is.
-/

namespace JobDispatch

section Sorting

variable {α : Type} {le : α → α → Bool}

/-- Whether two members have equal keys: each may come before the other. -/
def sameClass (le : α → α → Bool) (a b : α) : Bool := le a b && le b a

/-- **Sorted lists that agree on every class of equal keys are equal.** -/
theorem eq_of_filter_sameClass (hrefl : ∀ a, le a a = true) :
    ∀ {x y : List α}, x.Pairwise (le · · = true) → y.Pairwise (le · · = true) →
      (∀ a, x.filter (sameClass le a) = y.filter (sameClass le a)) → x = y
  | [], [], _, _, _ => rfl
  | [], b :: y, _, _, h => by
    have hb := h b
    simp [sameClass, hrefl] at hb
  | a :: x, [], _, _, h => by
    have ha := h a
    simp [sameClass, hrefl] at ha
  | a :: x, b :: y, hx, hy, h => by
    have hself : ∀ c, sameClass le c c = true := fun c => by simp [sameClass, hrefl]
    -- each head is listed by the other list too, so neither may come later
    have ha : a ∈ b :: y := List.mem_of_mem_filter
      (h a ▸ List.mem_filter.mpr ⟨List.mem_cons_self, hself a⟩ :)
    have hb : b ∈ a :: x := List.mem_of_mem_filter
      ((h b).symm ▸ List.mem_filter.mpr ⟨List.mem_cons_self, hself b⟩ :)
    have hba : le b a = true := by
      rcases List.mem_cons.mp ha with rfl | ha
      · exact hrefl a
      · exact (List.pairwise_cons.mp hy).1 a ha
    have hab : le a b = true := by
      rcases List.mem_cons.mp hb with rfl | hb
      · exact hrefl b
      · exact (List.pairwise_cons.mp hx).1 b hb
    have hclass : sameClass le a b = true := by rw [sameClass, hab, hba]; rfl
    have hhead := h a
    rw [List.filter_cons_of_pos (hself a), List.filter_cons_of_pos hclass] at hhead
    obtain rfl := (List.cons.inj hhead).1
    refine congrArg (a :: ·) (eq_of_filter_sameClass hrefl hx.of_cons hy.of_cons fun c => ?_)
    have hc := h c
    rw [List.filter_cons, List.filter_cons] at hc
    split at hc
    · exact (List.cons.inj hc).2
    · exact hc

section Ordered

variable (htrans : ∀ a b c, le a b = true → le b c = true → le a c = true)
  (htotal : ∀ a b, (le a b || le b a) = true)
include htrans htotal

/-- A stable sort puts a member behind those that are before it and in front of all others. -/
theorem mergeSort_cons_eq (a : α) (l : List α) :
    (a :: l).mergeSort le
      = ((l.mergeSort le).filter fun b => !le a b) ++ a :: (l.mergeSort le).filter fun b => le a b := by
  obtain ⟨before, after, hsorted, hrest, hbefore⟩ := List.mergeSort_cons htrans htotal a l
  have hordered := List.pairwise_mergeSort htrans htotal (a :: l)
  rw [hsorted, List.pairwise_append, List.pairwise_cons] at hordered
  have hafter : ∀ b ∈ after, le a b = true := hordered.2.1.1
  have hnot : after.filter (fun b => !le a b) = [] :=
    List.filter_eq_nil_iff.mpr fun b hb => by simp [hafter b hb]
  have hnone : before.filter (fun b => le a b) = [] :=
    List.filter_eq_nil_iff.mpr fun b hb => by simpa using hbefore b hb
  rw [hsorted, hrest, List.filter_append, List.filter_append, List.filter_eq_self.mpr hbefore, hnot,
    hnone, List.filter_eq_self.mpr hafter, List.append_nil, List.nil_append]

/-- **A stable sort keeps the order of those that are left.** -/
theorem mergeSort_filter (p : α → Bool) (l : List α) :
    (l.filter p).mergeSort le = (l.mergeSort le).filter p := by
  induction l with
  | nil => simp
  | cons a l ih =>
    cases ha : p a with
    | true =>
      -- what is left of the members before it is sorted before it, and likewise behind it
      rw [List.filter_cons_of_pos ha, mergeSort_cons_eq htrans htotal, mergeSort_cons_eq htrans htotal,
        ih, List.filter_append, List.filter_cons_of_pos ha, List.filter_comm _ p, List.filter_comm _ p]
    | false =>
      have hne : ¬p a = true := by simp [ha]
      obtain ⟨before, after, hsorted, hrest, -⟩ := List.mergeSort_cons htrans htotal a l
      rw [List.filter_cons_of_neg hne, ih, hsorted, hrest, List.filter_append, List.filter_append,
        List.filter_cons_of_neg hne]

/-- **A stable sort keeps the order of members with equal keys.** -/
theorem filter_sameClass_mergeSort (a : α) (l : List α) :
    (l.mergeSort le).filter (sameClass le a) = l.filter (sameClass le a) := by
  rw [← mergeSort_filter htrans htotal]
  -- in a class of equal keys every order is sorted
  refine List.mergeSort_of_pairwise (List.pairwise_of_forall_mem_list fun b hb c hc => ?_)
  have hb := (List.mem_filter.mp hb).2
  have hc := (List.mem_filter.mp hc).2
  rw [sameClass, Bool.and_eq_true] at hb hc
  exact htrans b a c hb.2 hc.1

/-- **A part may be sorted before the whole is.** -/
theorem mergeSort_mergeSort_append (l r : List α) :
    (l.mergeSort le ++ r).mergeSort le = (l ++ r).mergeSort le := by
  have hrefl : ∀ a, le a a = true := fun a => by simpa using htotal a a
  refine eq_of_filter_sameClass hrefl (List.pairwise_mergeSort htrans htotal _)
    (List.pairwise_mergeSort htrans htotal _) fun a => ?_
  simp only [filter_sameClass_mergeSort htrans htotal, List.filter_append]

end Ordered

end Sorting

end JobDispatch
