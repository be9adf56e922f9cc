import JobDispatch.Files.Path
import Mathlib.Data.List.Basic

/-!
# Stems and extensions

A file name has an extension if it has a dot that does not stand first; the extension is what follows the
last dot, and it may be empty.  The name of a dot file is all stem.

## Main definitions

* `Path.Splits` — a file name has a stem, and an extension or none.

## Main results

* `Path.splitName_eq_iff` — **a file name is split into its stem and its extension.**
* `Path.Splits.name_inj` — stem and extension give the file name back.
-/

namespace JobDispatch

namespace Path

variable {name name' stem : List Char} {ext? : Option (List Char)}

/-- **A file name has a stem, and an extension or none.** -/
inductive Splits : List Char → List Char → Option (List Char) → Prop
  /-- There is no dot, or only one, and that one stands first. -/
  | whole {name : List Char} (h : '.' ∉ name.tail) : Splits name name none
  /-- A dot does not stand first, and there is none after it. -/
  | extended {stem ext : List Char} (hstem : stem ≠ []) (hext : '.' ∉ ext) :
    Splits (stem ++ '.' :: ext) stem (some ext)

theorem exists_splits (name : List Char) : ∃ stem ext?, Splits name stem ext? := by
  by_cases h : '.' ∈ name.tail
  · obtain ⟨c, tail, rfl⟩ : ∃ c tail, name = c :: tail :=
      List.exists_cons_of_ne_nil (by rintro rfl; cases h)
    -- the last dot of the tail is the first one from behind
    obtain ⟨ext, stem, hback, hext⟩ := List.eq_append_cons_of_mem (List.mem_reverse.mpr h)
    have htail : tail = stem.reverse ++ '.' :: ext.reverse := by
      simpa using congrArg List.reverse hback
    refine ⟨c :: stem.reverse, some ext.reverse, ?_⟩
    rw [htail, ← List.cons_append]
    exact .extended (List.cons_ne_nil _ _) fun hmem => hext (List.mem_reverse.mp hmem)
  · exact ⟨name, none, .whole h⟩

theorem forall_bne_of_not_mem {s : List Char} (h : '.' ∉ s) : ∀ c ∈ s.reverse, (c != '.') = true := by
  intro c hc
  rw [bne_iff_ne]
  rintro rfl
  exact h (List.mem_reverse.mp hc)

theorem Splits.splitName_eq (h : Splits name stem ext?) : splitName name = (stem, ext?) := by
  cases h with
  | whole h =>
    cases name with
    | nil => rfl
    | cons c tail =>
      have htail : ∀ d ∈ tail.reverse, (d != '.') = true := forall_bne_of_not_mem h
      have hdrop : (c :: tail).reverse.dropWhile (· != '.') = [c].dropWhile (· != '.') := by
        rw [List.reverse_cons, List.dropWhile_append_of_pos htail]
      simp only [splitName, hdrop]
      by_cases hc : c = '.'
      · simp [hc]
      · simp [hc]
  | @extended stem ext hstem hext =>
    have hback : (stem ++ '.' :: ext).reverse = ext.reverse ++ '.' :: stem.reverse := by simp
    have hdrop : (stem ++ '.' :: ext).reverse.dropWhile (· != '.') = '.' :: stem.reverse := by
      rw [hback, List.dropWhile_append_of_pos (forall_bne_of_not_mem hext)]
      rfl
    have htake : (stem ++ '.' :: ext).reverse.takeWhile (· != '.') = ext.reverse := by
      rw [hback, List.takeWhile_append_of_pos (forall_bne_of_not_mem hext)]
      simp
    simp only [splitName, hdrop, htake]
    simp [hstem]

/-- **A file name is split into its stem and its extension.** -/
theorem splitName_eq_iff : splitName name = (stem, ext?) ↔ Splits name stem ext? := by
  constructor
  · intro h
    obtain ⟨stem', ext?', hsplits⟩ := exists_splits name
    obtain ⟨rfl, rfl⟩ := Prod.mk.inj (hsplits.splitName_eq.symm.trans h)
    exact hsplits
  · exact Splits.splitName_eq

/-- Stem and extension give the file name back. -/
theorem Splits.name_inj (h : Splits name stem ext?) (h' : Splits name' stem ext?) : name = name' := by
  cases h with
  | whole => cases h' with
    | whole => rfl
  | extended => cases h' with
    | extended => rfl

end Path

end JobDispatch
