import JobDispatch.Text.Blank
import Mathlib.Data.List.Basic
import Mathlib.Data.List.TakeWhile

/-!
# Words are runs

The words of a text are what is left when it is cut at white space.  Here they are found again without
cutting: a word is a run of characters that are not white, at a certain place, and as long as it can be.

## Main definitions

* `Text.IsWhite` — the white space of Unicode, character by character.
* `Text.RunAt` — a run of characters that are not white, as long as it can be.
* `Text.IsRuns` — all runs of a text, from left to right.

## Main results

* `Text.isBlank_iff` — what is taken for blank is the white space of Unicode.
* `Text.runs_induction` — a text is made of white characters and of runs.
* `Text.runAt_append`, `Text.words_append_of_white` — no run, and no word, crosses a white character.
* `Text.isRuns_words` — **the words of a text are its runs.**
* `Text.length_words_le` — there are no more words than characters.
-/

namespace JobDispatch.Text

/-! ### White characters -/

/-- The numbers of the characters that Unicode calls white space. -/
def whiteSpace : List Nat :=
  [0x0009, 0x000A, 0x000B, 0x000C, 0x000D, 0x0020, 0x0085, 0x00A0, 0x1680, 0x2000, 0x2001, 0x2002, 0x2003,
    0x2004, 0x2005, 0x2006, 0x2007, 0x2008, 0x2009, 0x200A, 0x2028, 0x2029, 0x202F, 0x205F, 0x3000]

/-- A character is white. -/
def IsWhite (c : Char) : Prop := c.toNat ∈ whiteSpace

instance (c : Char) : Decidable (IsWhite c) := inferInstanceAs (Decidable (c.toNat ∈ whiteSpace))

/-- **What is taken for blank is the white space of Unicode.** -/
theorem isBlank_iff {c : Char} : isBlank c = true ↔ IsWhite c := by
  simp only [isBlank, IsWhite, whiteSpace, Bool.or_eq_true, Bool.and_eq_true, decide_eq_true_eq,
    beq_iff_eq, List.mem_cons, List.not_mem_nil, or_false]
  omega

theorem isBlank_eq_false_iff {c : Char} : isBlank c = false ↔ ¬IsWhite c := by
  rw [← isBlank_iff, Bool.not_eq_true]

variable {s t w : List Char} {c : Char} {place : Nat}

/-- A text is empty or begins with a white character. -/
def StartsWhite (s : List Char) : Prop := ∀ c ∈ s.head?, IsWhite c

/-- A text is empty or ends with a white character. -/
def EndsWhite (s : List Char) : Prop := ∀ c ∈ s.getLast?, IsWhite c

/-- A text is made of white characters and of runs of others, each of which ends the text or is followed by
a white character. -/
@[elab_as_elim]
theorem runs_induction {motive : List Char → Prop} (nil : motive [])
    (white : ∀ c s, IsWhite c → motive s → motive (c :: s))
    (run : ∀ w s, w ≠ [] → (∀ c ∈ w, ¬IsWhite c) → StartsWhite s → motive s → motive (w ++ s))
    (s : List Char) : motive s := by
  -- on the number of characters, for a run is taken off as a whole
  induction hn : s.length using Nat.strongRecOn generalizing s with
  | _ n ih =>
    cases s with
    | nil => exact nil
    | cons c s =>
      by_cases hc : IsWhite c
      · exact white c s hc (ih s.length (by simp [← hn]) s rfl)
      · have hsplit : s.takeWhile (!isBlank ·) ++ s.dropWhile (!isBlank ·) = s :=
          List.takeWhile_append_dropWhile
        have hshort : (s.dropWhile (!isBlank ·)).length < n := by
          have hlength := congrArg List.length hsplit
          rw [List.length_append] at hlength
          simp only [List.length_cons] at hn
          omega
        rw [← hsplit, ← List.cons_append]
        refine run _ _ (List.cons_ne_nil _ _) ?_ ?_ (ih _ hshort _ rfl)
        · intro d hd
          rcases List.mem_cons.mp hd with rfl | hd
          · exact hc
          · have hnot := List.mem_takeWhile_imp hd
            rw [Bool.not_eq_true'] at hnot
            exact isBlank_eq_false_iff.mp hnot
        · intro d hd
          have hstop := List.head?_dropWhile_not (!isBlank ·) s
          rw [hd] at hstop
          simpa [isBlank_iff] using hstop

/-! ### Words -/

theorem words_cons_of_isWhite (hc : IsWhite c) (s : List Char) : words (c :: s) = words s :=
  words_append_blank (isBlank_iff.mpr hc) [] s

/-- No word crosses a white character. -/
theorem words_append_of_white (h : EndsWhite s ∨ StartsWhite t) : words (s ++ t) = words s ++ words t := by
  rcases h with h | h
  · rcases List.eq_nil_or_concat s with rfl | ⟨s, c, rfl⟩
    · rfl
    · have hc : isBlank c = true := isBlank_iff.mpr (h c (by simp))
      rw [List.concat_eq_append, List.append_assoc, List.singleton_append, words_append_blank hc,
        words_append_blank hc, words_nil, List.append_nil]
  · cases t with
    | nil => rw [List.append_nil, words_nil, List.append_nil]
    | cons c t =>
      have hc : IsWhite c := h c rfl
      rw [words_append_blank (isBlank_iff.mpr hc), words_cons_of_isWhite hc]

theorem wordsFrom_of_not_white (hw : ∀ c ∈ w, ¬IsWhite c) : ∀ run, w ≠ [] →
    wordsFrom run w = [run.reverse ++ w] := by
  induction w with
  | nil => intro run h; exact absurd rfl h
  | cons c w ih =>
    intro run _
    have hc : isBlank c = false := isBlank_eq_false_iff.mpr (hw c List.mem_cons_self)
    have hrest := ih (fun d hd => hw d (List.mem_cons_of_mem c hd)) (c :: run)
    rw [wordsFrom, if_neg (by simp [hc])]
    cases w with
    | nil => simp [wordsFrom]
    | cons d w => rw [hrest (List.cons_ne_nil d w), List.reverse_cons, List.append_assoc]; rfl

/-- A run by itself is one word. -/
theorem words_of_not_white (hne : w ≠ []) (hw : ∀ c ∈ w, ¬IsWhite c) : words w = [w] :=
  wordsFrom_of_not_white hw [] hne

/-- There are no more words than characters. -/
theorem length_words_le (s : List Char) : (words s).length ≤ s.length := by
  induction s using runs_induction with
  | nil => exact Nat.le_refl 0
  | white c s hc ih =>
    rw [words_cons_of_isWhite hc]
    exact Nat.le_succ_of_le ih
  | run w s hne hw hs ih =>
    have hpos : 0 < w.length := List.length_pos_iff.mpr hne
    rw [words_append_of_white (.inr hs), words_of_not_white hne hw, List.length_append, List.length_append,
      List.length_singleton]
    omega

/-! ### Runs -/

/-- **A run of characters that are not white, as long as it can be**: it begins at a place of a text, and
what stands next to it is white. -/
def RunAt (s : List Char) (place : Nat) (w : List Char) : Prop :=
  w ≠ [] ∧ (∀ c ∈ w, ¬IsWhite c) ∧
    ∃ before after, s = before ++ w ++ after ∧ before.length = place ∧ EndsWhite before ∧ StartsWhite after

theorem not_startsWhite (hne : w ≠ []) (hw : ∀ c ∈ w, ¬IsWhite c) (t : List Char) :
    ¬StartsWhite (w ++ t) := by
  intro h
  obtain ⟨c, rest, rfl⟩ := List.exists_cons_of_ne_nil hne
  exact hw c List.mem_cons_self (h c rfl)

theorem not_endsWhite (hne : w ≠ []) (hw : ∀ c ∈ w, ¬IsWhite c) (s : List Char) :
    ¬EndsWhite (s ++ w) := by
  intro h
  obtain ⟨rest, c, rfl⟩ := (List.eq_nil_or_concat w).resolve_left hne
  exact hw c (by simp) (h c (by simp))

theorem StartsWhite.of_append {t : List Char} (h : StartsWhite (s ++ t)) : StartsWhite s := by
  intro c hc
  cases s with
  | nil => cases hc
  | cons d s => exact h c hc

theorem EndsWhite.of_append {t : List Char} (h : EndsWhite (s ++ t)) : EndsWhite t :=
  fun c hc => h c (List.mem_getLast?_append_of_mem_getLast? hc)

/-- A run of the first of two texts is one of both together. -/
theorem RunAt.append (h : EndsWhite s ∨ StartsWhite t) (hrun : RunAt s place w) :
    RunAt (s ++ t) place w := by
  obtain ⟨hne, hw, before, after, rfl, hplace, hbefore, hafter⟩ := hrun
  refine ⟨hne, hw, before, after ++ t, by simp, hplace, hbefore, ?_⟩
  cases after with
  | nil =>
    rw [List.append_nil] at h
    exact h.resolve_left (not_endsWhite hne hw before)
  | cons c after => exact hafter

/-- A run of the second of two texts is one of both together. -/
theorem RunAt.shift (h : EndsWhite s ∨ StartsWhite t) (hrun : RunAt t place w) :
    RunAt (s ++ t) (s.length + place) w := by
  obtain ⟨hne, hw, before, after, rfl, rfl, hbefore, hafter⟩ := hrun
  refine ⟨hne, hw, s ++ before, after, by simp, List.length_append, ?_, hafter⟩
  rcases List.eq_nil_or_concat before with rfl | ⟨before, c, rfl⟩
  · rw [List.append_nil]
    exact h.resolve_right (List.append_assoc [] w after ▸ not_startsWhite hne hw after)
  · intro d hd
    rw [List.getLast?_append_of_ne_nil s (by simp)] at hd
    exact hbefore d hd

/-- **No run crosses a white character**: the runs of two texts together are those of each. -/
theorem runAt_append (h : EndsWhite s ∨ StartsWhite t) : RunAt (s ++ t) place w ↔
    RunAt s place w ∨ ∃ k, place = s.length + k ∧ RunAt t k w := by
  constructor
  · rintro ⟨hne, hw, before, after, hst, rfl, hbefore, hafter⟩
    rcases List.append_eq_append_iff.mp hst with ⟨x, hx, rfl⟩ | ⟨x, rfl, rfl⟩
    · rcases List.append_eq_append_iff.mp hx with ⟨y, rfl, rfl⟩ | ⟨y, rfl, rfl⟩
      · -- the seam is within the run, or next to it
        by_cases hy : y = []
        · subst hy
          exact .inr ⟨0, by simp, hne, hw, [], after, by simp, rfl, by simp [EndsWhite], hafter⟩
        · have hyw : ∀ c ∈ y, ¬IsWhite c := fun c hc => hw c (List.mem_append_left x hc)
          have hxw : ∀ c ∈ x, ¬IsWhite c := fun c hc => hw c (List.mem_append_right y hc)
          have hstarts : StartsWhite (x ++ after) := h.resolve_left (not_endsWhite hy hyw before)
          have hx : x = [] := by
            by_contra hx
            exact not_startsWhite hx hxw after hstarts
          subst hx
          exact .inl ⟨hne, hw, before, [], by simp, rfl, hbefore, by simp [StartsWhite]⟩
      · exact .inr ⟨y.length, List.length_append, hne, hw, y, after, rfl, rfl, hbefore.of_append, hafter⟩
    · exact .inl ⟨hne, hw, before, x, rfl, rfl, hbefore, hafter.of_append⟩
  · rintro (hrun | ⟨k, rfl, hrun⟩)
    · exact hrun.append h
    · exact hrun.shift h

/-- A run by itself is its only run. -/
theorem runAt_of_not_white {v : List Char} (hne : v ≠ []) (hv : ∀ c ∈ v, ¬IsWhite c) :
    RunAt v place w ↔ place = 0 ∧ w = v := by
  constructor
  · rintro ⟨-, -, before, after, rfl, rfl, hbefore, hafter⟩
    have hnil : before = [] := by
      by_contra h
      have hno := not_endsWhite h (fun c hc => hv c (by simp [hc])) []
      exact hno hbefore
    have hnil' : after = [] := by
      by_contra h
      have hno := not_startsWhite h (fun c hc => hv c (by simp [hc])) []
      exact hno (by rwa [List.append_nil])
    simp [hnil, hnil']
  · rintro ⟨rfl, rfl⟩
    exact ⟨hne, hv, [], [], by simp, rfl, by simp [EndsWhite], by simp [StartsWhite]⟩

theorem not_runAt_nil : ¬RunAt [] place w := by
  rintro ⟨hne, -, before, after, hnil, -⟩
  simp at hnil
  exact hne hnil.2.1

theorem not_runAt_of_isWhite (hc : IsWhite c) : ¬RunAt [c] place w := by
  rintro ⟨hne, hw, before, after, hword, -⟩
  obtain ⟨d, rest, rfl⟩ := List.exists_cons_of_ne_nil hne
  have hmem : d ∈ [c] := hword ▸ by simp
  obtain rfl := List.mem_singleton.mp hmem
  exact hw d List.mem_cons_self hc

/-- **All runs of a text, from left to right**, each with its place. -/
structure IsRuns (s : List Char) (runs : List (Nat × List Char)) : Prop where
  ascending : runs.Pairwise fun r r' => r.1 < r'.1
  mem_iff : ∀ place w, (place, w) ∈ runs ↔ RunAt s place w

/-- A run ends within its text. -/
theorem RunAt.add_length_le (h : RunAt s place w) : place + w.length ≤ s.length := by
  obtain ⟨-, -, before, after, rfl, rfl, -⟩ := h
  simp

/-- The runs of two texts together are those of the first, and then those of the second. -/
theorem IsRuns.append {runs runs' : List (Nat × List Char)} (h : EndsWhite s ∨ StartsWhite t)
    (hs : IsRuns s runs) (ht : IsRuns t runs') :
    IsRuns (s ++ t) (runs ++ runs'.map fun r => (s.length + r.1, r.2)) where
  ascending := by
    refine List.pairwise_append.mpr ⟨hs.ascending, ?_, ?_⟩
    · rw [List.pairwise_map]
      exact ht.ascending.imp fun hlt => Nat.add_lt_add_left hlt s.length
    · intro r hr r' hr'
      obtain ⟨q, -, rfl⟩ := List.mem_map.mp hr'
      have hrun : RunAt s r.1 r.2 := (hs.mem_iff r.1 r.2).mp hr
      have hend := hrun.add_length_le
      have hpos : 0 < r.2.length := List.length_pos_iff.mpr hrun.1
      simp only
      omega
  mem_iff place w := by
    rw [runAt_append h, List.mem_append, hs.mem_iff, List.mem_map]
    refine or_congr_right ⟨?_, ?_⟩
    · rintro ⟨⟨k, v⟩, hk, hsame⟩
      obtain ⟨rfl, rfl⟩ := Prod.mk.inj hsame
      exact ⟨k, rfl, (ht.mem_iff k v).mp hk⟩
    · rintro ⟨k, rfl, hk⟩
      exact ⟨(k, w), (ht.mem_iff k w).mpr hk, rfl⟩

/-- **The words of a text are its runs**, from left to right. -/
theorem isRuns_words (s : List Char) : ∃ runs, IsRuns s runs ∧ runs.map Prod.snd = words s := by
  induction s using runs_induction with
  | nil => exact ⟨[], ⟨List.Pairwise.nil, fun place w => by simp [not_runAt_nil]⟩, rfl⟩
  | white c s hc ih =>
    obtain ⟨runs, hruns, hwords⟩ := ih
    have hwhite : IsRuns [c] [] :=
      ⟨List.Pairwise.nil, fun place w => by simp [not_runAt_of_isWhite hc]⟩
    have hends : EndsWhite [c] := by simpa [EndsWhite] using hc
    refine ⟨_, hwhite.append (.inl hends) hruns, ?_⟩
    simp [words_cons_of_isWhite hc, ← hwords, Function.comp_def]
  | run w s hne hw hs ih =>
    obtain ⟨runs, hruns, hwords⟩ := ih
    have hrun : IsRuns w [(0, w)] :=
      ⟨List.pairwise_singleton _ _, fun place v => by simp [runAt_of_not_white hne hw]⟩
    refine ⟨_, hrun.append (.inr hs) hruns, ?_⟩
    simp [words_append_of_white (.inr hs), words_of_not_white hne hw, ← hwords, Function.comp_def]

end JobDispatch.Text
