import JobDispatch.Handler.WordCount
import JobDispatch.Proofs.Text.Words

/-!
# Counts add up

A text that is cut behind a newline has the words, the lines and the characters of both its pieces, whatever
blanks and empty lines stand at the cut.

## Main definitions

* `Text.ofLines` — the text made of lines.

## Main results

* `WordCount.Counts.of_append` — **what is counted in two pieces is counted in both together.**
* `WordCount.Counts.lines_ofLines` — a text has as many lines as it is made of.
* `WordCount.Counts.of_newline` — what the newline at the end of a line counts for.
* `WordCount.counts_add_over_lines` — **counts add up over lines.**
-/

namespace JobDispatch

/-- The text made of lines, each with a newline at its end. -/
def Text.ofLines (lines : List (List Char)) : List Char := lines.flatMap (· ++ ['\n'])

namespace WordCount

namespace Counts

attribute [ext] Counts

variable {a b line : List Char} {lines : List (List Char)}

@[simp] theorem words_add (x y : Counts) : (x + y).words = x.words + y.words := rfl

@[simp] theorem lines_add (x y : Counts) : (x + y).lines = x.lines + y.lines := rfl

@[simp] theorem chars_add (x y : Counts) : (x + y).chars = x.chars + y.chars := rfl

theorem add_assoc (x y z : Counts) : x + y + z = x + (y + z) := by
  ext
  all_goals simp only [words_add, lines_add, chars_add, Nat.add_assoc]

/-! ### One text -/

/-- A text with a last character has one line more than newlines before that: the last line is counted with
or without its end. -/
theorem lines_append_singleton (s : List Char) (c : Char) :
    (Counts.of (s ++ [c])).lines = s.count '\n' + 1 := by
  by_cases hc : c = '\n'
  · simp [Counts.of, isUnterminated, hc]
  · simp [Counts.of, isUnterminated, hc]

theorem words_le_chars (s : List Char) : (Counts.of s).words ≤ (Counts.of s).chars :=
  Text.length_words_le s

theorem lines_le_chars (s : List Char) : (Counts.of s).lines ≤ (Counts.of s).chars := by
  rcases List.eq_nil_or_concat s with rfl | ⟨s, c, rfl⟩
  · exact Nat.le_refl 0
  · rw [List.concat_eq_append, lines_append_singleton]
    have hle : s.count '\n' ≤ s.length := List.count_le_length
    simpa [Counts.of] using hle

/-! ### Pieces -/

/-- **What is counted in two pieces is counted in both together**, if the first is empty or ends in a
newline. -/
theorem of_append (h : a = [] ∨ a.getLast? = some '\n') (b : List Char) :
    Counts.of (a ++ b) = Counts.of a + Counts.of b := by
  rcases h with rfl | h
  · exact Counts.ext (Nat.zero_add _).symm (Nat.zero_add _).symm (Nat.zero_add _).symm
  · obtain ⟨s, rfl⟩ := List.getLast?_eq_some_iff.mp h
    have hends : Text.EndsWhite (s ++ ['\n']) := by
      intro c hc
      rw [h] at hc
      obtain rfl := Option.some.inj hc
      decide
    refine Counts.ext ?_ ?_ List.length_append
    · have hwords := congrArg List.length (Text.words_append_of_white (t := b) (.inl hends))
      rwa [List.length_append] at hwords
    · rcases List.eq_nil_or_concat b with rfl | ⟨b, c, rfl⟩
      · rw [List.append_nil]
        rfl
      · rw [List.concat_eq_append, lines_add, ← List.append_assoc, lines_append_singleton,
          lines_append_singleton, lines_append_singleton, List.count_append, List.count_append]
        simp
        omega

/-! ### Lines -/

/-- The newline at the end of a line is a character more, and a line more if nothing stands before it. -/
theorem of_newline (h : '\n' ∉ line) :
    Counts.of (line ++ ['\n']) = Counts.of line + ⟨0, if line = [] then 1 else 0, 1⟩ := by
  have hnone : line.count '\n' = 0 := List.count_eq_zero.mpr h
  refine Counts.ext ?_ ?_ List.length_append
  · have hwords := congrArg List.length (Text.words_append_blank (c := '\n') (by decide) line [])
    rwa [List.length_append] at hwords
  · rw [lines_append_singleton, hnone, lines_add]
    rcases List.eq_nil_or_concat line with rfl | ⟨s, c, rfl⟩
    · rfl
    · rw [List.concat_eq_append] at hnone ⊢
      rw [List.count_append] at hnone
      rw [lines_append_singleton]
      simp
      omega

theorem ends_ofLines (lines : List (List Char)) :
    Text.ofLines lines = [] ∨ (Text.ofLines lines).getLast? = some '\n' := by
  rcases List.eq_nil_or_concat lines with rfl | ⟨lines, last, rfl⟩
  · exact .inl rfl
  · right
    simp [Text.ofLines]

/-- A text has as many lines as it is made of. -/
theorem lines_ofLines (h : ∀ line ∈ lines, '\n' ∉ line) :
    (Counts.of (Text.ofLines lines)).lines = lines.length := by
  induction lines with
  | nil => rfl
  | cons line lines ih =>
    have hline : line.count '\n' = 0 := List.count_eq_zero.mpr (h line List.mem_cons_self)
    have hrest := ih fun l hl => h l (List.mem_cons_of_mem line hl)
    rw [Text.ofLines, List.flatMap_cons, of_append (.inr (by simp)), lines_add, lines_append_singleton,
      hline, ← Text.ofLines, hrest, List.length_cons, Nat.zero_add, Nat.add_comm]

end Counts

/-- **Counts add up over lines.**  What is counted in a text that is empty or ends in a newline, and in
another one, is counted in both together.  A text made of lines has as many lines; the last of its newlines
counts for one character and for nothing else, unless the last line is empty, which is a line by its newline
alone.  The words are the runs of characters that are not white, as long as they can be, and a text has no
more words and no more lines than characters. -/
theorem counts_add_over_lines :
    (∀ a b : List Char, a = [] ∨ a.getLast? = some '\n' →
      Counts.of (a ++ b) = Counts.of a + Counts.of b) ∧
    (∀ lines : List (List Char), (∀ line ∈ lines, '\n' ∉ line) →
      (Counts.of (Text.ofLines lines)).lines = lines.length) ∧
    (∀ (lines : List (List Char)) (last : List Char), (∀ line ∈ lines ++ [last], '\n' ∉ line) →
      ∃ text, Text.ofLines (lines ++ [last]) = text ++ ['\n'] ∧
        Counts.of (text ++ ['\n']) = Counts.of text + ⟨0, if last = [] then 1 else 0, 1⟩) ∧
    ∀ s : List Char, (∃ runs, Text.IsRuns s runs ∧ runs.map Prod.snd = Text.words s ∧
        (Counts.of s).words = runs.length) ∧
      (Counts.of s).words ≤ (Counts.of s).chars ∧ (Counts.of s).lines ≤ (Counts.of s).chars := by
  refine ⟨fun a b h => Counts.of_append h b, fun lines h => Counts.lines_ofLines h, ?_, ?_⟩
  · intro lines last h
    have hlast : '\n' ∉ last := h last (List.mem_append_right lines (List.mem_singleton_self last))
    refine ⟨Text.ofLines lines ++ last, by simp [Text.ofLines], ?_⟩
    rw [List.append_assoc, Counts.of_append (Counts.ends_ofLines lines),
      Counts.of_append (Counts.ends_ofLines lines), Counts.of_newline hlast, Counts.add_assoc]
  · intro s
    obtain ⟨runs, hruns, hwords⟩ := Text.isRuns_words s
    refine ⟨⟨runs, hruns, hwords, ?_⟩, Counts.words_le_chars s, Counts.lines_le_chars s⟩
    rw [Counts.of, ← hwords, List.length_map]

/-- A blank line at the cut and wide blanks on its sides, and two lines around an empty one. -/
theorem counts_of_blankLine :
    Counts.of ("né\u2003à\r\n\n".toList ++ "\u3000x".toList) = ⟨2, 2, 7⟩ + ⟨1, 1, 2⟩ ∧
      (Counts.of (Text.ofLines ["a b".toList, [], "c".toList])).lines = 3 ∧
      ∃ text, Text.ofLines ["a b".toList, []] = text ++ ['\n'] ∧
        Counts.of (text ++ ['\n']) = Counts.of text + ⟨0, 1, 1⟩ := by
  obtain ⟨hadd, hlines, hlast, -⟩ := counts_add_over_lines
  have hcut : "né\u2003à\r\n\n".toList.getLast? = some '\n' := by decide
  refine ⟨?_, hlines _ (by decide), hlast ["a b".toList] [] (by decide)⟩
  rw [hadd _ _ (.inr hcut)]
  decide

end WordCount

end JobDispatch
