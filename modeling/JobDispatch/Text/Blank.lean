/-!
# Blank characters

The white space of Unicode text: what surrounds a value and is trimmed off, and what separates words.

## Main definitions

* `Text.isBlank` — the characters with the Unicode property `White_Space`.
* `Text.trim` — a text without its leading and trailing blanks.
* `Text.words` — the maximal runs of characters that are not blank.

## Main results

* `Text.words_append_blank` — words split at a blank.
-/

namespace JobDispatch.Text

/-- The characters with the Unicode property `White_Space`. -/
def isBlank (c : Char) : Bool :=
  let n := c.toNat
  (0x09 ≤ n && n ≤ 0x0D) || n == 0x20 || n == 0x85 || n == 0xA0 || n == 0x1680 ||
    (0x2000 ≤ n && n ≤ 0x200A) || n == 0x2028 || n == 0x2029 || n == 0x202F || n == 0x205F ||
    n == 0x3000

/-- The characters from the first one that is not blank. -/
def trimLeft (s : List Char) : List Char := s.dropWhile isBlank

/-- The characters from the first to the last one that is not blank. -/
def trim (s : List Char) : List Char := (trimLeft (trimLeft s).reverse).reverse

/-- The maximal runs of characters that are not blank, in order; `run` is the run that the
characters before have begun, last character first. -/
def wordsFrom : List Char → List Char → List (List Char)
  | run, [] => if run.isEmpty then [] else [run.reverse]
  | run, c :: s =>
    if isBlank c then
      if run.isEmpty then wordsFrom [] s else run.reverse :: wordsFrom [] s
    else wordsFrom (c :: run) s

/-- The maximal runs of characters that are not blank, in order. -/
def words (s : List Char) : List (List Char) := wordsFrom [] s

/-! ### Words -/

@[simp] theorem words_nil : words [] = [] := rfl

theorem wordsFrom_append_blank {c : Char} (hc : isBlank c = true) (s t : List Char) :
    ∀ run, wordsFrom run (s ++ c :: t) = wordsFrom run s ++ words t := by
  induction s with
  | nil =>
    intro run
    simp only [List.nil_append, wordsFrom, hc, if_true, words]
    split <;> rfl
  | cons d s ih =>
    intro run
    rw [List.cons_append, wordsFrom, wordsFrom]
    split
    · -- a blank ends the run, if there is one
      split
      · exact ih []
      · rw [ih [], List.cons_append]
    · exact ih (d :: run)

/-- **Words split at a blank.** -/
theorem words_append_blank {c : Char} (hc : isBlank c = true) (s t : List Char) :
    words (s ++ c :: t) = words s ++ words t :=
  wordsFrom_append_blank hc s t []

/-! ### Trimming -/

@[simp] theorem trimLeft_nil : trimLeft [] = [] := rfl

@[simp] theorem trim_nil : trim [] = [] := rfl

/-- What precedes a character that is not blank stays. -/
theorem trimLeft_cons_of_not_isBlank {c : Char} {s : List Char} (h : isBlank c = false) :
    trimLeft (c :: s) = c :: s := by
  simp [trimLeft, h]

end JobDispatch.Text
