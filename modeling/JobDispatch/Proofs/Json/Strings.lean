import JobDispatch.Json.Printer
import JobDispatch.Json.Reader

/-!
# Written strings are read back

A string is written with an escape where one is needed.  Scanning what is written gives one piece for
each character, and the pieces mean the characters again, whatever they are.

## Main definitions

* `Json.pieceOf` — the piece that the written form of a character is scanned as.

## Main results

* `Token.string?_written` — scanning a written string, with anything behind it.
* `decodePieces?_written` — **a written string is read back.**
-/

namespace JobDispatch

namespace Json

/-! ### Hexadecimal digits -/

theorem hexValue?_hexDigit : ∀ {n : Nat}, n < 16 → hexValue? (Text.hexDigit n) = some n := by decide

/-- Four digits, of which the first two are zeros. -/
theorem hex4?_zero_zero {n : Nat} (h : n < 0x20) :
    hex4? '0' '0' (Text.hexDigit (n / 16)) (Text.hexDigit (n % 16)) = some n := by
  have hzero : hexValue? '0' = some 0 := by decide
  simp only [hex4?, hzero, hexValue?_hexDigit (show n / 16 < 16 by omega),
    hexValue?_hexDigit (show n % 16 < 16 by omega)]
  simp
  omega

/-! ### Characters -/

/-- The piece that the written form of a character is scanned as: only a control character without a
short escape is written by its number. -/
def pieceOf (c : Char) : Piece :=
  if c = '\n' ∨ c = '\r' ∨ c = '\t' ∨ c = '\x08' ∨ c = '\x0c' then .char c
  else if c.toNat < 0x20 then .unit c.toNat else .char c

/-- A piece means the character it stands for. -/
theorem decodePieces?_pieceOf_cons (c : Char) (ps : List Piece) :
    decodePieces? (pieceOf c :: ps) = (decodePieces? ps).map (c :: ·) := by
  unfold pieceOf
  split
  · rfl
  · split
    · -- a control character is no half of a pair
      next hc =>
      rw [decodePieces?.eq_def]
      simp only
      rw [if_neg (by omega), if_neg (by omega), Char.ofNat_toNat]
    · rfl

/-- **A written string is read back.** -/
theorem decodePieces?_written (s : List Char) : decodePieces? (s.map pieceOf) = some s := by
  induction s with
  | nil => rfl
  | cons c s ih => rw [List.map_cons, decodePieces?_pieceOf_cons, ih, Option.map_some]

namespace Token

/-- A character that stands for itself is scanned as itself. -/
theorem string?_plain {c : Char} (hq : c ≠ '"') (hb : c ≠ '\\') (hc : 0x20 ≤ c.toNat) (r : List Char) :
    string? (c :: r) = (string? r).map fun p => (.char c :: p.1, p.2) := by
  have hlow : ¬ c.toNat < 0x20 := by omega
  rw [string?]
  · simp [hlow, hb]
  · exact hq
  · exact fun _ _ _ _ _ h _ => hb h
  · exact fun _ _ h _ => hb h

/-- A short escape is scanned as its character. -/
theorem string?_short {e c : Char} (hu : e ≠ 'u') (h : shortEscape? e = some c) (r : List Char) :
    string? ('\\' :: e :: r) = (string? r).map fun p => (.char c :: p.1, p.2) := by
  rw [string?]
  · rw [h]
    cases string? r <;> rfl
  · intro a b c d s he _
    exact hu he

/-- A control character by its number is scanned as that number. -/
theorem string?_control {n : Nat} (hn : n < 0x20) (r : List Char) :
    string? (controlEscape n ++ r) = (string? r).map fun p => (.unit n :: p.1, p.2) := by
  simp only [controlEscape, List.cons_append, List.nil_append]
  rw [string?, hex4?_zero_zero hn]
  cases string? r <;> rfl

/-- The written form of a character is scanned as its piece. -/
theorem string?_stringChar (c : Char) (r : List Char) :
    string? (stringChar c ++ r) = (string? r).map fun p => (pieceOf c :: p.1, p.2) := by
  unfold stringChar pieceOf
  split
  · next h => subst h; exact string?_short (by decide) rfl r
  split
  · next h => subst h; exact string?_short (by decide) rfl r
  split
  · next h => subst h; exact string?_short (by decide) rfl r
  split
  · next h => subst h; exact string?_short (by decide) rfl r
  split
  · next h => subst h; exact string?_short (by decide) rfl r
  split
  · next h => subst h; exact string?_short (by decide) rfl r
  split
  · next h => subst h; exact string?_short (by decide) rfl r
  next hq hb hn hr ht hbs hff =>
  rw [if_neg (c := c = '\n' ∨ _) (by simp [hn, hr, ht, hbs, hff])]
  split
  · next hc => exact string?_control hc r
  · next hc => exact string?_plain hq hb (by omega) r

/-- **Scanning a written string**, with anything behind it. -/
theorem string?_written (s r : List Char) :
    string? (s.flatMap stringChar ++ '"' :: r) = some (s.map pieceOf, r) := by
  induction s with
  | nil => exact string?_quote r
  | cons c s ih =>
    rw [List.flatMap_cons, List.append_assoc, string?_stringChar, ih, Option.map_some, List.map_cons]

/-- A written string is one token. -/
theorem next?_stringChars (s : String) (r : List Char) :
    next? (stringChars s ++ r) = some (.string (s.toList.map pieceOf), r) := by
  have hshape : stringChars s ++ r = '"' :: (s.toList.flatMap stringChar ++ '"' :: r) := by
    simp [stringChars]
  rw [hshape, next?, string?_written, Option.map_some]

end Token

end Json

end JobDispatch
