import Mathlib.Algebra.Group.Nat.Defs
import JobDispatch.Job.Written
import JobDispatch.Proofs.Json.Strings

/-!
# The text of an id

The thirty-two digits of an id and the four hyphens between them are read back as the same id, by
itself and as a JSON string.

## Main results

* `JobId.ofText?_text` — **the text of an id is read back.**
* `JobId.read?_written` — the same inside a document.
-/

namespace JobDispatch

namespace JobId

theorem length_hexChars (count n : Nat) : (hexChars count n).length = count := by
  induction count generalizing n with
  | zero => rfl
  | succ count ih => rw [hexChars, List.length_append, ih, List.length_singleton]

/-- Digits mean the number that they write. -/
theorem ofHex?_hexChars (count n : Nat) : ofHex? (hexChars count n) = some (n % 16 ^ count) := by
  induction count generalizing n with
  | zero => simp [hexChars, ofHex?, Nat.mod_one]
  | succ count ih =>
    have hlast : Json.hexValue? (Text.hexDigit (n % 16)) = some (n % 16) :=
      Json.hexValue?_hexDigit (Nat.mod_lt n (by decide))
    have hfirst := ih (n / 16)
    rw [ofHex?] at hfirst
    rw [hexChars, ofHex?, List.foldlM_append, hfirst]
    simp only [Option.bind_eq_bind, Option.bind_some, List.foldlM_cons, List.foldlM_nil, hlast,
      Option.map_some, Option.pure_def, Option.some.injEq]
    rw [Nat.pow_succ, Nat.mul_comm (16 ^ count) 16, Nat.mod_mul]
    omega

theorem length_hyphenate {ds : List Char} (h : ds.length = 32) : (hyphenate ds).length = 36 := by
  simp [hyphenate, h]

/-- Without its hyphens an id is read as its digits. -/
theorem hyphenated?_hyphenate {ds : List Char} (h : ds.length = 32) :
    hyphenated? (hyphenate ds) = plain? ds := by
  -- the five groups of digits
  obtain ⟨a, b, c, d, e, rfl, ha, hb, hc, hd, he⟩ : ∃ a b c d e : List Char,
      ds = a ++ (b ++ (c ++ (d ++ e))) ∧ a.length = 8 ∧ b.length = 4 ∧ c.length = 4 ∧ d.length = 4 ∧
        e.length = 12 := by
    refine ⟨ds.take 8, (ds.drop 8).take 4, (ds.drop 12).take 4, (ds.drop 16).take 4, ds.drop 20,
      ?_, by simp [h], by simp [h], by simp [h], by simp [h], by simp [h]⟩
    have h20 : ds.drop 20 = (ds.drop 16).drop 4 := by rw [List.drop_drop]
    have h16 : ds.drop 16 = (ds.drop 12).drop 4 := by rw [List.drop_drop]
    have h12 : ds.drop 12 = (ds.drop 8).drop 4 := by rw [List.drop_drop]
    rw [h20, List.take_append_drop, h16, List.take_append_drop, h12, List.take_append_drop,
      List.take_append_drop]
  have hshape : hyphenate (a ++ (b ++ (c ++ (d ++ e))))
      = a ++ '-' :: (b ++ '-' :: (c ++ '-' :: (d ++ '-' :: e))) := by
    simp [hyphenate, List.drop_append, List.drop_of_length_le, ha, hb, hc, hd]
  rw [hshape, hyphenated?]
  simp [List.drop_append, List.drop_of_length_le, ha, hb, hc, hd, he]

/-- **The text of an id is read back.** -/
theorem ofText?_text (id : JobId) : ofText? id.text = some id := by
  have hlen := length_hexChars 32 id.bits.toNat
  have hbits : id.bits.toNat % 16 ^ 32 = id.bits.toNat := Nat.mod_eq_of_lt id.bits.isLt
  have hchars : id.chars.length = 36 := length_hyphenate hlen
  rw [ofText?, text, String.toList_ofList, ofChars?, hchars, if_neg (by decide), if_pos rfl, chars,
    hyphenated?_hyphenate hlen, plain?, if_pos hlen, ofHex?_hexChars, hbits, Option.map_some, ofNat,
    BitVec.ofNat_toNat, BitVec.setWidth_eq]

/-- The same inside a document. -/
theorem read?_written (id : JobId) : read? (.string (id.text.toList.map Json.pieceOf)) = some id := by
  rw [read?, Json.Document.text?, Json.decodePieces?_written, Option.map_some, Option.bind_some,
    String.ofList_toList, ofText?_text]

end JobId

end JobDispatch
