import JobDispatch.Proofs.Json.FirstField
import JobDispatch.Proofs.Json.Numbers

/-!
# Written values are documents

The text of a value is scanned as the tokens of one document, and the tokens of a document are put
together as that document, whatever is nested in what.  So every value that is written is a document
again; whether the document still has the value is another question.

## Main definitions

* `Document.tokens` — the tokens of a document.
* `Json.document` — the document that the text of a value writes.

## Main results

* `Document.ofTokens?_tokens` — **the tokens of a document are put together as it.**
* `Token.scan?_chars` — the text of a value is scanned as the tokens of its document.
* `Json.ofChars?_chars` — **the text of a value writes its document.**
-/

namespace JobDispatch

namespace Json

/-! ### The tokens of a document -/

namespace Document

mutual

/-- The tokens of a document. -/
def tokens : Document → List Token
  | .null => [.null]
  | .bool b => [.bool b]
  | .number n => [.number n]
  | .string s => [.string s]
  | .array [] => [.openArray, .closeArray]
  | .array (d :: ds) => .openArray :: (tokens d ++ itemsTokens ds)
  | .object [] => [.openObject, .closeObject]
  | .object ((name, d) :: fs) =>
    .openObject :: .string name :: .colon :: (tokens d ++ fieldsTokens fs)

/-- The items after the first, and the closing bracket. -/
def itemsTokens : List Document → List Token
  | [] => [.closeArray]
  | d :: ds => .comma :: (tokens d ++ itemsTokens ds)

/-- The fields after the first, and the closing brace. -/
def fieldsTokens : List (List Piece × Document) → List Token
  | [] => [.closeObject]
  | (name, d) :: fs => .comma :: .string name :: .colon :: (tokens d ++ fieldsTokens fs)

end

/-- Whether a value may start: with any token but the end of an array it does. -/
def Stage.Starts (st : Stage) (stack : List Frame) : Prop :=
  ∀ t ≠ .closeArray, st.step t = Stage.start? stack t

theorem Stage.starts_value (stack : List Frame) : (Stage.value stack).Starts stack := fun _ _ => rfl

theorem Stage.starts_firstItem (stack : List Frame) :
    (Stage.firstItem stack).Starts (.items [] :: stack) := by
  intro t ht
  cases t <;> first | exact absurd rfl ht | rfl

/-- One token, and then the rest. -/
theorem foldlM_cons_of_step {st st' : Stage} {t : Token} (h : st.step t = some st') (ts : List Token) :
    (t :: ts).foldlM Stage.step st = ts.foldlM Stage.step st' := by
  rw [List.foldlM_cons, h]
  rfl

mutual

/-- Behind the tokens of a document it is finished. -/
theorem foldlM_tokens : ∀ (d : Document) {st : Stage} {stack : List Frame} (_ : st.Starts stack)
    (ts : List Token), (tokens d ++ ts).foldlM Stage.step st = ts.foldlM Stage.step (.supply d stack)
  | .null, _, _, h, ts | .bool _, _, _, h, ts | .number _, _, _, h, ts | .string _, _, _, h, ts => by
    rw [tokens]
    exact foldlM_cons_of_step (h _ (by simp)) ts
  | .array [], _, _, h, ts => by
    rw [tokens]
    simp only [List.cons_append, List.nil_append]
    rw [foldlM_cons_of_step (h _ (by simp)), foldlM_cons_of_step rfl]
  | .array (d :: ds), _, stack, h, ts => by
    rw [tokens]
    simp only [List.cons_append, List.append_assoc]
    rw [foldlM_cons_of_step (h _ (by simp)), foldlM_tokens d (Stage.starts_firstItem stack)]
    exact foldlM_itemsTokens ds [d] stack ts
  | .object [], _, _, h, ts => by
    rw [tokens]
    simp only [List.cons_append, List.nil_append]
    rw [foldlM_cons_of_step (h _ (by simp)), foldlM_cons_of_step rfl]
  | .object ((name, d) :: fs), _, stack, h, ts => by
    rw [tokens]
    simp only [List.cons_append, List.append_assoc]
    rw [foldlM_cons_of_step (h _ (by simp)), foldlM_cons_of_step rfl, foldlM_cons_of_step rfl,
      foldlM_tokens d (Stage.starts_value _)]
    exact foldlM_fieldsTokens fs [(name, d)] stack ts

/-- Behind the other items their array is finished. -/
theorem foldlM_itemsTokens : ∀ (ds done : List Document) (stack : List Frame) (ts : List Token),
    (itemsTokens ds ++ ts).foldlM Stage.step (.afterItem done stack)
      = ts.foldlM Stage.step (.supply (.array (done.reverse ++ ds)) stack)
  | [], done, stack, ts => by
    rw [itemsTokens, List.append_nil]
    exact foldlM_cons_of_step rfl ts
  | d :: ds, done, stack, ts => by
    rw [itemsTokens]
    simp only [List.cons_append, List.append_assoc]
    rw [foldlM_cons_of_step rfl, foldlM_tokens d (Stage.starts_value _)]
    have hrest := foldlM_itemsTokens ds (d :: done) stack ts
    rw [List.reverse_cons, List.append_assoc] at hrest
    exact hrest

/-- Behind the other fields their object is finished. -/
theorem foldlM_fieldsTokens : ∀ (fs done : List (List Piece × Document)) (stack : List Frame)
    (ts : List Token), (fieldsTokens fs ++ ts).foldlM Stage.step (.afterField done stack)
      = ts.foldlM Stage.step (.supply (.object (done.reverse ++ fs)) stack)
  | [], done, stack, ts => by
    rw [fieldsTokens, List.append_nil]
    exact foldlM_cons_of_step rfl ts
  | (name, d) :: fs, done, stack, ts => by
    rw [fieldsTokens]
    simp only [List.cons_append, List.append_assoc]
    rw [foldlM_cons_of_step rfl, foldlM_cons_of_step rfl, foldlM_cons_of_step rfl,
      foldlM_tokens d (Stage.starts_value _)]
    have hrest := foldlM_fieldsTokens fs ((name, d) :: done) stack ts
    rw [List.reverse_cons, List.append_assoc] at hrest
    exact hrest

end

/-- **The tokens of a document are put together as it.** -/
theorem ofTokens?_tokens (d : Document) : ofTokens? d.tokens = some d := by
  have hrun := foldlM_tokens d (Stage.starts_value []) []
  rw [List.append_nil] at hrun
  rw [ofTokens?, hrun]
  rfl

end Document

/-! ### The document of a value -/

/-- The document that the text of a number writes; a double that is not finite has no number. -/
def numberDocument : JsonNumber → Document
  | .int i => .number (intWritten i)
  | .double x => if x.isFinite then .number x.written else .null

mutual

/-- The document that the text of a value writes. -/
def document : Json → Document
  | .null => .null
  | .bool b => .bool b
  | .number n => numberDocument n
  | .string s => .string (s.toList.map pieceOf)
  | .array items => .array (itemsDocument items)
  | .object fields => .object (fieldsDocument fields)

/-- The documents of all items. -/
def itemsDocument : List Json → List Document
  | [] => []
  | v :: vs => document v :: itemsDocument vs

/-- The names and documents of all fields. -/
def fieldsDocument : List (String × Json) → List (List Piece × Document)
  | [] => []
  | (name, v) :: fs => (name.toList.map pieceOf, document v) :: fieldsDocument fs

end

namespace Token

open Document (tokens itemsTokens fieldsTokens)

theorem scan?_closeObject (r : List Char) :
    scan? ('\x7d' :: r) = (scan? r).map (.closeObject :: ·) :=
  scan?_cons rfl rfl (by simp)

theorem scan?_openArray (r : List Char) : scan? ('[' :: r) = (scan? r).map (.openArray :: ·) :=
  scan?_cons rfl rfl (by simp)

theorem scan?_closeArray (r : List Char) : scan? (']' :: r) = (scan? r).map (.closeArray :: ·) :=
  scan?_cons rfl rfl (by simp)

theorem scan?_null (r : List Char) :
    scan? (['n', 'u', 'l', 'l'] ++ r) = (scan? r).map (.null :: ·) :=
  scan?_cons rfl rfl (by simp; omega)

/-- A valid written number, and then the rest. -/
theorem scan?_writtenChars {w : WrittenNumber} (hw : w.Valid) {r : List Char} (hr : Ends r) :
    scan? (w.chars ++ r) = (scan? r).map (.number w :: ·) := by
  have ht := next?_writtenChars hw hr
  obtain ⟨c, cs, hc, hspace⟩ := WrittenNumber.exists_chars_eq_cons hw
  rw [hc, List.cons_append] at ht ⊢
  refine scan?_cons hspace ht ?_
  simp only [List.length_cons, List.length_append]
  omega

theorem scan?_numberChars (n : JsonNumber) {r : List Char} (hr : Ends r) :
    scan? (numberChars n ++ r) = (scan? r).map (tokens (numberDocument n) ++ ·) := by
  cases n with
  | int i =>
    rw [numberChars, intChars_eq, scan?_writtenChars (valid_intWritten i) hr]
    rfl
  | double x =>
    rw [numberChars, doubleChars, numberDocument]
    split
    · rw [Double.jsonChars_eq, scan?_writtenChars x.valid_written hr]
      rfl
    · exact scan?_null r

/-- What follows an item or a field is no part of a number. -/
theorem ends_itemsChars (vs : List Json) (r : List Char) : Ends (itemsChars vs ++ r) := by
  cases vs <;> rw [itemsChars] <;> exact ⟨rfl, by decide, by decide, by decide⟩

theorem ends_fieldsChars (fs : List (String × Json)) (r : List Char) : Ends (fieldsChars fs ++ r) := by
  cases fs with
  | nil => rw [fieldsChars]; exact ⟨rfl, by decide, by decide, by decide⟩
  | cons f fs =>
    obtain ⟨name, v⟩ := f
    rw [fieldsChars]
    exact ⟨rfl, by decide, by decide, by decide⟩

mutual

/-- **The text of a value is scanned as the tokens of its document.** -/
theorem scan?_chars : ∀ (v : Json) {r : List Char} (_ : Ends r),
    scan? (chars v ++ r) = (scan? r).map (tokens (document v) ++ ·)
  | .null, r, _ => by
    rw [chars, document, tokens]
    exact scan?_null r
  | .bool true, r, _ => by
    rw [chars, document, tokens]
    exact scan?_cons rfl rfl (by simp; omega)
  | .bool false, r, _ => by
    rw [chars, document, tokens]
    exact scan?_cons rfl rfl (by simp; omega)
  | .number n, r, hr => by
    rw [chars, document]
    exact scan?_numberChars n hr
  | .string s, r, _ => by
    rw [chars, document, tokens]
    exact scan?_stringChars s r
  | .array [], r, _ => by
    rw [chars, document, itemsDocument, tokens]
    simp only [List.cons_append, List.nil_append]
    rw [scan?_openArray, scan?_closeArray, Option.map_map]
    rfl
  | .array (v :: vs), r, _ => by
    rw [chars, document, itemsDocument, tokens]
    simp only [List.cons_append, List.append_assoc]
    rw [scan?_openArray, scan?_chars v (ends_itemsChars vs r), scan?_itemsChars vs, Option.map_map,
      Option.map_map]
    rfl
  | .object [], r, _ => by
    rw [chars, document, fieldsDocument, tokens]
    simp only [List.cons_append, List.nil_append]
    rw [scan?_openObject, scan?_closeObject, Option.map_map]
    rfl
  | .object ((name, v) :: fs), r, _ => by
    rw [chars, document, fieldsDocument, tokens]
    simp only [List.cons_append, List.append_assoc]
    rw [scan?_openObject, scan?_stringChars, scan?_colon, scan?_chars v (ends_fieldsChars fs r),
      scan?_fieldsChars fs]
    simp only [Option.map_map]
    rfl

/-- The other items. -/
theorem scan?_itemsChars : ∀ (vs : List Json) {r : List Char},
    scan? (itemsChars vs ++ r) = (scan? r).map (itemsTokens (itemsDocument vs) ++ ·)
  | [], r => by
    rw [itemsChars, itemsDocument, itemsTokens]
    exact scan?_closeArray r
  | v :: vs, r => by
    rw [itemsChars, itemsDocument, itemsTokens]
    simp only [List.cons_append, List.append_assoc]
    rw [scan?_comma, scan?_chars v (ends_itemsChars vs r), scan?_itemsChars vs, Option.map_map,
      Option.map_map]
    rfl

/-- The other fields. -/
theorem scan?_fieldsChars : ∀ (fs : List (String × Json)) {r : List Char},
    scan? (fieldsChars fs ++ r) = (scan? r).map (fieldsTokens (fieldsDocument fs) ++ ·)
  | [], r => by
    rw [fieldsChars, fieldsDocument, fieldsTokens]
    exact scan?_closeObject r
  | (name, v) :: fs, r => by
    rw [fieldsChars, fieldsDocument, fieldsTokens]
    simp only [List.cons_append, List.append_assoc]
    rw [scan?_comma, scan?_stringChars, scan?_colon, scan?_chars v (ends_fieldsChars fs r),
      scan?_fieldsChars fs]
    simp only [Option.map_map]
    rfl

end

end Token

/-- **The text of a value writes its document.** -/
theorem ofChars?_chars (v : Json) : Document.ofChars? v.chars = some v.document := by
  have hnil : Token.scan? [] = some [] := by rw [Token.scan?, Token.scanFrom?]; rfl
  have hscan := Token.scan?_chars v (r := []) trivial
  rw [List.append_nil, hnil, Option.map_some, List.append_nil] at hscan
  rw [Document.ofChars?, hscan, Option.bind_some, Document.ofTokens?_tokens]

end Json

end JobDispatch
