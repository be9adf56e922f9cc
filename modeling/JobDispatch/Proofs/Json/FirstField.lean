import JobDispatch.Json.Record
import JobDispatch.Proofs.Json.Strings

/-!
# The first field of an object

Whatever stands behind the first field of an object, the document that the text writes, if it writes
one, is an object with that first field; and a record that is read from it has that field.  This is all
that is needed to know whose record a text is when its id comes first.

## Main definitions

* `Document.Opened` — the outermost unfinished object of a reading machine has a certain first field.

## Main results

* `Token.scan?_cons` — the tokens of a text, one by one.
* `Document.Opened.step` — **no token takes the first field away.**
* `Document.firstField_ofChars?` — the same for a whole text.
* `Document.member?_record?` — a record has the first field of its object.
-/

namespace JobDispatch

namespace Json

/-! ### One token after another -/

namespace Token

/-- What has been scanned before does not matter for what follows. -/
theorem scanFrom?_done (done : List Token) (s : List Char) :
    scanFrom? done s = (scanFrom? [] s).map (done.reverse ++ ·) := by
  induction hn : s.length using Nat.strongRecOn generalizing done s with
  | _ n ih =>
    subst hn
    cases s with
    | nil => simp [scanFrom?]
    | cons c r =>
      rw [scanFrom?, scanFrom?]
      by_cases hc : isSpace c = true
      · rw [if_pos hc, if_pos hc]
        exact ih r.length (by simp) done r rfl
      · rw [if_neg hc, if_neg hc]
        cases next? (c :: r) with
        | none => rfl
        | some p =>
          obtain ⟨t, rest⟩ := p
          simp only
          by_cases hr : rest.length < (c :: r).length
          · -- both scans go on behind the token, with it added to what they had
            rw [if_pos hr, if_pos hr, ih rest.length hr (t :: done) rest rfl,
              ih rest.length hr [t] rest rfl, Option.map_map]
            congr 1
            funext ts
            simp
          · rw [if_neg hr, if_neg hr, Option.map_none]

/-- **The tokens of a text, one by one.** -/
theorem scan?_cons {c : Char} {r rest : List Char} {t : Token} (hc : isSpace c = false)
    (ht : next? (c :: r) = some (t, rest)) (hr : rest.length < (c :: r).length) :
    scan? (c :: r) = (scan? rest).map (t :: ·) := by
  rw [scan?, scanFrom?, hc, ht]
  simp only [Bool.false_eq_true, if_false]
  rw [if_pos hr, scanFrom?_done]
  rfl

/-- A written string, and then the rest. -/
theorem scan?_stringChars (s : String) (r : List Char) :
    scan? (stringChars s ++ r) = (scan? r).map (.string (s.toList.map pieceOf) :: ·) := by
  have ht := next?_stringChars s r
  have hshape : stringChars s ++ r = '"' :: (s.toList.flatMap stringChar ++ '"' :: r) := by
    simp [stringChars]
  rw [hshape] at ht ⊢
  refine scan?_cons rfl ht ?_
  simp only [List.length_cons, List.length_append]
  omega

theorem scan?_openObject (r : List Char) : scan? ('\x7b' :: r) = (scan? r).map (.openObject :: ·) :=
  scan?_cons rfl rfl (by simp)

theorem scan?_colon (r : List Char) : scan? (':' :: r) = (scan? r).map (.colon :: ·) :=
  scan?_cons rfl rfl (by simp)

theorem scan?_comma (r : List Char) : scan? (',' :: r) = (scan? r).map (.comma :: ·) :=
  scan?_cons rfl rfl (by simp)

end Token

namespace Document

/-! ### The outermost object -/

/-- The outermost of some unfinished arrays and objects is an object with the first field `f`. -/
def Outermost (f : List Piece × Document) (stack : List Frame) : Prop :=
  ∃ done name, stack.getLast? = some (.field done name) ∧ done.getLast? = some f

/-- All that is unfinished, with what the machine is about. -/
def Stage.frames : Stage → List Frame
  | .value stack => stack
  | .firstItem stack => .items [] :: stack
  | .afterItem done stack => .items done :: stack
  | .firstField stack => .field [] [] :: stack
  | .fieldName done stack => .field done [] :: stack
  | .fieldColon done name stack => .field done name :: stack
  | .afterField done stack => .field done [] :: stack
  | .complete _ => []

/-- **The outermost object has the first field** `f`: it is unfinished, or it is the document. -/
def Opened (f : List Piece × Document) : Stage → Prop
  | .complete v => ∃ fs, v = .object (f :: fs)
  | st => Outermost f st.frames

/-- What is on top of others does not matter for the outermost. -/
theorem outermost_cons_of_ne_nil {f : List Piece × Document} {stack : List Frame} (h : stack ≠ [])
    (fr : Frame) : Outermost f (fr :: stack) ↔ Outermost f stack := by
  obtain ⟨g, stack, rfl⟩ := List.exists_cons_of_ne_nil h
  simp only [Outermost, List.getLast?_cons_cons]

/-- An array is not an object. -/
theorem outermost_items_cons {f : List Piece × Document} {stack : List Frame} {done : List Document} :
    Outermost f (.items done :: stack) ↔ Outermost f stack := by
  by_cases h : stack = []
  · subst h
    simp [Outermost]
  · exact outermost_cons_of_ne_nil h _

/-- An object with the first field, or one inside it. -/
theorem outermost_field_cons {f : List Piece × Document} {stack : List Frame}
    {done : List (List Piece × Document)} {name : List Piece} :
    Outermost f (.field done name :: stack)
      ↔ (stack = [] ∧ done.getLast? = some f) ∨ Outermost f stack := by
  by_cases h : stack = []
  · subst h
    simp [Outermost]
  · rw [outermost_cons_of_ne_nil h]
    simp [h]

theorem getLast?_cons_of_eq_some {α : Type} {l : List α} {a : α} (h : l.getLast? = some a) (b : α) :
    (b :: l).getLast? = some a := by
  rw [List.getLast?_cons, h, Option.getD_some]

/-- A finished value goes behind the first field. -/
theorem opened_supply {f : List Piece × Document} {stack : List Frame} (h : Outermost f stack)
    (v : Document) : Opened f (Stage.supply v stack) := by
  cases stack with
  | nil =>
    obtain ⟨_, _, hl, -⟩ := h
    simp at hl
  | cons fr stack =>
    cases fr with
    | items done =>
      rw [outermost_items_cons] at h
      exact outermost_items_cons.mpr h
    | field done name =>
      refine outermost_field_cons.mpr ?_
      rcases outermost_field_cons.mp h with ⟨rfl, hl⟩ | h
      · exact Or.inl ⟨rfl, getLast?_cons_of_eq_some hl _⟩
      · exact Or.inr h

/-- A value inside the object leaves its first field where it is. -/
theorem opened_start? {f : List Piece × Document} {stack : List Frame} {t : Token} {st : Stage}
    (h : Outermost f stack) (hs : Stage.start? stack t = some st) : Opened f st := by
  cases t <;> simp only [Stage.start?, reduceCtorEq, Option.some.injEq] at hs <;> subst hs
  case openArray => exact outermost_items_cons.mpr h
  case openObject => exact outermost_field_cons.mpr (Or.inr h)
  all_goals exact opened_supply h _

/-- The end of an object: it is the outermost one, or one inside it. -/
theorem opened_closed {f : List Piece × Document} {stack : List Frame}
    {done : List (List Piece × Document)} (h : Outermost f (.field done [] :: stack)) :
    Opened f (Stage.supply (.object done.reverse) stack) := by
  rcases outermost_field_cons.mp h with ⟨rfl, hl⟩ | h
  · -- the first field comes first once the fields stand in their order
    obtain ⟨front, rfl⟩ := List.getLast?_eq_some_iff.mp hl
    exact ⟨front.reverse, by simp⟩
  · exact opened_supply h _

/-- **No token takes the first field away.** -/
theorem Opened.step {f : List Piece × Document} {st st' : Stage} {t : Token} (h : Opened f st)
    (hs : st.step t = some st') : Opened f st' := by
  cases st with
  | value stack => exact opened_start? h hs
  | firstItem stack =>
    have houter : Outermost f stack := outermost_items_cons.mp h
    by_cases ht : t = .closeArray
    · subst ht
      obtain rfl := Option.some.inj hs
      exact opened_supply houter _
    · have hs : Stage.start? (.items [] :: stack) t = some st' := by
        cases t <;> first | exact absurd rfl ht | exact hs
      exact opened_start? h hs
  | afterItem done stack =>
    have houter : Outermost f stack := outermost_items_cons.mp h
    cases t <;> simp only [Stage.step, reduceCtorEq, Option.some.injEq] at hs <;> subst hs
    case comma => exact outermost_items_cons.mpr houter
    case closeArray => exact opened_supply houter _
  | firstField stack =>
    -- the object whose first field is awaited is not the outermost one
    have houter : Outermost f stack := by
      rcases outermost_field_cons.mp h with ⟨-, hl⟩ | h
      · simp at hl
      · exact h
    cases t <;> simp only [Stage.step, reduceCtorEq, Option.some.injEq] at hs <;> subst hs
    case closeObject => exact opened_supply houter _
    case string name => exact outermost_field_cons.mpr (Or.inr houter)
  | fieldName done stack =>
    cases t <;> simp only [Stage.step, reduceCtorEq, Option.some.injEq] at hs
    case string name =>
      subst hs
      exact outermost_field_cons.mpr (outermost_field_cons.mp h)
  | fieldColon done name stack =>
    cases t <;> simp only [Stage.step, reduceCtorEq, Option.some.injEq] at hs
    case colon =>
      subst hs
      exact h
  | afterField done stack =>
    cases t <;> simp only [Stage.step, reduceCtorEq, Option.some.injEq] at hs <;> subst hs
    case comma => exact h
    case closeObject => exact opened_closed h
  | complete v => simp [Stage.step] at hs

/-- Nor do many tokens. -/
theorem Opened.foldlM {f : List Piece × Document} {ts : List Token} {st st' : Stage}
    (h : Opened f st) (hs : ts.foldlM Stage.step st = some st') : Opened f st' := by
  induction ts generalizing st with
  | nil =>
    obtain rfl := Option.some.inj hs
    exact h
  | cons t ts ih =>
    rw [List.foldlM_cons] at hs
    obtain ⟨next, hn, hs⟩ := Option.bind_eq_some_iff.mp hs
    exact ih (h.step hn) hs

/-- **A text that begins with a field writes an object with that first field.** -/
theorem firstField_ofChars? {name value : String} {r : List Char} {d : Document}
    (h : ofChars? ('\x7b' :: (stringChars name ++ ':' :: (stringChars value ++ ',' :: r))) = some d) :
    ∃ fs, d = .object ((name.toList.map pieceOf, .string (value.toList.map pieceOf)) :: fs) := by
  rw [ofChars?, Token.scan?_openObject, Token.scan?_stringChars, Token.scan?_colon,
    Token.scan?_stringChars, Token.scan?_comma] at h
  simp only [Option.map_map, Option.bind_map] at h
  obtain ⟨ts, -, hd⟩ := Option.bind_eq_some_iff.mp h
  simp only [Function.comp, ofTokens?, List.foldlM_cons] at hd
  -- the first five tokens leave the machine waiting for the name of another field
  split at hd
  · next v hf =>
    obtain rfl := Option.some.inj hd
    have hf : ts.foldlM Stage.step
        (.fieldName [(name.toList.map pieceOf, .string (value.toList.map pieceOf))] [])
          = some (.complete v) := hf
    have hopened : Opened (name.toList.map pieceOf, .string (value.toList.map pieceOf))
        (.fieldName [(name.toList.map pieceOf, .string (value.toList.map pieceOf))] []) :=
      outermost_field_cons.mpr (Or.inl ⟨rfl, rfl⟩)
    exact hopened.foldlM hf
  · exact absurd hd (by simp)

/-! ### Records -/

/-- A field that has been taken stays taken. -/
theorem member?_pickFields? {names : List String} {fields : List (List Piece × Document)}
    {picked fs : List (String × Document)} {name : String} {d : Document}
    (hp : member? name picked = some d) (h : pickFields? names fields picked = some fs) :
    member? name fs = some d := by
  induction fields generalizing picked with
  | nil =>
    obtain rfl := Option.some.inj h
    exact hp
  | cons f fields ih =>
    obtain ⟨written, v⟩ := f
    rw [pickFields?] at h
    split at h
    · exact absurd h (by simp)
    · next cs _ =>
      simp only at h
      split at h
      · split at h
        · exact absurd h (by simp)
        · next hnew =>
          -- the field that comes in front has another name
          refine ih ?_ h
          have hmem : name ∈ picked.map Prod.fst := by
            obtain ⟨g, hg, -⟩ := Option.map_eq_some_iff.mp hp
            have hname : g.1 = name := by simpa using List.find?_some hg
            exact hname ▸ List.mem_map_of_mem (List.mem_of_find?_eq_some hg)
          have hne : String.ofList cs ≠ name := by
            rintro rfl
            exact hnew (List.contains_iff_mem.mpr hmem)
          rw [member?, List.find?_cons_of_neg (by simpa using hne)]
          exact hp
      · exact ih hp h

/-- **A record has the first field of its object.** -/
theorem member?_record? {names : List String} {room : Nat} {name : String} {v : Document}
    {fields : List (List Piece × Document)} {p : Nat × List (String × Document)}
    (hn : name ∈ names)
    (h : record? names room (.object ((name.toList.map pieceOf, v) :: fields)) = some p) :
    member? name p.2 = some v := by
  rw [record?] at h
  split at h
  · exact absurd h (by simp)
  · obtain ⟨fs, hf, rfl⟩ := Option.map_eq_some_iff.mp h
    rw [pickFields?, decodePieces?_written] at hf
    simp only [String.ofList_toList, List.contains_iff_mem.mpr hn, if_true, List.map_nil,
      List.contains_nil, Bool.false_eq_true, if_false] at hf
    refine member?_pickFields? ?_ hf
    simp [member?]

end Document

end Json

end JobDispatch
