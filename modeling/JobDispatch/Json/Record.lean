import JobDispatch.Json.Reader

/-!
# Reading records

A record with fixed fields is written as an object that has each field once, in any order, among
others that are ignored; or as an array of its fields in their order.  An ignored value may be
anything that can be scanned: its numbers, strings and nesting are not looked at.

## Main definitions

* `Document.record?` — the written fields of a record.
* `Document.text?`, `Document.nat?`, `Document.double?` — the meaning of one field.
* `Document.required?`, `Document.optional?` — a field that must be there, and one that need not be.
-/

namespace JobDispatch

namespace Json

namespace Document

/-- Takes the fields whose names are listed; gives nothing if one comes twice or any name is not a
string of characters. -/
def pickFields? (names : List String) :
    List (List Piece × Document) → List (String × Document) → Option (List (String × Document))
  | [], picked => some picked
  | (name, v) :: fs, picked =>
    match decodePieces? name with
    | none => none
    | some cs =>
      let n := String.ofList cs
      if names.contains n then
        if (picked.map Prod.fst).contains n then none else pickFields? names fs ((n, v) :: picked)
      else pickFields? names fs picked

/-- **The written fields of a record** with the given field names, nested at most `room` deep, and
the room that is left for them. -/
def record? (names : List String) (room : Nat) : Document → Option (Nat × List (String × Document))
  | .object fields =>
    if room = 0 then none else (pickFields? names fields []).map (room - 1, ·)
  | .array items =>
    if room = 0 || items.length != names.length then none else some (room - 1, names.zip items)
  | _ => none

/-- The document of a field. -/
def member? (name : String) (fs : List (String × Document)) : Option Document :=
  (fs.find? fun f => f.1 == name).map Prod.snd

/-- A field that must be there. -/
def required? {α : Type} (read : Document → Option α) (name : String)
    (fs : List (String × Document)) : Option α :=
  (member? name fs).bind read

/-- A field that may be missing or null. -/
def optional? {α : Type} (read : Document → Option α) (name : String)
    (fs : List (String × Document)) : Option (Option α) :=
  match member? name fs with
  | none => some none
  | some .null => some none
  | some v => (read v).map some

/-- A string. -/
def text? : Document → Option String
  | .string s => (decodePieces? s).map String.ofList
  | _ => none

/-- A natural number of at most `limit`. -/
def nat? (limit : Nat) : Document → Option Nat
  | .number n =>
    match n.value? with
    | some (.int i) => if 0 ≤ i ∧ i ≤ limit then some i.toNat else none
    | _ => none
  | _ => none

/-- A double; a whole number is taken for the nearest one. -/
def double? : Document → Option Double
  | .number n => n.value?.map JsonNumber.toDouble
  | _ => none

/-- The items of an array, nested at most `room` deep. -/
def list? {α : Type} (read : Nat → Document → Option α) (room : Nat) : Document → Option (List α)
  | .array items => if room = 0 then none else items.mapM (read (room - 1))
  | _ => none

end Document

/-- Reads a text as a document of one kind, nested at most `Document.maxDepth` deep. -/
def decode? {α : Type} (read : Nat → Document → Option α) (s : String) : Option α :=
  (Document.ofChars? s.toList).bind (read Document.maxDepth)

end Json

end JobDispatch
