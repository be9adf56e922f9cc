import JobDispatch.Json.Token

/-!
# JSON documents

A document is a JSON value as it is written: fields in the order of the text, repeated ones kept,
numbers by their digits and strings by their pieces.  It is put together from the tokens of the text
by a machine with a stack of unfinished arrays and objects, so that no nesting is too deep to read.

## Main definitions

* `Document` — a value as it is written.
* `Document.Stage.step` — what one token does to the machine.
* `Document.ofChars?` — the document that a text writes.
-/

namespace JobDispatch

namespace Json

/-- A JSON value as it is written. -/
inductive Document
  | null
  | bool (b : Bool)
  | number (n : WrittenNumber)
  | string (s : List Piece)
  | array (items : List Document)
  | object (fields : List (List Piece × Document))

namespace Document

/-- An array or object that a value will be added to; what it has so far stands last first. -/
inductive Frame
  /-- An array. -/
  | items (done : List Document)
  /-- An object, with the name of the field whose value is read. -/
  | field (done : List (List Piece × Document)) (name : List Piece)

/-- What the machine waits for, with the unfinished arrays and objects around it. -/
inductive Stage
  /-- A value. -/
  | value (stack : List Frame)
  /-- The first item of an array, or its end. -/
  | firstItem (stack : List Frame)
  /-- A comma and another item, or the end of the array. -/
  | afterItem (done : List Document) (stack : List Frame)
  /-- The name of an object's first field, or its end. -/
  | firstField (stack : List Frame)
  /-- The name of another field. -/
  | fieldName (done : List (List Piece × Document)) (stack : List Frame)
  /-- The colon after a field's name. -/
  | fieldColon (done : List (List Piece × Document)) (name : List Piece) (stack : List Frame)
  /-- A comma and another field, or the end of the object. -/
  | afterField (done : List (List Piece × Document)) (stack : List Frame)
  /-- Nothing more. -/
  | complete (v : Document)

namespace Stage

/-- A value is finished: it goes into the innermost unfinished array or object. -/
def supply (v : Document) : List Frame → Stage
  | [] => .complete v
  | .items done :: stack => .afterItem (v :: done) stack
  | .field done name :: stack => .afterField ((name, v) :: done) stack

/-- A token where a value starts. -/
def start? (stack : List Frame) : Token → Option Stage
  | .null => some (supply .null stack)
  | .bool b => some (supply (.bool b) stack)
  | .number n => some (supply (.number n) stack)
  | .string s => some (supply (.string s) stack)
  | .openArray => some (.firstItem stack)
  | .openObject => some (.firstField stack)
  | _ => none

/-- What one token does to the machine. -/
def step : Stage → Token → Option Stage
  | .value stack, t => start? stack t
  | .firstItem stack, .closeArray => some (supply (.array []) stack)
  | .firstItem stack, t => start? (.items [] :: stack) t
  | .afterItem done stack, .comma => some (.value (.items done :: stack))
  | .afterItem done stack, .closeArray => some (supply (.array done.reverse) stack)
  | .firstField stack, .closeObject => some (supply (.object []) stack)
  | .firstField stack, .string name => some (.fieldColon [] name stack)
  | .fieldName done stack, .string name => some (.fieldColon done name stack)
  | .fieldColon done name stack, .colon => some (.value (.field done name :: stack))
  | .afterField done stack, .comma => some (.fieldName done stack)
  | .afterField done stack, .closeObject => some (supply (.object done.reverse) stack)
  | _, _ => none

end Stage

/-- The document that a list of tokens writes. -/
def ofTokens? (ts : List Token) : Option Document :=
  match ts.foldlM Stage.step (.value []) with
  | some (.complete v) => some v
  | _ => none

/-- **The document that a text writes.** -/
def ofChars? (s : List Char) : Option Document := (Token.scan? s).bind ofTokens?

end Document

end Json

end JobDispatch
