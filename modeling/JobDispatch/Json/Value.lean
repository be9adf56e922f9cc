import JobDispatch.Number.Double
import JobDispatch.Text.Dictionary

/-!
# JSON values

## Main definitions

* `Json` — null, truth values, numbers, strings, arrays and objects.
* `Json.WellFormed` — integers within 64 bits, finite doubles, and fields in strictly ascending order.
* `Json.depth` — how deep arrays and objects are nested.
-/

namespace JobDispatch

/-- A JSON number: whole, or a double. -/
inductive JsonNumber where
  /-- A whole number, of 64 bits with or without a sign. -/
  | int (i : Int)
  /-- Any other number. -/
  | double (x : Double)
  deriving DecidableEq

/-- A JSON value.  An object lists its fields in the order of their names, each name once. -/
inductive Json where
  | null
  | bool (b : Bool)
  | number (n : JsonNumber)
  | string (s : String)
  | array (items : List Json)
  | object (fields : List (String × Json))

namespace JsonNumber

/-- The double nearest to a number. -/
def toDouble : JsonNumber → Double
  | .int i => Double.ofInt i
  | .double x => x

/-- The whole numbers that have 64 bits, with or without a sign, and the finite doubles. -/
def WellFormed : JsonNumber → Prop
  | .int i => -(Nat.pow 2 63 : Int) ≤ i ∧ i < (Nat.pow 2 64 : Int)
  | .double x => x.isFinite = true

end JsonNumber

namespace Json

instance : Inhabited Json := ⟨.null⟩

/-- A whole number as a value. -/
def ofInt (i : Int) : Json := .number (.int i)

/-- A natural number as a value. -/
def ofNat (n : Nat) : Json := .number (.int n)

/-- A double as a value; one that is not finite has no number and becomes null. -/
def ofDouble (x : Double) : Json := if x.isFinite then .number (.double x) else .null

/-- The object with the given fields; of two with one name the later counts. -/
def ofFields (fs : List (String × Json)) : Json :=
  .object (Dictionary.ofList fs)

/-- The field of that name, if the value is an object that has one. -/
def field? (name : String) : Json → Option Json
  | .object fs => Dictionary.find? name fs
  | _ => none

/-- Whether a value is an object. -/
def isObject : Json → Bool
  | .object _ => true
  | _ => false

/-- The text of a string. -/
def string? : Json → Option String
  | .string s => some s
  | _ => none

/-- The double nearest to a number. -/
def double? : Json → Option Double
  | .number n => some n.toDouble
  | _ => none

/-- A natural number of 64 bits. -/
def nat? : Json → Option Nat
  | .number (.int i) => if 0 ≤ i then some i.toNat else none
  | _ => none

mutual

/-- How deep arrays and objects are nested: an empty array is one deep, a string not at all. -/
def depth : Json → Nat
  | .array items => itemsDepth items + 1
  | .object fields => fieldsDepth fields + 1
  | _ => 0

/-- The greatest depth among items. -/
def itemsDepth : List Json → Nat
  | [] => 0
  | v :: vs => max (depth v) (itemsDepth vs)

/-- The greatest depth among the values of fields. -/
def fieldsDepth : List (String × Json) → Nat
  | [] => 0
  | (_, v) :: fs => max (depth v) (fieldsDepth fs)

end

mutual

/-- The values that can be held: numbers within their ranges, and the fields of every object in
strictly ascending order of their names. -/
def WellFormed : Json → Prop
  | .number n => n.WellFormed
  | .array items => ItemsWellFormed items
  | .object fields => Dictionary.Ascending (Dictionary.names fields) ∧ FieldsWellFormed fields
  | _ => True

/-- All items can be held. -/
def ItemsWellFormed : List Json → Prop
  | [] => True
  | v :: vs => WellFormed v ∧ ItemsWellFormed vs

/-- The values of all fields can be held. -/
def FieldsWellFormed : List (String × Json) → Prop
  | [] => True
  | (_, v) :: fs => WellFormed v ∧ FieldsWellFormed fs

end

@[simp] theorem ofFields_nil : ofFields [] = .object [] := rfl

@[simp] theorem isObject_object (fs : List (String × Json)) : (Json.object fs).isObject = true := rfl

end Json

end JobDispatch
