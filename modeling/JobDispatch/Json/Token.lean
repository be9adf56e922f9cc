import JobDispatch.Number.Numeral

/-!
# The tokens of JSON

A text is cut into brackets, separators, words, numbers and strings.  Numbers and strings are kept
as they are written: what they mean is decided by whoever asks for them.

## Main definitions

* `WrittenNumber` — the digits of a number before and after its point, and its exponent.
* `Piece` — a character of a string, or a code unit given by its number.
* `Token.scan?` — the tokens of a text.
-/

namespace JobDispatch

namespace Json

/-- A number as it is written. -/
structure WrittenNumber where
  /-- Whether a minus sign comes first. -/
  negative : Bool
  /-- The digits before the point. -/
  whole : List Char
  /-- The digits after the point; none if there is no point. -/
  fraction : List Char
  /-- The exponent. -/
  exponent : Option Int
  deriving DecidableEq

/-- A part of a string as it is written. -/
inductive Piece
  /-- A character, by itself or by its short escape. -/
  | char (c : Char)
  /-- A code unit of sixteen bits, by its number. -/
  | unit (n : Nat)
  deriving DecidableEq

/-- A token of a JSON text. -/
inductive Token
  | openArray
  | closeArray
  | openObject
  | closeObject
  | comma
  | colon
  | null
  | bool (b : Bool)
  | number (n : WrittenNumber)
  | string (s : List Piece)
  deriving DecidableEq

/-- The blanks between tokens. -/
def isSpace (c : Char) : Bool := c == ' ' || c == '\n' || c == '\r' || c == '\t'

/-- The value of a hexadecimal digit. -/
def hexValue? (c : Char) : Option Nat :=
  let n := c.toNat
  if 48 ≤ n ∧ n ≤ 57 then some (n - 48)
  else if 97 ≤ n ∧ n ≤ 102 then some (n - 87)
  else if 65 ≤ n ∧ n ≤ 70 then some (n - 55)
  else none

/-- The number that four hexadecimal digits write. -/
def hex4? (a b c d : Char) : Option Nat := do
  let a ← hexValue? a
  let b ← hexValue? b
  let c ← hexValue? c
  let d ← hexValue? d
  return ((a * 16 + b) * 16 + c) * 16 + d

/-- The character that a short escape stands for. -/
def shortEscape? : Char → Option Char
  | '"' => some '"'
  | '\\' => some '\\'
  | '/' => some '/'
  | 'b' => some '\x08'
  | 'f' => some '\x0c'
  | 'n' => some '\n'
  | 'r' => some '\r'
  | 't' => some '\t'
  | _ => none

namespace Token

/-- The pieces of a string up to its closing quote, and what follows. -/
def string? : List Char → Option (List Piece × List Char)
  | [] => none
  | '"' :: s => some ([], s)
  | '\\' :: 'u' :: a :: b :: c :: d :: s =>
    match hex4? a b c d, string? s with
    | some n, some (ps, r) => some (.unit n :: ps, r)
    | _, _ => none
  | '\\' :: e :: s =>
    match shortEscape? e, string? s with
    | some c, some (ps, r) => some (.char c :: ps, r)
    | _, _ => none
  | c :: s =>
    if c.toNat < 0x20 || c == '\\' then none
    else (string? s).map fun (ps, r) => (.char c :: ps, r)

/-- The closing quote ends a string. -/
theorem string?_quote (s : List Char) : string? ('"' :: s) = some ([], s) := by rw [string?]

/-- The digits after a point, if there is one, and what follows. -/
def fraction? : List Char → Option (List Char × List Char)
  | '.' :: s =>
    let (ds, r) := Numeral.digitRun s
    if ds.isEmpty then none else some (ds, r)
  | s => some ([], s)

/-- The exponent, if there is one, and what follows. -/
def exponent? : List Char → Option (Option Int × List Char)
  | [] => some (none, [])
  | c :: s =>
    if c = 'e' || c = 'E' then
      let (negative, s) := Numeral.signed s
      let (ds, r) := Numeral.digitRun s
      if ds.isEmpty then none
      else some (some (if negative then -(Numeral.ofDigits ds : Int) else Numeral.ofDigits ds), r)
    else some (none, c :: s)

/-- A number without its sign, and what follows.  A leading zero stands alone. -/
def number? (negative : Bool) (s : List Char) : Option (WrittenNumber × List Char) := do
  let (whole, s) := Numeral.digitRun s
  if whole.isEmpty || (whole.head? == some '0' && whole.length != 1) then none
  let (fraction, s) ← fraction? s
  let (exponent, s) ← exponent? s
  return (⟨negative, whole, fraction, exponent⟩, s)

/-- The token that a text starts with, and what follows. -/
def next? : List Char → Option (Token × List Char)
  | '[' :: s => some (.openArray, s)
  | ']' :: s => some (.closeArray, s)
  | '\x7b' :: s => some (.openObject, s)
  | '\x7d' :: s => some (.closeObject, s)
  | ',' :: s => some (.comma, s)
  | ':' :: s => some (.colon, s)
  | 'n' :: 'u' :: 'l' :: 'l' :: s => some (.null, s)
  | 't' :: 'r' :: 'u' :: 'e' :: s => some (.bool true, s)
  | 'f' :: 'a' :: 'l' :: 's' :: 'e' :: s => some (.bool false, s)
  | '"' :: s => (string? s).map fun (ps, r) => (.string ps, r)
  | '-' :: s => (number? true s).map fun (n, r) => (.number n, r)
  | s => (number? false s).map fun (n, r) => (.number n, r)

/-- The tokens of a text, added to those before it, last token first. -/
def scanFrom? (done : List Token) (s : List Char) : Option (List Token) :=
  match s with
  | [] => some done.reverse
  | c :: r =>
    if isSpace c then scanFrom? done r
    else match next? (c :: r) with
      | none => none
      | some (t, rest) =>
        if rest.length < (c :: r).length then scanFrom? (t :: done) rest else none
termination_by s.length
decreasing_by
  all_goals simp_all

/-- **The tokens of a text.** -/
def scan? (s : List Char) : Option (List Token) := scanFrom? [] s

end Token

end Json

end JobDispatch
