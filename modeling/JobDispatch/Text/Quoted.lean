import JobDispatch.Text.Unseen

/-!
# Quoted text

How a text is shown inside a message: between double quotes, with a back-slash before what would
end or garble it, and with the numbers of unseen characters in place of them.

## Main definitions

* `Text.escapeChar` — the shown form of one character.
* `Text.quote` — a text between double quotes.
* `Text.quoteList` — several quoted texts between brackets.
-/

namespace JobDispatch.Text

/-- The lower-case hexadecimal digit of a number below sixteen. -/
def hexDigit (n : Nat) : Char :=
  if n < 10 then Char.ofNat (48 + n) else Char.ofNat (87 + n)

/-- The hexadecimal digits of a number, without leading zeros. -/
def hexDigits (n : Nat) : List Char := Nat.toDigits 16 n

/-- The shown form of one character between double quotes. -/
def escapeChar (c : Char) : List Char :=
  if c = '"' then ['\\', '"']
  else if c = '\\' then ['\\', '\\']
  else if c = '\n' then ['\\', 'n']
  else if c = '\r' then ['\\', 'r']
  else if c = '\t' then ['\\', 't']
  else if c.toNat = 0 then ['\\', '0']
  else if isUnseen c.toNat then ['\\', 'u', '\x7b'] ++ hexDigits c.toNat ++ ['\x7d']
  else [c]

/-- A text between double quotes. -/
def quote (s : String) : String :=
  String.ofList ('"' :: s.toList.flatMap escapeChar ++ ['"'])

/-- Quoted texts between brackets, separated by commas. -/
def quoteList (ss : List String) : String :=
  "[" ++ String.intercalate ", " (ss.map quote) ++ "]"

end JobDispatch.Text
