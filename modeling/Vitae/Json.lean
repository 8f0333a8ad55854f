/-!
# JSON

The values that a résumé needs (strings, arrays, objects with ordered keys) and
their written form: one value per line, two blanks per level of nesting.

* `Json.quote`: a string in quotes. Control characters below the blank, the quote
  and the backslash are escaped, all else stands as it is.
* `Json.write`: a value at a depth of nesting. An empty array or object keeps to
  one line.
-/

namespace Vitae

/-- A JSON value. -/
inductive Json where
  | text (value : String)
  | array (items : List Json)
  | object (fields : List (String × Json))

namespace Json

/-- A digit of a number below sixteen, in lower case. -/
def hexDigit (n : Nat) : Char :=
  if n < 10 then Char.ofNat ('0'.toNat + n) else Char.ofNat ('a'.toNat + (n - 10))

/-- A character inside quotes. -/
def escape (c : Char) : List Char :=
  if c = '\"' then ['\\', '\"']
  else if c = '\\' then ['\\', '\\']
  else if c = '\x08' then ['\\', 'b']
  else if c = '\x0c' then ['\\', 'f']
  else if c = '\n' then ['\\', 'n']
  else if c = '\r' then ['\\', 'r']
  else if c = '\t' then ['\\', 't']
  else if c.toNat < 0x20 then ['\\', 'u', '0', '0', hexDigit (c.toNat / 16), hexDigit (c.toNat % 16)]
  else [c]

/-- A string in quotes. -/
def quote (s : String) : List Char := '\"' :: (s.toList.flatMap escape ++ ['\"'])

/-- Starts a line at a depth of nesting. -/
def newline (depth : Nat) : List Char := '\n' :: List.replicate (2 * depth) ' '

mutual

/-- Writes a value whose first character stands on a line of this depth. -/
def write (depth : Nat) : Json → List Char
  | .text value => quote value
  | .array [] => ['[', ']']
  | .array (item :: items) =>
    '[' :: newline (depth + 1) ++ write (depth + 1) item ++ writeItems (depth + 1) items
      ++ newline depth ++ [']']
  | .object [] => ['{', '}']
  | .object ((key, value) :: fields) =>
    '{' :: newline (depth + 1) ++ quote key ++ [':', ' '] ++ write (depth + 1) value
      ++ writeFields (depth + 1) fields ++ newline depth ++ ['}']

/-- Writes the items after the first, each on a line of its own. -/
def writeItems (depth : Nat) : List Json → List Char
  | [] => []
  | item :: items => ',' :: newline depth ++ write depth item ++ writeItems depth items

/-- Writes the fields after the first, each on a line of its own. -/
def writeFields (depth : Nat) : List (String × Json) → List Char
  | [] => []
  | (key, value) :: fields =>
    ',' :: newline depth ++ quote key ++ [':', ' '] ++ write depth value ++ writeFields depth fields

end

/-- A value as a text of its own, ended by a newline. -/
def pretty (value : Json) : String := String.ofList (value.write 0 ++ ['\n'])

end Json

end Vitae
