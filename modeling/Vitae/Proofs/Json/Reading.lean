import Mathlib.Data.List.Basic
import Vitae.Json

/-!
# Reading JSON

A reader for all of JSON as RFC 8259 gives it: blanks around every token, the three words,
numbers, strings with every escape, arrays and objects. It knows nothing of the layout that
`Json.write` keeps.

* `Value.ofText?`: the value that a text is.
-/

namespace Vitae.Json

/-- A JSON value of any kind. A number is kept as it is written, an object with its keys in
the order and as often as they are written. -/
inductive Value where
  | null
  | bool (value : Bool)
  | number (written : String)
  | text (value : String)
  | array (items : List Value)
  | object (fields : List (String × Value))

/-! ## Blanks and numbers -/

/-- A character that may stand between tokens. -/
def isBlank (c : Char) : Bool := c = ' ' || c = '\t' || c = '\n' || c = '\r'

def skipBlanks (cs : List Char) : List Char := cs.dropWhile isBlank

/-- One digit or more, and what follows. -/
def readDigits (cs : List Char) : Option (List Char × List Char) :=
  match cs.takeWhile Char.isDigit with
  | [] => none
  | digits => some (digits, cs.dropWhile Char.isDigit)

/-- The digits before the point. A zero stands alone. -/
def readWhole : List Char → Option (List Char × List Char)
  | '0' :: cs => some (['0'], cs)
  | cs => readDigits cs

/-- A point with the digits after it, or nothing. -/
def readFraction : List Char → Option (List Char × List Char)
  | '.' :: cs => (readDigits cs).map fun x => ('.' :: x.1, x.2)
  | cs => some ([], cs)

/-- The digits of an exponent after its sign. -/
def readSignedDigits : List Char → Option (List Char × List Char)
  | '+' :: cs => (readDigits cs).map fun x => ('+' :: x.1, x.2)
  | '-' :: cs => (readDigits cs).map fun x => ('-' :: x.1, x.2)
  | cs => readDigits cs

/-- An exponent, or nothing. -/
def readExponent : List Char → Option (List Char × List Char)
  | 'e' :: cs => (readSignedDigits cs).map fun x => ('e' :: x.1, x.2)
  | 'E' :: cs => (readSignedDigits cs).map fun x => ('E' :: x.1, x.2)
  | cs => some ([], cs)

/-- A number without its sign. -/
def readUnsigned (cs : List Char) : Option (List Char × List Char) := do
  let (whole, cs) ← readWhole cs
  let (fraction, cs) ← readFraction cs
  let (exponent, cs) ← readExponent cs
  return (whole ++ fraction ++ exponent, cs)

/-- A number. -/
def readNumber : List Char → Option (List Char × List Char)
  | '-' :: cs => (readUnsigned cs).map fun x => ('-' :: x.1, x.2)
  | cs => readUnsigned cs

/-! ## Strings -/

/-- What a hexadecimal digit stands for, in either case. -/
def hexValue? (c : Char) : Option ℕ :=
  if '0' ≤ c ∧ c ≤ '9' then some (c.toNat - '0'.toNat)
  else if 'a' ≤ c ∧ c ≤ 'f' then some (c.toNat - 'a'.toNat + 10)
  else if 'A' ≤ c ∧ c ≤ 'F' then some (c.toNat - 'A'.toNat + 10)
  else none

/-- The sixteen bits that four digits stand for. -/
def unit? (a b c d : Char) : Option ℕ := do
  return 4096 * (← hexValue? a) + 256 * (← hexValue? b) + 16 * (← hexValue? c) + (← hexValue? d)

/-- What a character after a backslash stands for. -/
def escaped? : Char → Option Char
  | '\"' => some '\"'
  | '\\' => some '\\'
  | '/' => some '/'
  | 'b' => some '\x08'
  | 'f' => some '\x0c'
  | 'n' => some '\n'
  | 'r' => some '\r'
  | 't' => some '\t'
  | _ => none

/-- Puts a character before what was read. -/
def prepend (c : Char) (x : List Char × List Char) : List Char × List Char := (c :: x.1, x.2)

/-- The characters of a string up to its closing quote, and what follows. Characters beyond
sixteen bits may be written as two units, half of which alone is refused. -/
def readQuoted : List Char → Option (List Char × List Char)
  | [] => none
  | '\"' :: rest => some ([], rest)
  | '\\' :: 'u' :: a :: b :: c :: d :: rest =>
    match unit? a b c d with
    | none => none
    | some u =>
      if u < 0xD800 ∨ 0xE000 ≤ u then (readQuoted rest).map (prepend (Char.ofNat u))
      else
        match rest with
        | '\\' :: 'u' :: a' :: b' :: c' :: d' :: rest =>
          match unit? a' b' c' d' with
          | none => none
          | some v =>
            if u < 0xDC00 ∧ 0xDC00 ≤ v ∧ v < 0xE000 then
              (readQuoted rest).map
                (prepend (Char.ofNat (0x10000 + 0x400 * (u - 0xD800) + (v - 0xDC00))))
            else none
        | _ => none
  | '\\' :: c :: rest =>
    match escaped? c with
    | none => none
    | some e => (readQuoted rest).map (prepend e)
  | c :: rest => if c = '\\' ∨ c.toNat < 0x20 then none else (readQuoted rest).map (prepend c)

/-! ## Values -/

mutual

/-- A value and what follows it, looking for at most `n` values and separators within. -/
def readValue : ℕ → List Char → Option (Value × List Char)
  | 0, _ => none
  | n + 1, cs =>
    match skipBlanks cs with
    | '\"' :: cs => do
      let (value, cs) ← readQuoted cs
      return (.text (String.ofList value), cs)
    | '[' :: cs =>
      match skipBlanks cs with
      | ']' :: cs => some (.array [], cs)
      | cs => do
        let (item, cs) ← readValue n cs
        let (items, cs) ← readItems n cs
        return (.array (item :: items), cs)
    | '{' :: cs =>
      match skipBlanks cs with
      | '}' :: cs => some (.object [], cs)
      | cs => do
        let (field, cs) ← readField n cs
        let (fields, cs) ← readFields n cs
        return (.object (field :: fields), cs)
    | 'n' :: 'u' :: 'l' :: 'l' :: cs => some (.null, cs)
    | 't' :: 'r' :: 'u' :: 'e' :: cs => some (.bool true, cs)
    | 'f' :: 'a' :: 'l' :: 's' :: 'e' :: cs => some (.bool false, cs)
    | cs => do
      let (written, cs) ← readNumber cs
      return (.number (String.ofList written), cs)

/-- The items after the first, up to the end of the array. -/
def readItems : ℕ → List Char → Option (List Value × List Char)
  | 0, _ => none
  | n + 1, cs =>
    match skipBlanks cs with
    | ']' :: cs => some ([], cs)
    | ',' :: cs => do
      let (item, cs) ← readValue n cs
      let (items, cs) ← readItems n cs
      return (item :: items, cs)
    | _ => none

/-- A field of an object. -/
def readField : ℕ → List Char → Option ((String × Value) × List Char)
  | 0, _ => none
  | n + 1, cs =>
    match skipBlanks cs with
    | '\"' :: cs => do
      let (key, cs) ← readQuoted cs
      match skipBlanks cs with
      | ':' :: cs =>
        let (value, cs) ← readValue n cs
        return ((String.ofList key, value), cs)
      | _ => none
    | _ => none

/-- The fields after the first, up to the end of the object. -/
def readFields : ℕ → List Char → Option (List (String × Value) × List Char)
  | 0, _ => none
  | n + 1, cs =>
    match skipBlanks cs with
    | '}' :: cs => some ([], cs)
    | ',' :: cs => do
      let (field, cs) ← readField n cs
      let (fields, cs) ← readFields n cs
      return (field :: fields, cs)
    | _ => none

end

/-- The value that a text is, if it is one value with blanks around it. Every value and every
separator takes a character, so as many as the text has are enough. -/
def Value.ofText? (text : String) : Option Value := do
  let (value, rest) ← readValue (text.length + 1) text.toList
  if (skipBlanks rest).isEmpty then some value else none

end Vitae.Json
