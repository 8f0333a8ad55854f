import Vitae.Markup.Name
import Vitae.Text.Lines

/-!
# Values

What the characters of a text or an attribute stand for. References are resolved
first, which leaves a list of glyphs: characters that know whether they were written
out or referred to. Line ends are then folded among the glyphs that were written out.

* `resolve`: the glyphs of a word, or the first reference in it that is no good.
* `foldLineEnds`: line ends in text.
* `spaceOut`: line ends and tabs in an attribute.
-/

namespace Vitae.Markup

/-- A character of a value, with how it got there. -/
inductive Glyph where
  | written (c : Char)
  | referred (c : Char)
  deriving DecidableEq

/-! ### References -/

/-- The value of a hexadecimal digit. -/
def digitValue (c : Char) : Nat :=
  if c.isDigit then c.toNat - '0'.toNat
  else if 'a' ≤ c then c.toNat - 'a'.toNat + 10
  else c.toNat - 'A'.toNat + 10

/-- The number that digits spell. -/
def numeral (base : Nat) (digits : List Char) : Nat :=
  digits.foldl (fun n d => base * n + digitValue d) 0

/-- A digit of a hexadecimal number, in either case. -/
def isHexDigit (c : Char) : Bool := c.isDigit || ('a' ≤ c && c ≤ 'f') || ('A' ≤ c && c ≤ 'F')

/-- The character with a number below 2³². A number that no character has stands for
the replacement character; one whose character no document may hold stands for
nothing. -/
def characterOf (n : Nat) : Option Char :=
  if n < 0x100000000 then
    let c := if n.isValidChar then Char.ofNat n else '\uFFFD'
    if isLegal c then some c else none
  else none

/-- The characters that have a reference by name. -/
def namedCharacters : List (String × Char) :=
  [("quot", '\"'), ("amp", '&'), ("apos", '\''), ("lt", '<'), ("gt", '>')]

/-- A numeric reference after its sign: digits of a base and a semicolon. No digits spell
zero, whose character is not legal. -/
def numericReference (base : Nat) (isDigit : Char → Bool) (body : List Char) :
    Except Fault (Char × List Char) :=
  match characterOf (numeral base (body.takeWhile isDigit)), body.dropWhile isDigit with
  | some c, ';' :: tail => .ok (c, tail)
  | _, _ => .error .malformedReference

/-- A reference by name: the name and a semicolon. -/
def namedReference (body : List Char) : Except Fault (Char × List Char) :=
  let name := body.takeWhile isNameChar
  match body.dropWhile isNameChar with
  | ';' :: tail =>
    if startsName name then
      match namedCharacters.lookup (String.ofList name) with
      | some c => .ok (c, tail)
      | none => .error (.unknownReference (String.ofList name))
    else .error .malformedReference
  | _ => .error .malformedReference

/-- Reads what follows an ampersand: the character it refers to, and the rest. -/
def reference : List Char → Except Fault (Char × List Char)
  | '#' :: 'x' :: body => numericReference 16 isHexDigit body
  | '#' :: body => numericReference 10 Char.isDigit body
  | body => namedReference body

/-- The glyphs of what follows ampersands, the first of which stands at a position. -/
def resolveReferences (pos : Position) : List (List Char) → Except Error (List Glyph)
  | [] => .ok []
  | body :: more => do
    let (c, tail) ← (reference body).mapError (.located pos)
    let glyphs ← resolveReferences ((pos.next '&').after body) more
    return .referred c :: (tail.map .written ++ glyphs)

/-- The glyphs of a word that begins at a position. A reference ends before the next
ampersand, so the word is cut at these. -/
def resolve (start : Position) (word : List Char) : Except Error (List Glyph) := do
  let (plain, bodies) := Text.cutParts '&' word
  let glyphs ← resolveReferences (start.after plain) bodies
  return plain.map .written ++ glyphs

/-! ### Line ends -/

/-- What a carriage return that was written out stands for, given the glyph after it.
Before a line feed that was written out it stands for nothing, since that line feed
stands for both. It is itself before a reference, and at the end of a text if a
reference precedes it. -/
def carriageReturn (afterReference : Bool) (after : Option Glyph) : List Char :=
  match after with
  | some (.written d) => if d = '\n' then [] else ['\n']
  | some (.referred _) => ['\r']
  | none => if afterReference then ['\r'] else ['\n']

/-- The characters of text, in which all line ends that were written out are line feeds. -/
def foldLineEnds (afterReference : Bool) : List Glyph → List Char
  | [] => []
  | .referred c :: glyphs => c :: foldLineEnds true glyphs
  | .written c :: glyphs =>
    if c = '\r' then carriageReturn afterReference glyphs.head? ++ foldLineEnds false glyphs
    else c :: foldLineEnds false glyphs

/-- The characters of an attribute, in which tabs and line ends that were written out
are blanks, a carriage return and line feed one blank together. -/
def spaceOut : List Glyph → List Char
  | [] => []
  | .referred c :: glyphs => c :: spaceOut glyphs
  | .written c :: glyphs =>
    if c = '\r' ∧ glyphs.head? = some (.written '\n') then spaceOut glyphs
    else (if isSpace c then ' ' else c) :: spaceOut glyphs

/-- The value of a text that begins at a position. -/
def textValue (start : Position) (word : List Char) : Except Error String := do
  return String.ofList (foldLineEnds false (← resolve start word))

/-- The value of text in which an ampersand is a character like any other. -/
def verbatimValue (word : List Char) : String :=
  String.ofList (foldLineEnds false (word.map .written))

/-- The value of an attribute whose characters begin at a position. -/
def attributeValue (start : Position) (word : List Char) : Except Error String := do
  return String.ofList (spaceOut (← resolve start word))

end Vitae.Markup
