import Vitae.Config.Dotenv.Statement
import Vitae.Config.Dotenv.Value

/-!
# Variables in a file

A file of statements `KEY=VALUE` that stands in for variables the environment lacks.
Blanks around the key and the sign do not count, nor does the word `export` before the
key.

* `Dotenv.assignments`: what the statements assign, up to the first that cannot be read.
-/

namespace Vitae.Dotenv

open Text (isBlank trimEnd)

/-- What a statement of the file says. -/
inductive Statement where
  | nothing
  | assign (key value : String)
  | malformed

/-- Whether nothing but a comment is left. -/
def isComment : List Char → Bool
  | [] => true
  | c :: _ => c = '#'

/-- A character that may begin a key. -/
def isKeyStart (c : Char) : Bool := c.isAlpha || c = '_'

/-- A character that may stand in a key. -/
def isKeyChar (c : Char) : Bool := c.isAlphanum || c = '_' || c = '.'

/-- Takes a key and the blanks after it. -/
def takeKey (text : List Char) : Option (List Char × List Char) :=
  if (text.head?.map isKeyStart).getD false then
    some (text.takeWhile isKeyChar, (text.dropWhile isKeyChar).dropWhile isBlank)
  else none

/-- Takes a key and the sign after it. Where no sign follows the word `export`, the key
comes after that word. -/
def takeAssigned (text : List Char) : Option (List Char × List Char) := do
  match ← takeKey text with
  | (key, '=' :: text) => return (key, text)
  | (key, text) =>
    -- with a sign after it, `export` is a key like any other
    if key = "export".toList then
      match ← takeKey text with
      | (key, '=' :: text) => return (key, text)
      | _ => none
    else none

/-- Reads a statement, given the variables that its value may refer to. -/
def Statement.ofText (vars : Variables) (text : List Char) : Statement :=
  let text := (trimEnd text).dropWhile isBlank
  if isComment text then .nothing
  else match takeAssigned text with
    | none => .malformed
    | some (key, text) =>
      let text := text.dropWhile isBlank
      if isComment text then .assign (String.ofList key) ""
      else match spelled vars text with
        | some value => .assign (String.ofList key) (String.ofList value)
        | none => .malformed

/-- What some statements assign, up to the first that cannot be read. A value may refer
to what an earlier statement assigned. -/
def assignedBy (vars : Variables) : List (List Char) → Variables
  | [] => []
  | text :: texts =>
    match Statement.ofText vars text with
    | .nothing => assignedBy vars texts
    | .assign key value => (key, value) :: assignedBy (vars ++ [(key, value)]) texts
    | .malformed => []

/-- The mark that may stand before the first statement of a file. -/
def byteOrderMark : Char := Char.ofNat 0xFEFF

/-- What a file assigns, in order, up to the first statement that cannot be read. -/
def assignments (environment : Variables) (text : String) : Variables :=
  assignedBy environment <| statements <|
    if text.toList.head? = some byteOrderMark then text.toList.tail else text.toList

end Vitae.Dotenv
