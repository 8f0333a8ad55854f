import Vitae.Config.Variables
import Vitae.Text.Alphanumeric

/-!
# Values in a file of variables

How a value is spelled. It may be pieced together from bare words and words in quotes of
either kind. Between single quotes each character stands for itself; elsewhere a
backslash comes before a character that stands for itself or before an `n` for a line
feed, and a `$` before the name of a variable that stands for what it holds. A blank
outside quotes ends the value, and then only a comment may follow.

* `spelled`: what a spelling stands for, given the variables.
-/

namespace Vitae.Dotenv

open Text (isAlphanumeric)

/-- A tab or a blank. -/
def isGap (c : Char) : Bool := c = ' ' || c = '\t'

/-- What a character stands for after a backslash. -/
def escaped? (c : Char) : Option Char :=
  if c = 'n' then some '\n'
  else if c = '\\' || c = '\'' || c = '\"' || c = '$' || c = ' ' then some c
  else none

/-- Where the reading of a value stands. In each of the first four, `quoted` says
whether that is between double quotes. -/
inductive Place where
  /-- In a word. -/
  | word (quoted : Bool)
  /-- After a backslash. -/
  | escape (quoted : Bool)
  /-- In the name of a variable, which the first character that is neither letter nor
  number ends. -/
  | name (quoted : Bool) (letters : List Char)
  /-- In the name of a variable between braces. -/
  | braced (quoted : Bool) (letters : List Char)
  /-- Between single quotes. -/
  | literal
  /-- After the blank that ends the value. -/
  | after
  /-- In a comment. -/
  | remark

namespace Place

/-- What a character adds to a value, and where it leads. `none` if it may not stand
there. -/
def next (vars : Variables) : Place → Char → Option (List Char × Place)
  | .word quoted, c =>
    if c = '$' then some ([], .name quoted [])
    else if c = '\\' then some ([], .escape quoted)
    else if c = '\"' then some ([], .word !quoted)
    else if quoted then some ([c], .word quoted)
    else if c = '\'' then some ([], .literal)
    else if isGap c then some ([], .after)
    else some ([c], .word quoted)
  | .escape quoted, c => (escaped? c).map fun c => ([c], .word quoted)
  | .name quoted letters, c =>
    if isAlphanumeric c then some ([], .name quoted (letters ++ [c]))
    else if c = '{' && letters.isEmpty then some ([], .braced quoted [])
    else if c = '$' then some (vars.word letters, .name quoted [])
    -- what ends a name stands for itself, be it a quote
    else some (vars.word letters ++ [c], .word quoted)
  | .braced quoted letters, c =>
    if c = '}' then some (vars.word letters, .word quoted)
    else some ([], .braced quoted (letters ++ [c]))
  | .literal, c => if c = '\'' then some ([], .word false) else some ([c], .literal)
  | .after, c =>
    if isGap c then some ([], .after) else if c = '#' then some ([], .remark) else none
  | .remark, _ => some ([], .remark)

/-- What the end adds to a value. `none` if the value may not end there: quotes and
braces have to be closed. -/
def finish (vars : Variables) : Place → Option (List Char)
  | .word false | .escape false | .after | .remark => some []
  | .name false letters => some (vars.word letters)
  | _ => none

end Place

/-- What the rest of a spelling stands for. -/
def spelledFrom (vars : Variables) (place : Place) : List Char → Option (List Char)
  | [] => place.finish vars
  | c :: text => do
    let (written, place) ← place.next vars c
    return written ++ (← spelledFrom vars place text)

/-- What a spelling stands for. -/
def spelled (vars : Variables) (text : List Char) : Option (List Char) :=
  spelledFrom vars (.word false) text

/-- The names of variables that a text may refer to. -/
def mentioned : List Char → List String
  | [] => []
  | c :: text =>
    let names := mentioned text
    if c = '$' then
      match text with
      | '{' :: text => String.ofList (text.takeWhile (· ≠ '}')) :: names
      | text => String.ofList (text.takeWhile isAlphanumeric) :: names
    else names

end Vitae.Dotenv
