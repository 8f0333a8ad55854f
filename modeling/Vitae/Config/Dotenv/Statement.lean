import Vitae.Text.Blank

/-!
# Statements of a file of variables

A statement ends with its line, unless a quote is open there: then it goes on in the
next line. A backslash takes its meaning from a quote, a blank or a `#` after it, but not
from the end of a line. A comment is a `#` that is the first of a statement but for
blanks, or that follows a blank; of several blanks in a row only every other one counts,
for the second is an ordinary character.

* `statements`: the statements that a file ends, in order, without their comments.
-/

namespace Vitae.Dotenv

open Text (isBlank)

/-- Where the cut through a file stands. -/
inductive Standing where
  /-- At the start of a statement, but for blanks. -/
  | start
  /-- Among ordinary characters. -/
  | plain
  /-- After a blank. -/
  | gap
  /-- After a backslash. -/
  | escape
  /-- Between quotes of a kind. -/
  | quoted (mark : Char)
  /-- Between quotes of a kind, after a backslash. -/
  | quotedEscape (mark : Char)
  /-- In a comment. -/
  | remark
  deriving DecidableEq

namespace Standing

/-- Where an ordinary character leads. -/
def ofPlain (c : Char) : Standing :=
  if c = '\\' then .escape else if c = '\'' || c = '\"' then .quoted c else .plain

/-- Where the cut stands after a character. -/
def next : Standing → Char → Standing
  | .start, c => if c = '#' then .remark else if isBlank c then .start else ofPlain c
  | .plain, c => if isBlank c && c ≠ '\n' && c ≠ '\r' then .gap else ofPlain c
  | .gap, c => if c = '#' then .remark else ofPlain c
  | .escape, _ => .plain
  | .quoted mark, c =>
    if c = '\\' then .quotedEscape mark else if c = mark then .plain else .quoted mark
  | .quotedEscape mark, _ => .quoted mark
  | .remark, _ => .remark

/-- Whether a statement may end here: not within quotes, nor where a character is due. -/
def mayEnd : Standing → Bool
  | .start | .plain | .remark => true
  | _ => false

end Standing

/-- Puts a character at the front of the first of some statements, if there is one. -/
def putBefore (c : Char) : List (List Char) → List (List Char)
  | [] => []
  | statement :: statements => (c :: statement) :: statements

/-- The statements of a text, the first of them the rest of the one that is begun. One
that never ends is left out. -/
def cutStatements (standing : Standing) : List Char → List (List Char)
  | [] => if standing.mayEnd then [[]] else []
  | c :: text =>
    let after := standing.next c
    if c = '\n' && after.mayEnd then [] :: cutStatements .start text
    else if after = .remark then cutStatements after text
    else putBefore c (cutStatements after text)

/-- The statements of a text, in order. -/
def statements (text : List Char) : List (List Char) := cutStatements .start text

end Vitae.Dotenv
