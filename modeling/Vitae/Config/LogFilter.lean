import Vitae.Text.Alphanumeric
import Vitae.Text.Blank
import Vitae.Text.Lines

/-!
# Log filters

A filter is a list of directives with commas between them. A directive is a level, or the
name of a target, the name of a span in brackets or both, and a level after a sign. Only
whether a directive can be read shows: one that cannot be is reported.

* `LogFilter.complaints`: what is reported about a filter.
-/

namespace Vitae.LogFilter

open Text (cut isAlphanumeric trim)

/-- Why a directive is refused. -/
inductive Fault where
  | form
  | level
  deriving DecidableEq

/-- The wording of a reason. -/
def Fault.message : Fault → String
  | .form => "invalid filter directive"
  | .level => "error parsing level filter: expected one of \"off\", \"error\", \"warn\", " ++
    "\"info\", \"debug\", \"trace\", or a number 0-5"

/-- The words for levels. -/
def levelWords : List String := ["off", "error", "warn", "info", "debug", "trace"]

/-- The highest number of a level. -/
def highestLevel : Nat := 5

/-- The value of decimal digits. -/
def decimal (digits : List Char) : Nat :=
  digits.foldl (fun n c => 10 * n + (c.toNat - '0'.toNat)) 0

/-- Whether a word is a number of a level. A plus sign may stand before it. -/
def isLevelNumber (word : List Char) : Bool :=
  let digits := if word.head? = some '+' then word.tail else word
  !digits.isEmpty && digits.all Char.isDigit && decimal digits ≤ highestLevel

/-- Whether a word names a level. No word names the most detailed one. -/
def isLevel (word : List Char) : Bool :=
  word.isEmpty || isLevelNumber word || String.ofList (word.map Char.toLower) ∈ levelWords

/-- Where the reading of a directive stands. -/
inductive Spot where
  /-- Before its first character. -/
  | start
  /-- In what may be a level or the name of a target. -/
  | target
  /-- In the name of a span. -/
  | span
  /-- In a field of a span. -/
  | field (isEmpty : Bool)
  /-- After the fields of a span. -/
  | fields
  /-- After a span. -/
  | spanned

/-- Whether a target or a level may begin with a character. -/
def isTargetStart (c : Char) : Bool := isAlphanumeric c || c = '-' || c = ':' || c = '_'

/-- Where a character other than the sign leads. -/
def Spot.next : Spot → Char → Except Fault Spot
  | .start, c =>
    if c = '[' then .ok .span else if isTargetStart c then .ok .target else .error .form
  | .target, c => .ok (if c = '[' then .span else .target)
  | .span, c => .ok (if c = ']' then .spanned else if c = '{' then .field true else .span)
  | .field isEmpty, c =>
    if c = '}' then (if isEmpty then .error .form else .ok .fields) else .ok (.field false)
  | .fields, c => if c = ']' then .ok .spanned else .error .form
  | .spanned, _ => .error .form

/-- Whether a sign here has a level after it. -/
def Spot.takesLevel : Spot → Bool
  | .target | .spanned => true
  | _ => false

/-- The word for the level that a directive gives after a sign, if it has a sign. -/
def levelWord? (spot : Spot) : List Char → Except Fault (Option (List Char))
  | [] => if spot.takesLevel then .ok none else .error .form
  | c :: text =>
    if c = '=' && spot.takesLevel then .ok (some text)
    else do levelWord? (← spot.next c) text

/-- Why a directive is refused, if it is. Blanks around one that gives a level after a
sign spoil the level. -/
def fault? (directive : List Char) : Option Fault :=
  match levelWord? .start (trim directive) with
  | .error fault => some fault
  | .ok none => none
  | .ok (some word) => if isLevel word && trim directive = directive then none else some .level

/-- The directives of a filter. -/
def directives (filter : String) : List (List Char) :=
  (cut ',' filter.toList).filter (· ≠ [])

/-- What is reported about the directives of a filter that cannot be read. -/
def ignored (filter : String) : List String :=
  (directives filter).filterMap fun directive => (fault? directive).map fun fault =>
    "ignoring `" ++ String.ofList directive ++ "`: " ++ fault.message

/-- The target of what the program logs. -/
def programTarget : String := "resume"

/-- What is reported about a filter. One that cannot be read is taken as a level of the
program's own target, and only what cannot be read even then is reported. -/
def complaints (filter : String) : List String :=
  if (directives filter).all fun directive => (fault? directive).isNone then []
  else ignored (programTarget ++ "=" ++ filter)

end Vitae.LogFilter
