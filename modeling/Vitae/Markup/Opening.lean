import Vitae.Markup.Namespace
import Vitae.Markup.Value

/-!
# Start tags

A start tag opens an element, or stands for an empty one, or is cut off: a text that
ends right after the name or after an attribute has no tag there, and no error.

* `Reader.opening`: takes a start tag.
-/

namespace Vitae.Markup

/-- A start tag: the name as it was written, the tag, the declarations that count
below it, and whether the element ends with it. -/
structure Opening where
  name : QName
  tag : Tag
  scope : Scope
  selfClosing : Bool

/-- How a start tag ends. -/
inductive TagEnd where
  | opened | emptied | cutOff
  deriving DecidableEq

namespace Reader

/-- Takes an equals sign with blanks around it and the quote after it. -/
def equalsQuote : Reader Char := do
  let _ ← spaces
  consume '='
  let _ ← spaces
  quotation

/-- Takes an attribute of a start tag. Its value ends at the quote or at `<`, which has
to be there. -/
def writtenAttribute : Reader WrittenAttribute := do
  let start ← position
  let name ← qname
  let quote ← equalsQuote
  let valueStart ← position
  let word ← takeWhile fun c => c != quote && c != '<'
  -- a value that runs to the end is not looked at
  if ← atEnd then throw .endOfStream
  requireLegal valueStart word
  consume quote
  return ⟨name, ← attributeValue valueStart word, start⟩

/-- Takes the next attribute of a start tag, or its end. -/
def tagStep (d : Draft) : Reader (Draft ⊕ (Draft × TagEnd)) := do
  if ← atEnd then return .inr (d, .cutOff)
  let spaced ← spaces
  match ← peek with
  | none => throw .endOfStream
  | some '/' => do
    consume '/'
    consume '>'
    return .inr (d, .emptied)
  | some '>' => do
    consume '>'
    return .inr (d, .opened)
  | some found =>
    if spaced then do
      let a ← writtenAttribute
      return .inl (← d.add a)
    else fail (.expectedSpace found)

theorem tracks_equalsQuote : Tracks equalsQuote :=
  tracks_spaces.bind fun _ => (advances_consume _).tracks.bind fun _ =>
    tracks_spaces.bind fun _ => advances_quotation.tracks

theorem advances_equalsQuote : Advances equalsQuote :=
  tracks_spaces.bind fun _ => (advances_consume _).bind fun _ =>
    tracks_spaces.bind fun _ => advances_quotation.tracks

theorem advances_writtenAttribute : Advances writtenAttribute :=
  tracks_position.bind fun _ => tracks_qname.bind fun _ => advances_equalsQuote.bind fun _ =>
    tracks_position.bind fun _ => (tracks_takeWhile _).bind fun _ => tracks_atEnd.bind fun b => by
      cases b
      · exact (tracks_lift _).bind fun _ => (advances_consume _).tracks.bind fun _ =>
          (tracks_lift _).bind fun _ => tracks_pure _
      · exact moves_throw _

theorem moves_tagStep (d : Draft) : Moves (·.isLeft) (tagStep d) :=
  tracks_atEnd.bind fun b => by
    cases b
    · refine tracks_spaces.bind fun spaced => tracks_peek.bind fun x => ?_
      split
      · exact moves_throw _
      · exact (advances_consume _).bind fun _ => (advances_consume _).tracks.bind fun _ =>
          tracks_pure _
      · exact (advances_consume _).bind fun _ => tracks_pure _
      · split
        · exact advances_writtenAttribute.bind fun _ => (tracks_lift _).bind fun _ => tracks_pure _
        · exact moves_fail _
    · exact moves_pure (by simp)

/-- Takes the rest of a start tag whose `<`, already taken, stands on a line. The scope
is that of the element around it. -/
def opening (scope : Scope) (line : Nat) : Reader (Option Opening) := do
  let start ← position
  let name ← qname
  if name.qualifier = "xmlns" then failAt start .reservedQualifier
  else
    let (d, tagEnd) ← repeatUntil tagStep moves_tagStep {}
    -- a tag that is cut off is dropped with all that it holds, checked or not
    if tagEnd = .cutOff then return none
    else
      let scope := d.declared ++ scope
      let tag ← d.tag scope name start line
      return some ⟨name, tag, scope, tagEnd = .emptied⟩

theorem tracks_opening (scope : Scope) (line : Nat) : Tracks (opening scope line) :=
  tracks_position.bind fun _ => tracks_qname.bind fun _ => by
    split
    · exact moves_failAt _ _
    · refine (tracks_repeatUntil moves_tagStep _).bind fun x => ?_
      split
      split
      · exact tracks_pure _
      · exact (tracks_lift _).bind fun _ => tracks_pure _

end Reader

end Vitae.Markup
