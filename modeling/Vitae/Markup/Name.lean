import Vitae.Markup.Reader

/-!
# Names

A name is plain, or has a qualifier before a colon. A colon in front qualifies
nothing, so `:a` and `a` are the same qualified name.

* `QName.ofChars`: the qualified name that some name characters spell.
* `Reader.qname`, `Reader.plainName`: names taken off a cursor.
-/

namespace Vitae.Markup

/-- A name with its qualifier, which is empty when there is none. -/
structure QName where
  qualifier : String
  localName : String
  deriving DecidableEq

/-- Whether a word begins as a name does. -/
def startsName : List Char → Bool
  | [] => false
  | c :: _ => isNameStart c

namespace QName

/-- The name as messages give it. -/
def text (n : QName) : String :=
  if n.qualifier = "" then n.localName else n.qualifier ++ ":" ++ n.localName

/-- The qualified name that name characters spell, if they spell one: at most one
colon, and both sides begin as names do, or the side before it is empty. -/
def ofChars (word : List Char) : Option QName :=
  let front := word.takeWhile (· != ':')
  match word.dropWhile (· != ':') with
  | [] => if startsName front then some ⟨"", String.ofList front⟩ else none
  | _ :: back =>
    if !back.contains ':' && (front.isEmpty || startsName front) && startsName back then
      some ⟨String.ofList front, String.ofList back⟩
    else none

end QName

namespace Reader

/-- Takes a qualified name. -/
def qname : Reader QName := do
  let start ← position
  let word ← takeWhile isNameChar
  match QName.ofChars word with
  | some n => return n
  | none => failAt start .invalidName

/-- Takes a name in which a colon is a character like any other. -/
def plainName : Reader String := do
  let start ← position
  let word ← takeWhile isNameChar
  if startsName word then return String.ofList word else failAt start .invalidName

theorem tracks_qname : Tracks qname :=
  tracks_position.bind fun _ => (tracks_takeWhile _).bind fun word => by
    split
    · exact tracks_pure _
    · exact moves_failAt _ _

theorem tracks_plainName : Tracks plainName :=
  tracks_position.bind fun _ => (tracks_takeWhile _).bind fun word => by
    split
    · exact tracks_pure _
    · exact moves_failAt _ _

end Reader

end Vitae.Markup
