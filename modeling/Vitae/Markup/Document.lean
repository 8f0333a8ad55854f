import Vitae.Markup.Content

/-!
# Documents

A document is one element, with a declaration before it and comments and processing
instructions around it. Document types are refused.

* `Reader.document`: takes a whole document.
* `Element.ofString`: the root element of a text.
-/

namespace Vitae.Markup

namespace Reader

/-- Takes the blanks that have to stand between the parts of a declaration. None need
stand before its end, or before the end of the text. -/
def declarationSpaces : Reader Unit := do
  if ← spaces then return
  else if ← standsAt "?>" then return
  else match ← peek with
    | none => return
    | some found => fail (.expectedSpace found)

/-- Takes a part of a declaration: a name and a value in quotes. Neither is looked at. -/
def declarationPart : Reader Unit := do
  let _ ← qname
  let quote ← equalsQuote
  let _ ← legalWhile fun c => c != quote && c != '<'
  consume quote

/-- Takes the rest of a declaration after its `<?xml`. -/
def declaration : Reader Unit := do
  declarationSpaces
  if !(← standsAt "version") then fail (.expectedWord "version")
  declarationPart
  declarationSpaces
  if ← standsAt "encoding" then
    declarationPart
    declarationSpaces
  if ← standsAt "standalone" then declarationPart
  let _ ← spaces
  demand "?>"

/-- Takes white space and one comment or processing instruction, and tells when there
is none. -/
def aroundStep (_ : Unit) : Reader (Unit ⊕ Unit) := do
  let _ ← spaces
  let start ← position
  if ← accept "<!--" then
    let _ ← comment start
    return .inl ()
  else if ← accept "<?" then
    let _ ← instruction start
    return .inl ()
  else return .inr ()

/-- Trying a word is moving on if the word is there. -/
theorem moves_accept_bind {α : Type} {q : α → Prop} {word : String} {yes no : Reader α}
    (h : word ≠ "") (hy : Tracks yes) (hn : Moves q no) :
    Moves q (accept word >>= fun b => if b = true then yes else no) := by
  refine Moves.bind (moves_accept h) fun b => ?_
  cases b
  · exact ⟨q, hn, fun _ => Or.inr⟩
  · exact ⟨_, hy, fun _ _ => Or.inl rfl⟩

theorem moves_aroundStep (u : Unit) : Moves (·.isLeft) (aroundStep u) := by
  refine tracks_spaces.bind fun _ => tracks_position.bind fun _ => ?_
  refine moves_accept_bind (by decide) ((tracks_comment _).bind fun _ => tracks_pure _) ?_
  refine moves_accept_bind (by decide) ((tracks_instruction _).bind fun _ => tracks_pure _) ?_
  exact moves_pure (by simp)

/-- Takes what may stand before and after the root element. -/
def around : Reader Unit := repeatUntil aroundStep moves_aroundStep ()

/-- Takes the root element, if one begins. -/
def root : Reader (Option RootEnd) := do
  let start ← position
  if ← accept "<" then
    match ← opening [] start.row with
    | none => return none
    | some o =>
      if o.selfClosing then return some (.closed ⟨o.tag, []⟩)
      else return some (← content { inner := o.frame })
  else return none

/-- Takes a whole document. What is left over is found before a root that is missing or
not closed. -/
def document : Reader Element := do
  let _ ← accept "\uFEFF"
  if ← standsAt "<?xml " then
    let _ ← accept "<?xml"
    declaration
  around
  if ← standsAt "<!DOCTYPE" then throw .documentType
  -- after a root that is not closed nothing is left over, for the text has ended
  let found ← root
  around
  if !(← atEnd) then fail .unknownToken
  match found with
  | none => throw .noRoot
  | some .unclosed => throw .unclosedRoot
  | some (.closed element) => return element

end Reader

/-- The root element of a text. -/
def Element.ofString (text : String) : Except Error Element := do
  let (element, _) ← Reader.document (Cursor.ofString text)
  return element

end Vitae.Markup
