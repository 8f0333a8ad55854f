import Vitae.Markup.Opening

/-!
# Content

What stands between the tags of an element: pieces, which build up the elements that
are open. Neighbouring pieces of text make one text node.

* `Reader.piece`: takes one piece; it always takes a character, unless none is left.
* `Open.take`: what a piece does to the elements that are open.
* `Reader.content`: the root element, once all elements are closed again.
-/

namespace Vitae.Markup

/-- A piece of content. -/
inductive Piece where
  | node (node : Node)
  | text (content : String)
  | opening (opening : Opening)
  | closing (name : QName) (start : Position)
  | nothing

/-- An element whose end tag has not come: its name as it was written, its tag, the
declarations that count in it and the nodes so far, the latest first. -/
structure Frame where
  name : QName
  tag : Tag
  scope : Scope
  nodes : List Node := []

/-- The elements that are open: the innermost, and those around it outwards. -/
structure Open where
  inner : Frame
  outer : List Frame := []

/-- How the root element ends: closed, or with the text. -/
inductive RootEnd where
  | closed (root : Element)
  | unclosed

/-- Puts a node after nodes, the latest first. Text joins text. -/
def joinNode (node : Node) (nodes : List Node) : List Node :=
  match node, nodes with
  | .text t, .text s :: before => .text (s ++ t) :: before
  | node, nodes => node :: nodes

def Opening.frame (o : Opening) : Frame := { name := o.name, tag := o.tag, scope := o.scope }

/-- Puts a node at the end of an open element. -/
def Frame.push (f : Frame) (node : Node) : Frame := { f with nodes := joinNode node f.nodes }

def Frame.close (f : Frame) : Element := ⟨f.tag, f.nodes.reverse⟩

namespace Open

/-- Puts a node at the end of the innermost element. -/
def push (o : Open) (node : Node) : Open := { o with inner := o.inner.push node }

/-- Closes the innermost element. -/
def close (o : Open) : Open ⊕ RootEnd :=
  let element := o.inner.close
  match o.outer with
  | [] => .inr (.closed element)
  | frame :: outer => .inl ⟨frame.push (.element element.tag element.nodes), outer⟩

/-- What a piece does: it is put in the innermost element, or opens or closes one. An
end tag has to repeat the name as it was written. -/
def take (o : Open) : Piece → Except Error (Open ⊕ RootEnd)
  | .node node => .ok (.inl (o.push node))
  | .text content => .ok (.inl (o.push (.text content)))
  | .opening opening =>
    if opening.selfClosing then .ok (.inl (o.push (.element opening.tag [])))
    else .ok (.inl ⟨opening.frame, o.inner :: o.outer⟩)
  | .closing name start =>
    if name = o.inner.name then .ok o.close
    else .error (.located start (.wrongEndTag o.inner.name.text name.text))
  | .nothing => .ok (.inr .unclosed)

end Open

namespace Reader

/-- Takes a comment after its `<!--`, which stands at a position. -/
def comment (start : Position) : Reader Node := do
  let word ← legalBefore "-->"
  demand "-->"
  if lengthBefore ['-', '-'] word < word.length || word.getLast? = some '-' then
    failAt start .dashesInComment
  else return .comment (String.ofList word)

/-- Takes a processing instruction after its `<?`, which stands at a position. A
declaration is none. -/
def instruction (start : Position) : Reader Node := do
  if ← standsAt "xml " then failAt start .misplacedDeclaration
  else
    let target ← plainName
    let _ ← spaces
    let word ← legalBefore "?>"
    demand "?>"
    return .instruction target (String.ofList word)

/-- Takes verbatim text after its `<![CDATA[`. -/
def verbatim : Reader String := do
  let word ← legalBefore "]]>"
  demand "]]>"
  return verbatimValue word

/-- Takes the rest of an end tag after its `</`. -/
def endTag : Reader QName := do
  let name ← qname
  let _ ← spaces
  consume '>'
  return name

/-- Takes the rest of a text whose first character, already taken, stands at a
position. It ends before the next `<`. -/
def characters (start : Position) (first : Char) : Reader String := do
  requireLegal start [first]
  let word := first :: (← legalWhile (· != '<'))
  if lengthBefore [']', ']', '>'] word < word.length then fail .sectionEndInText
  else textValue start word

/-- Takes the rest of the markup whose `<`, already taken, stands at a position. -/
def markup (scope : Scope) (start : Position) : Reader Piece := do
  if ← accept "!--" then return .node (← comment start)
  else if ← accept "![CDATA[" then return .text (← verbatim)
  else if ← accept "!" then failAt start .unknownToken
  else if ← accept "?" then return .node (← instruction start)
  else if ← accept "/" then return .closing (← endTag) start
  else if ← atEnd then failAt start .unknownToken
  else match ← opening scope start.row with
    | some o => return .opening o
    | none => return .nothing

/-- Takes a piece of content. -/
def piece (scope : Scope) : Reader Piece := do
  let start ← position
  match ← next with
  | none => return .nothing
  | some '<' => markup scope start
  | some first => return .text (← characters start first)

/-- Takes a piece and lets it act on the open elements. -/
def contentStep (o : Open) : Reader (Open ⊕ RootEnd) := do
  o.take (← piece o.inner.scope)

theorem tracks_comment (start : Position) : Tracks (comment start) :=
  (tracks_legalBefore _).bind fun _ => (tracks_demand (by decide)).bind fun _ => by
    split
    · exact moves_failAt _ _
    · exact tracks_pure _

theorem tracks_instruction (start : Position) : Tracks (instruction start) :=
  (tracks_standsAt _).bind fun b => by
    cases b
    · exact tracks_plainName.bind fun _ => tracks_spaces.bind fun _ =>
        (tracks_legalBefore _).bind fun _ => (tracks_demand (by decide)).bind fun _ =>
          tracks_pure _
    · exact moves_failAt _ _

theorem tracks_verbatim : Tracks verbatim :=
  (tracks_legalBefore _).bind fun _ => (tracks_demand (by decide)).bind fun _ => tracks_pure _

theorem tracks_endTag : Tracks endTag :=
  tracks_qname.bind fun _ => tracks_spaces.bind fun _ => (advances_consume _).tracks.bind fun _ =>
    tracks_pure _

theorem tracks_characters (start : Position) (first : Char) : Tracks (characters start first) :=
  (tracks_lift _).bind fun _ => (tracks_legalWhile _).bind fun _ => by
    dsimp only
    split
    · exact moves_fail _
    · exact tracks_lift _

/-- Trying a word and going on either way. -/
theorem tracks_accept {α : Type} {word : String} {yes no : Reader α} (h : word ≠ "")
    (hy : Tracks yes) (hn : Tracks no) :
    Tracks (accept word >>= fun b => if b = true then yes else no) :=
  (moves_accept h).tracks.bind fun b => by
    split
    · exact hy
    · exact hn

theorem tracks_markup (scope : Scope) (start : Position) : Tracks (markup scope start) := by
  refine tracks_accept (by decide) ((tracks_comment _).bind fun _ => tracks_pure _) ?_
  refine tracks_accept (by decide) (tracks_verbatim.bind fun _ => tracks_pure _) ?_
  refine tracks_accept (by decide) (moves_failAt _ _) ?_
  refine tracks_accept (by decide) ((tracks_instruction _).bind fun _ => tracks_pure _) ?_
  refine tracks_accept (by decide) (tracks_endTag.bind fun _ => tracks_pure _) ?_
  refine tracks_atEnd.bind fun b => ?_
  split
  · exact moves_failAt _ _
  · refine (tracks_opening _ _).bind fun x => ?_
    split <;> exact tracks_pure _

/-- A piece takes a character unless it is `Piece.nothing`. -/
theorem moves_piece (scope : Scope) : Moves (· ≠ .nothing) (piece scope) := by
  refine tracks_position.bind fun start => Moves.bind moves_next fun x => ?_
  cases x with
  | none => exact ⟨_, moves_pure (q := (· ≠ .nothing)) (by simp), fun _ => Or.inr⟩
  | some first =>
    -- the first character is taken, so the rest need not move on
    refine ⟨fun _ => False, ?_, fun _ _ => Or.inl rfl⟩
    split
    · exact absurd ‹_› (by simp)
    · exact tracks_markup _ _
    · rename_i h; cases h
      exact (tracks_characters _ _).bind fun _ => tracks_pure _

theorem moves_contentStep (o : Open) : Moves (·.isLeft) (contentStep o) := by
  refine Moves.bind (moves_piece _) fun p => ?_
  -- a step without a character taken is the last one
  by_cases hp : p = .nothing
  · refine ⟨(·.isLeft), moves_lift ?_, fun _ => Or.inr⟩
    rintro a h
    cases hp
    cases h
    simp
  · exact ⟨_, tracks_lift _, fun _ _ => Or.inl hp⟩

/-- Takes content until the root element is closed or the text ends. -/
def content (o : Open) : Reader RootEnd := repeatUntil contentStep moves_contentStep o

end Reader

end Vitae.Markup
