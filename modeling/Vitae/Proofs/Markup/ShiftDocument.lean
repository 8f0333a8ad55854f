import Vitae.Proofs.Markup.Prologue
import Vitae.Proofs.Markup.ShiftTag

/-!
# Documents and rows

Content and whole documents from further down, and documents below blank lines.

* `shifts_content`, `shifts_document`: **a document from further down is the same document**, or the same
  error, with all lines and positions further down.
* `Marked`: the texts that begin with what counts at the very beginning only.
* `ofString_blankLines`: **so a document below some blank lines is.**
-/

namespace Vitae.Markup

open Reader

/-! ## Trees and what is built of them -/

section

variable (n : ℕ)

mutual

/-- A node with all lines in it some further down. -/
def Node.shift : Node → Node
  | .element tag nodes => .element (tag.shift n) (shiftAll nodes)
  | node => node

/-- Nodes with all lines in them some further down. -/
def shiftAll : List Node → List Node
  | [] => []
  | node :: nodes => node.shift :: shiftAll nodes

end

/-- An element with all lines in it some further down. -/
def Element.shift (e : Element) : Element := ⟨e.tag.shift n, e.nodes.map (.shift n)⟩

def Frame.shift (f : Frame) : Frame := { f with tag := f.tag.shift n, nodes := f.nodes.map (.shift n) }

def Open.shift (o : Open) : Open := ⟨o.inner.shift n, o.outer.map (.shift n)⟩

def RootEnd.shift : RootEnd → RootEnd
  | .closed root => .closed (root.shift n)
  | .unclosed => .unclosed

def Piece.shift : Piece → Piece
  | .node x => .node (x.shift n)
  | .text content => .text content
  | .opening o => .opening (o.shift n)
  | .closing name start => .closing name (start.shift n)
  | .nothing => .nothing

end

variable {n : ℕ}

theorem shiftAll_eq_map (nodes : List Node) : shiftAll n nodes = nodes.map (.shift n) := by
  induction nodes with
  | nil => rfl
  | cons node nodes ih => rw [shiftAll, ih, List.map_cons]

theorem node_shift_element (tag : Tag) (nodes : List Node) :
    (Node.element tag nodes).shift n = .element (tag.shift n) (nodes.map (.shift n)) := by
  rw [Node.shift, shiftAll_eq_map]

theorem joinNode_shift (node : Node) (nodes : List Node) :
    joinNode (node.shift n) (nodes.map (.shift n)) = (joinNode node nodes).map (.shift n) := by
  cases node with
  | text t =>
    cases nodes with
    | nil => rfl
    | cons before nodes => cases before <;> rfl
  | _ => rfl

theorem Frame.push_shift (f : Frame) (node : Node) : (f.shift n).push (node.shift n) = (f.push node).shift n := by
  unfold Frame.push Frame.shift
  simp only
  rw [joinNode_shift]

theorem Frame.close_shift (f : Frame) : (f.shift n).close = f.close.shift n := by
  unfold Frame.close Frame.shift Element.shift
  simp only
  rw [List.map_reverse]

theorem Open.push_shift (o : Open) (node : Node) : (o.shift n).push (node.shift n) = (o.push node).shift n := by
  unfold Open.push Open.shift
  simp only
  rw [Frame.push_shift]

theorem Open.close_shift (o : Open) : (o.shift n).close = Sum.map (Open.shift n) (RootEnd.shift n) o.close := by
  obtain ⟨inner, outer⟩ := o
  unfold Open.close Open.shift
  simp only
  rw [Frame.close_shift]
  cases outer with
  | nil => rfl
  | cons frame outer =>
    have hnode : Node.element (inner.close.tag.shift n) (inner.close.nodes.map (.shift n)) =
        (Node.element inner.close.tag inner.close.nodes).shift n := (node_shift_element _ _).symm
    simp only [List.map_cons, Element.shift, Sum.map_inl]
    rw [hnode, Frame.push_shift]

/-- **A piece does further down what it does.** -/
theorem Open.take_shift (o : Open) (p : Piece) :
    (o.shift n).take (p.shift n) = shifted n (Sum.map (Open.shift n) (RootEnd.shift n)) (o.take p) := by
  cases p with
  | node node =>
    show Except.ok (Sum.inl ((o.shift n).push (node.shift n))) = _
    rw [Open.push_shift]
    rfl
  | text content =>
    show Except.ok (Sum.inl ((o.shift n).push ((Node.text content).shift n))) = _
    rw [Open.push_shift]
    rfl
  | opening opening =>
    have hempty : (Node.element (opening.tag.shift n) []) = (Node.element opening.tag []).shift n := rfl
    refine shifted_ite ?_ rfl
    show Except.ok (Sum.inl ((o.shift n).push (Node.element (opening.tag.shift n) []))) = _
    rw [hempty, Open.push_shift]
    rfl
  | closing name start =>
    refine shifted_ite ?_ rfl
    rw [Open.close_shift]
    rfl
  | nothing => rfl

/-! ## Content -/

namespace Reader

theorem shifts_comment (start : Position) : Shifts n (Node.shift n) (comment start) (comment (start.shift n)) :=
  (blind_legalBefore _).bind fun _ => (blind_demand _).bind fun _ => by
    exact shifts_ite (shifts_failAt _ _ _) (shifts_pure rfl)

theorem shifts_instruction (start : Position) :
    Shifts n (Node.shift n) (instruction start) (instruction (start.shift n)) :=
  (blind_standsAt _).bind fun b => by
    cases b
    · exact blind_plainName.bind fun _ => blind_spaces.bind fun _ => (blind_legalBefore _).bind fun _ =>
        (blind_demand _).bind fun _ => shifts_pure rfl
    · exact shifts_failAt _ _ _

theorem blind_verbatim : Blind n verbatim :=
  (blind_legalBefore _).bind fun _ => (blind_demand _).bind fun _ => blind_pure _

theorem blind_endTag : Blind n endTag :=
  blind_qname.bind fun _ => blind_spaces.bind fun _ => (blind_consume _).bind fun _ => blind_pure _

theorem shifts_characters (start : Position) (first : Char) :
    Shifts n id (characters start first) (characters (start.shift n) first) :=
  (shifts_lift (requireLegal_shift _ _)).bind fun _ => (blind_legalWhile _).bind fun _ => by
    exact shifts_ite (shifts_fail _ _) (shifts_lift (textValue_shift _ _))

/-- Trying a word and going on either way. -/
theorem shifts_accept {α α' : Type} {f : α → α'} {word : String} {yes no : Reader α} {yes' no' : Reader α'}
    (hy : Shifts n f yes yes') (hn : Shifts n f no no') :
    Shifts n f (accept word >>= fun b => if b = true then yes else no)
      (accept word >>= fun b => if b = true then yes' else no') :=
  (blind_accept word).bind fun b => by
    cases b
    · exact hn
    · exact hy

theorem shifts_markup (scope : Scope) (start : Position) :
    Shifts n (Piece.shift n) (markup scope start) (markup scope (start.shift n)) := by
  refine shifts_accept ((shifts_comment _).bind fun _ => shifts_pure rfl) ?_
  refine shifts_accept (blind_verbatim.bind fun _ => shifts_pure rfl) ?_
  refine shifts_accept (shifts_failAt _ _ _) ?_
  refine shifts_accept ((shifts_instruction _).bind fun _ => shifts_pure rfl) ?_
  refine shifts_accept (blind_endTag.bind fun _ => shifts_pure rfl) ?_
  refine blind_atEnd.bind fun b => shifts_ite (shifts_failAt _ _ _) ?_
  refine (shifts_opening scope start.row).bind fun o => ?_
  cases o <;> exact shifts_pure rfl

theorem shifts_piece (scope : Scope) : Shifts n (Piece.shift n) (piece scope) (piece scope) := by
  refine shifts_position.bind fun start => blind_next.bind fun x => ?_
  split
  · exact shifts_pure rfl
  · exact shifts_markup scope start
  · exact (shifts_characters start _).bind fun _ => shifts_pure rfl

theorem shifts_contentStep (o : Open) :
    Shifts n (Sum.map (Open.shift n) (RootEnd.shift n)) (contentStep o) (contentStep (o.shift n)) :=
  (shifts_piece o.inner.scope).bind fun p => shifts_lift (o.take_shift p)

/-- **Content from further down is the same content.** -/
theorem shifts_content (o : Open) : Shifts n (RootEnd.shift n) (content o) (content (o.shift n)) :=
  shifts_repeatUntil shifts_contentStep o

/-! ## Documents -/

theorem blind_declarationSpaces : Blind n declarationSpaces :=
  blind_spaces.bind fun b => by
    cases b
    · refine (blind_standsAt _).bind fun b => ?_
      cases b
      · refine blind_peek.bind fun x => ?_
        cases x with
        | none => exact blind_pure _
        | some found => exact shifts_fail _ _
      · exact blind_pure _
    · exact blind_pure _

theorem blind_declarationPart : Blind n declarationPart :=
  blind_qname.bind fun _ => blind_equalsQuote.bind fun _ => (blind_legalWhile _).bind fun _ => blind_consume _

theorem blind_declarationEnd : Blind n declarationEnd := blind_spaces.bind fun _ => blind_demand _

theorem blind_fromStandalone : Blind n fromStandalone :=
  (blind_standsAt _).bind fun b => by
    cases b
    · exact blind_declarationEnd
    · exact blind_declarationPart.bind fun _ => blind_declarationEnd

theorem blind_fromEncoding : Blind n fromEncoding :=
  (blind_standsAt _).bind fun b => by
    cases b
    · exact blind_fromStandalone
    · exact blind_declarationPart.bind fun _ => blind_declarationSpaces.bind fun _ => blind_fromStandalone

theorem blind_fromVersion : Blind n fromVersion :=
  blind_declarationPart.bind fun _ => blind_declarationSpaces.bind fun _ => blind_fromEncoding

theorem blind_declaration : Blind n declaration := by
  rw [declaration_eq]
  refine blind_declarationSpaces.bind fun _ => (blind_standsAt _).bind fun b => ?_
  cases b
  · exact Blind.bind (shifts_fail _ _) fun _ => blind_fromVersion
  · exact blind_fromVersion

theorem shifts_aroundStep (u : Unit) : Shifts n (Sum.map id id) (aroundStep u) (aroundStep u) := by
  refine blind_spaces.bind fun _ => shifts_position.bind fun start => ?_
  refine shifts_accept ((shifts_comment start).bind fun _ => shifts_pure rfl) ?_
  exact shifts_accept ((shifts_instruction start).bind fun _ => shifts_pure rfl) (shifts_pure rfl)

theorem blind_around : Blind n around := shifts_repeatUntil shifts_aroundStep ()

theorem blind_beforeRoot : Blind n beforeRoot :=
  blind_around.bind fun _ => (blind_standsAt _).bind fun b => by
    cases b
    · exact blind_pure _
    · exact shifts_throw _ _

theorem blind_prologue : Blind n prologue :=
  (blind_accept _).bind fun _ => (blind_standsAt _).bind fun b => by
    cases b
    · exact blind_beforeRoot
    · exact (blind_accept _).bind fun _ => blind_declaration.bind fun _ => blind_beforeRoot

theorem shifts_root : Shifts n (Option.map (RootEnd.shift n)) root root := by
  refine shifts_position.bind fun start => shifts_accept ?_ (shifts_pure rfl)
  refine (shifts_opening [] start.row).bind fun o => ?_
  cases o with
  | none => exact shifts_pure rfl
  | some o =>
    exact shifts_ite (shifts_pure rfl) ((shifts_content { inner := o.frame }).bind fun _ => shifts_pure rfl)

theorem shifts_foundRoot (found : Option RootEnd) :
    Shifts n (Element.shift n) (foundRoot found) (foundRoot (found.map (RootEnd.shift n))) := by
  rcases found with _ | element | _
  · exact shifts_throw _ _
  · exact shifts_pure rfl
  · exact shifts_throw _ _

theorem shifts_rootAndAfter : Shifts n (Element.shift n) rootAndAfter rootAndAfter := by
  refine shifts_root.bind fun found => blind_around.bind fun _ => blind_atEnd.bind fun b => ?_
  cases b
  · exact Blind.bind (shifts_fail _ _) fun _ => shifts_foundRoot found
  · exact shifts_foundRoot found

/-- **A document from further down is the same document.** -/
theorem shifts_document : Shifts n (Element.shift n) document document := by
  rw [document_eq]
  exact blind_prologue.bind fun _ => shifts_rootAndAfter

end Reader

/-! ## Blank lines -/

/-- Some line feeds. -/
def blankLines (n : ℕ) : List Char := List.replicate n '\n'

theorem after_blankLines (p : Position) (hcol : p.col = 1) : p.after (blankLines n) = p.shift n := by
  induction n generalizing p with
  | zero => rfl
  | succ n ih =>
    have hnext : p.next '\n' = p.shift 1 := by
      unfold Position.next Position.shift
      rw [if_pos rfl, hcol]
    have hmore : p.after (blankLines (n + 1)) = (p.shift 1).after (blankLines n) := by
      rw [← hnext]
      rfl
    rw [hmore, ih (p.shift 1) hcol]
    unfold Position.shift
    simp only [Position.mk.injEq, and_true]
    omega

namespace Reader

variable {word tail : List Char} {pos : Position}

theorem repeatUntil_congr {β σ : Type} {step : σ → Reader (σ ⊕ β)} {moves : ∀ s, Moves (·.isLeft) (step s)} {s : σ}
    {c d : Cursor} (h : step s c = step s d) : repeatUntil step moves s c = repeatUntil step moves s d := by
  rw [repeatUntil_eq, repeatUntil_eq, h]

/-- White space is passed over at once, however much of it there is. -/
theorem bind_spaces_append {α : Type} {k : Reader α} (hword : ∀ c ∈ word, isSpace c) :
    (spaces >>= fun _ => k) ⟨word ++ tail, pos⟩ = (spaces >>= fun _ => k) ⟨tail, pos.after word⟩ := by
  have hspaces : ∀ c : Cursor, (spaces >>= fun _ => k) c = k (c.skip (c.rest.takeWhile isSpace).length) :=
    fun _ => rfl
  rw [hspaces, hspaces, List.takeWhile_append_of_pos hword, List.length_append, ← Cursor.skip_skip, skip_append]

theorem around_append (hword : ∀ c ∈ word, isSpace c) :
    around ⟨word ++ tail, pos⟩ = around ⟨tail, pos.after word⟩ :=
  repeatUntil_congr (bind_spaces_append hword)

theorem beforeRoot_append (hword : ∀ c ∈ word, isSpace c) :
    beforeRoot ⟨word ++ tail, pos⟩ = beforeRoot ⟨tail, pos.after word⟩ := by
  unfold beforeRoot
  show (around _ >>= fun p => _) = (around _ >>= fun p => _)
  rw [around_append hword]

/-- The marks that a document may begin with and that count nowhere else. -/
def Marked (text : List Char) : Prop := "\uFEFF".toList <+: text ∨ "<?xml ".toList <+: text

instance (text : List Char) : Decidable (Marked text) := inferInstanceAs (Decidable (_ ∨ _))

theorem prologue_of_not_marked (h : ¬ Marked tail) : prologue ⟨tail, pos⟩ = beforeRoot ⟨tail, pos⟩ := by
  rw [Marked, not_or] at h
  have hmark : "\uFEFF".toList.isPrefixOf tail = false := by
    rw [← Bool.not_eq_true, List.isPrefixOf_iff_prefix]
    exact h.1
  have hdeclaration : "<?xml ".toList.isPrefixOf tail = false := by
    rw [← Bool.not_eq_true, List.isPrefixOf_iff_prefix]
    exact h.2
  unfold prologue
  rw [bind_of_ok (accept_none hmark), bind_of_ok (standsAt_none hdeclaration)]
  rfl

/-- A text below blank lines begins with no mark. -/
theorem not_marked_blankLines (h : ¬ Marked tail) : ¬ Marked (blankLines n ++ tail) := by
  cases n with
  | zero => exact h
  | succ n =>
    rintro (hmark | hdeclaration)
    · exact absurd (List.cons_prefix_cons.1 hmark).1 (by decide)
    · exact absurd (List.cons_prefix_cons.1 hdeclaration).1 (by decide)

theorem document_blankLines (h : ¬ Marked tail) : document ⟨blankLines n ++ tail, {}⟩ =
    shifted n (Prod.map (Element.shift n) (Cursor.shift n)) (document ⟨tail, {}⟩) := by
  have hblank : ∀ c ∈ blankLines n, isSpace c := by
    intro c hc
    rw [List.eq_of_mem_replicate hc]
    rfl
  -- neither text begins with a mark, so both prologues begin by passing over white space
  have hprologue : prologue ⟨blankLines n ++ tail, {}⟩ = prologue ⟨tail, Position.shift n {}⟩ := by
    rw [prologue_of_not_marked (not_marked_blankLines h), prologue_of_not_marked h, beforeRoot_append hblank,
      after_blankLines {} rfl]
  have hdocument : document ⟨blankLines n ++ tail, {}⟩ = document ⟨tail, Position.shift n {}⟩ := by
    rw [document_eq]
    show (prologue _ >>= fun p => _) = (prologue _ >>= fun p => _)
    rw [hprologue]
  rw [hdocument]
  exact shifts_document ⟨tail, {}⟩

end Reader

/-- **A document below some blank lines** is the same document, or has the same error, that many rows
further down. -/
theorem ofString_blankLines {text : String} (h : ¬ Marked text.toList) :
    Element.ofString (String.ofList (blankLines n) ++ text) = shifted n (Element.shift n) (Element.ofString text) := by
  unfold Element.ofString Cursor.ofString
  rw [String.toList_append, String.toList_ofList]
  exact shifted_bind (document_blankLines h) fun _ => rfl

end Vitae.Markup
