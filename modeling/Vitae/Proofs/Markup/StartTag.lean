import Vitae.Proofs.Markup.Prologue

/-!
# Start tags and open elements

A start tag is read at a `<`, says the name that is spelled after it and has the line that the cursor
is on. The elements that have begun so far are those that are open and those in them, and a start tag
is the only piece that adds one.

* `opening_ok`: what a start tag says.
* `piece_taken`: **a piece with an element in it is a start tag at a `<`.**
* `Open.tags_take`: **a piece puts its tags after those that are there.**
* `Open.tags_take_closed`: the tags of a root that is closed are those that were there.
-/

namespace Vitae.Markup

open Reader

/-! ## Start tags -/

/-- What comes to a value comes to one at each of its steps. -/
theorem exists_of_bind_ok {α β : Type} {x : Except Error α} {f : α → Except Error β} {b : β}
    (h : (x >>= f) = .ok b) : ∃ a, x = .ok a ∧ f a = .ok b := by
  cases x with
  | error e => cases h
  | ok a => exact ⟨a, rfl, h⟩

theorem Draft.tag_ok {draft : Draft} {scope : Scope} {name : QName} {start : Position} {line : ℕ} {tag : Tag}
    (h : draft.tag scope name start line = .ok tag) : tag.name = name.localName ∧ tag.line = line := by
  unfold Draft.tag at h
  obtain ⟨attributes, -, h⟩ := exists_of_bind_ok h
  obtain ⟨space, -, h⟩ := exists_of_bind_ok h
  cases h
  exact ⟨rfl, rfl⟩

namespace Reader

variable {α : Type} {c d : Cursor}

theorem lift_eq_ok {x : Except Error α} {a : α} (h : (liftM x : Reader α) c = .ok (a, d)) : x = .ok a ∧ d = c := by
  cases x with
  | error e => cases h
  | ok b =>
    replace h : (Except.ok (b, c) : Except Error _) = .ok (a, d) := h
    cases h
    exact ⟨rfl, rfl⟩

theorem qname_ok {name : QName} (h : qname c = .ok (name, d)) :
    QName.ofChars (c.rest.takeWhile isNameChar) = some name := by
  unfold qname at h
  obtain ⟨start, c₁, ⟨⟩, h⟩ := bind_eq_ok.1 h
  obtain ⟨word, c₂, ⟨⟩, h⟩ := bind_eq_ok.1 h
  cases hword : QName.ofChars (c.rest.takeWhile isNameChar) with
  | none =>
    rw [hword] at h
    cases h
  | some name' =>
    rw [hword] at h
    cases h
    rfl

/-- What a start tag says: the name that is spelled, and the line that it was given. -/
theorem opening_ok {scope : Scope} {line : ℕ} {o : Opening} (h : opening scope line c = .ok (some o, d)) :
    QName.ofChars (c.rest.takeWhile isNameChar) = some o.name ∧ o.tag.name = o.name.localName ∧
      o.tag.line = line := by
  unfold opening at h
  obtain ⟨start, c₁, ⟨⟩, h⟩ := bind_eq_ok.1 h
  obtain ⟨name, c₂, hname, h⟩ := bind_eq_ok.1 h
  split at h
  · cases h
  obtain ⟨⟨draft, tagEnd⟩, c₃, -, h⟩ := bind_eq_ok.1 h
  simp only at h
  split at h
  · cases h
  obtain ⟨tag, c₄, htag, h⟩ := bind_eq_ok.1 h
  cases h
  exact ⟨qname_ok hname, Draft.tag_ok (lift_eq_ok htag).1⟩

end Reader

/-! ## Pieces -/

/-- A start tag at a cursor, read where some declarations count, and the cursor after it. -/
def StartTag (scope : Scope) (c : Cursor) (o : Opening) (d : Cursor) : Prop :=
  c.rest.head? = some '<' ∧ opening scope c.pos.row (c.skip 1) = .ok (some o, d)

/-- How a piece is taken between two cursors, as far as elements are concerned. -/
def Piece.TakenAt (scope : Scope) (c d : Cursor) : Piece → Prop
  | .node x => x.subtree = []
  | .opening o => StartTag scope c o d
  | _ => True

namespace Reader

variable {α : Type} {c d : Cursor}

theorem comment_subtree {start : Position} {node : Node} (h : comment start c = .ok (node, d)) :
    node.subtree = [] := by
  unfold comment at h
  obtain ⟨word, c₁, -, h⟩ := bind_eq_ok.1 h
  obtain ⟨-, c₂, -, h⟩ := bind_eq_ok.1 h
  split at h
  · cases h
  · cases h
    rfl

theorem instruction_subtree {start : Position} {node : Node} (h : instruction start c = .ok (node, d)) :
    node.subtree = [] := by
  unfold instruction at h
  obtain ⟨b, c₁, -, h⟩ := bind_eq_ok.1 h
  split at h
  · cases h
  obtain ⟨target, c₂, -, h⟩ := bind_eq_ok.1 h
  obtain ⟨-, c₃, -, h⟩ := bind_eq_ok.1 h
  obtain ⟨word, c₄, -, h⟩ := bind_eq_ok.1 h
  obtain ⟨-, c₅, -, h⟩ := bind_eq_ok.1 h
  cases h
  rfl

/-- A word is there and taken, or not there. -/
theorem accept_ok {word : String} {yes no : Reader α} {x : α × Cursor}
    (h : (accept word >>= fun b => if b = true then yes else no) c = .ok x) :
    yes (c.skip word.toList.length) = .ok x ∨ no c = .ok x := by
  obtain ⟨b, c', hb, h⟩ := bind_eq_ok.1 h
  unfold accept at hb
  split at hb
  · cases hb
    exact Or.inl h
  · cases hb
    exact Or.inr h

/-- Markup is taken after its `<`. -/
theorem markup_taken {scope : Scope} {p : Piece} (hlt : c.rest.head? = some '<')
    (h : markup scope c.pos (c.skip 1) = .ok (p, d)) : p.TakenAt scope c d := by
  unfold markup at h
  rcases accept_ok h with h | h
  · obtain ⟨node, c', hnode, h⟩ := bind_eq_ok.1 h
    cases h
    exact comment_subtree hnode
  -- the words are tried in the order of the reader; each but the last ends in a piece of its own kind
  rcases accept_ok h with h | h
  · obtain ⟨word, c', -, h⟩ := bind_eq_ok.1 h
    cases h
    exact trivial
  rcases accept_ok h with h | h
  · cases h
  rcases accept_ok h with h | h
  · obtain ⟨node, c', hnode, h⟩ := bind_eq_ok.1 h
    cases h
    exact instruction_subtree hnode
  rcases accept_ok h with h | h
  · obtain ⟨name, c', -, h⟩ := bind_eq_ok.1 h
    cases h
    exact trivial
  obtain ⟨b, c', ⟨⟩, h⟩ := bind_eq_ok.1 h
  split at h
  · cases h
  obtain ⟨o, c', ho, h⟩ := bind_eq_ok.1 h
  cases o with
  | none =>
    cases h
    exact trivial
  | some o =>
    cases h
    exact ⟨hlt, ho⟩

theorem piece_taken {scope : Scope} {p : Piece} (h : piece scope c = .ok (p, d)) : p.TakenAt scope c d := by
  unfold piece at h
  obtain ⟨start, c₁, ⟨⟩, h⟩ := bind_eq_ok.1 h
  obtain ⟨x, c₂, hx, h⟩ := bind_eq_ok.1 h
  have hnext : c.rest.head? = x ∧ c.skip 1 = c₂ := by
    cases hx
    exact ⟨rfl, rfl⟩
  obtain ⟨hhead, rfl⟩ := hnext
  split at h
  · cases h
    exact trivial
  · exact markup_taken hhead h
  · obtain ⟨content, c₃, -, h⟩ := bind_eq_ok.1 h
    cases h
    exact trivial

end Reader

/-! ## Tags in document order -/

theorem subtreeAll_append (nodes more : List Node) :
    subtreeAll (nodes ++ more) = subtreeAll nodes ++ subtreeAll more := by
  induction nodes with
  | nil => rfl
  | cons node nodes ih => rw [List.cons_append, subtreeAll, subtreeAll, ih, List.append_assoc]

/-- The tags of an open element and of all below it so far, in document order. -/
def Frame.tags (f : Frame) : List Tag := f.tag :: (subtreeAll f.nodes.reverse).map (·.tag)

/-- The tags of all elements so far, in document order. -/
def Open.tags (o : Open) : List Tag := o.outer.reverse.flatMap Frame.tags ++ o.inner.tags

/-- Text that joins text brings no element with it. -/
theorem subtreeAll_joinNode (node : Node) (nodes : List Node) :
    subtreeAll (joinNode node nodes).reverse = subtreeAll nodes.reverse ++ node.subtree := by
  have hcons : subtreeAll (node :: nodes).reverse = subtreeAll nodes.reverse ++ node.subtree := by
    rw [List.reverse_cons, subtreeAll_append, subtreeAll, subtreeAll, List.append_nil]
  unfold joinNode
  split
  · rw [List.reverse_cons, List.reverse_cons, subtreeAll_append, subtreeAll_append, List.append_assoc]
    rfl
  · exact hcons

theorem Frame.tags_push (f : Frame) (node : Node) :
    (f.push node).tags = f.tags ++ node.subtree.map (·.tag) := by
  unfold Frame.tags Frame.push
  simp only
  rw [subtreeAll_joinNode, List.map_append, List.cons_append]

theorem Open.tags_push (o : Open) (node : Node) : (o.push node).tags = o.tags ++ node.subtree.map (·.tag) := by
  unfold Open.tags Open.push
  simp only
  rw [Frame.tags_push, List.append_assoc]

/-- Closing an element leaves the tags as they are, inside or as the root. -/
theorem Open.tags_close_inl {o o' : Open} (h : o.close = .inl o') : o'.tags = o.tags := by
  obtain ⟨inner, outer⟩ := o
  cases outer with
  | nil => cases h
  | cons frame outer =>
    cases h
    unfold Open.tags
    rw [Frame.tags_push, List.reverse_cons, List.flatMap_append, List.flatMap_singleton, List.append_assoc]
    rfl

theorem Open.tags_close_inr {o : Open} {root : Element} (h : o.close = .inr (.closed root)) :
    root.subtree.map (·.tag) = o.tags := by
  obtain ⟨inner, outer⟩ := o
  cases outer with
  | nil =>
    cases h
    rfl
  | cons frame outer => cases h

/-- The tags that a piece brings. -/
def Piece.tags : Piece → List Tag
  | .node x => x.subtree.map (·.tag)
  | .opening o => [o.tag]
  | _ => []

/-- **A piece puts its tags after those that are there.** -/
theorem Open.tags_take {o o' : Open} {p : Piece} (h : o.take p = .ok (.inl o')) : o'.tags = o.tags ++ p.tags := by
  cases p with
  | node x =>
    cases h
    exact o.tags_push x
  | text content =>
    cases h
    exact o.tags_push (.text content)
  | opening opening =>
    simp only [Open.take] at h
    split at h
    · cases h
      exact o.tags_push (.element opening.tag [])
    · cases h
      unfold Open.tags
      rw [List.reverse_cons, List.flatMap_append, List.flatMap_singleton]
      rfl
  | closing name start =>
    simp only [Open.take] at h
    split at h
    · exact (Open.tags_close_inl (Except.ok.inj h)).trans (List.append_nil _).symm
    · cases h
  | nothing => cases h

theorem Open.tags_take_closed {o : Open} {p : Piece} {root : Element} (h : o.take p = .ok (.inr (.closed root))) :
    root.subtree.map (·.tag) = o.tags := by
  cases p with
  | node x => cases h
  | text content => cases h
  | opening opening =>
    simp only [Open.take] at h
    split at h <;> cases h
  | closing name start =>
    simp only [Open.take] at h
    split at h
    · exact Open.tags_close_inr (Except.ok.inj h)
    · cases h
  | nothing => cases h

end Vitae.Markup
