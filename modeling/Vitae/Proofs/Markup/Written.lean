import Vitae.Proofs.Markup.Edit
import Vitae.Proofs.Markup.Writing

/-!
# Reading what was written

Written markup is read as the elements that it was written for.

* `Fills`, `Writes`: what it means for a word to be read as the nodes of an element, or as elements.
* `fills_refer`, `Writes.fills`, `writes_element`: **an element is written by writing what is in it.**
* `ofString_writeElement`: **and a document by writing its root.**
-/

namespace Vitae.Markup

open Reader

variable {α : Type} {name : String} {att : Option (String × String)} {word body tail : List Char} {pos : Position}
  {nodes : List Node} {es es' : List Element}

/-! ## Pieces -/

theorem startTag_append (name : String) (att : Option (String × String)) (tail : List Char) :
    startTag name att ++ tail = '<' :: (name.toList ++ ((att.map writeAttribute).getD [] ++ '>' :: tail)) := by
  unfold startTag
  simp only [List.cons_append, List.append_assoc, List.nil_append]

theorem piece_startTag (hname : IsPlainName name) (h : ∀ a ∈ att, IsPlainAttribute a) (hrow : pos.row = 1) :
    piece [] ⟨startTag name att ++ tail, pos⟩ =
      .ok (.opening ⟨⟨"", name⟩, writtenTag name att, [], false⟩, ⟨tail, pos.after (startTag name att)⟩) := by
  obtain ⟨c, hhead, hstart⟩ := head?_of_plain hname ((att.map writeAttribute).getD [] ++ '>' :: tail)
  have hbang : c ≠ '!' := ne_of_isNameStart hstart (by decide)
  have hquestion : c ≠ '?' := ne_of_isNameStart hstart (by decide)
  have hslash : c ≠ '/' := ne_of_isNameStart hstart (by decide)
  have hrest : (name.toList ++ ((att.map writeAttribute).getD [] ++ '>' :: tail)).isEmpty = false := by
    simp
  rw [startTag_append]
  -- what begins a name begins none of the other kinds of markup, which are tried first
  show markup [] pos ⟨name.toList ++ ((att.map writeAttribute).getD [] ++ '>' :: tail), pos.after ['<']⟩ = _
  unfold markup
  rw [accept_else (isPrefixOf_eq_false rfl hhead hbang), accept_else (isPrefixOf_eq_false rfl hhead hbang),
    accept_else (isPrefixOf_eq_false rfl hhead hbang), accept_else (isPrefixOf_eq_false rfl hhead hquestion),
    accept_else (isPrefixOf_eq_false rfl hhead hslash), bind_of_ok rfl]
  simp only [hrest, hrow]
  rw [if_neg Bool.false_ne_true, bind_of_ok (opening_append hname h)]
  show Except.ok _ = Except.ok _
  unfold startTag
  simp only [Position.after_append, Position.after_cons, Position.after_nil]

theorem piece_endTag (hname : IsPlainName name) :
    piece [] ⟨endTag name ++ tail, pos⟩ = .ok (.closing ⟨"", name⟩ pos, ⟨tail, pos.after (endTag name)⟩) := by
  have hword : endTag name ++ tail = '<' :: '/' :: (name.toList ++ '>' :: tail) := by
    unfold endTag
    simp only [List.cons_append, List.append_assoc, List.nil_append]
  have haccept : accept "/" ⟨'/' :: (name.toList ++ '>' :: tail), pos.after ['<']⟩ =
      .ok (true, ⟨name.toList ++ '>' :: tail, (pos.after ['<']).after ['/']⟩) := accept_append "/"
  rw [hword]
  show markup [] pos ⟨'/' :: (name.toList ++ '>' :: tail), pos.after ['<']⟩ = _
  unfold markup
  rw [accept_else rfl, accept_else rfl, accept_else rfl, accept_else rfl, bind_of_ok haccept, if_pos rfl,
    bind_of_ok (endTag_append hname)]
  show Except.ok _ = Except.ok _
  unfold endTag
  simp only [Position.after_append, Position.after_cons, Position.after_nil]

theorem piece_refer {s : String} (hs : s ≠ "") (h : ∀ c ∈ s.toList, isLegal c) (scope : Scope) :
    piece scope ⟨refer s.toList ++ '<' :: tail, pos⟩ =
      .ok (.text s, ⟨'<' :: tail, pos.after (refer s.toList)⟩) := by
  obtain ⟨rest, hrest⟩ : ∃ rest, refer s.toList = '&' :: rest := by
    obtain ⟨c, cs, hword⟩ := List.exists_cons_of_ne_nil (l := s.toList) (by simpa using hs)
    rw [hword]
    exact ⟨_, rfl⟩
  rw [hrest]
  show (characters pos '&' >>= fun t => pure (Piece.text t)) ⟨rest ++ '<' :: tail, pos.after ['&']⟩ = _
  rw [bind_of_ok (characters_append h hrest pos)]
  rfl

/-! ## Content -/

theorem content_of_piece {o o' : Open} {p : Piece} {c d : Cursor} {scope : Scope} (hs : o.inner.scope = scope)
    (hp : piece scope c = .ok (p, d)) (ho : o.take p = .ok (.inl o')) : content o c = content o' d := by
  have hstep : contentStep o c = .ok (.inl o', d) := by
    unfold contentStep
    rw [hs, bind_of_ok hp]
    exact lift_of_ok ho
  exact repeatUntil_inl hstep

theorem content_of_last {o : Open} {p : Piece} {c d : Cursor} {r : RootEnd} {scope : Scope}
    (hs : o.inner.scope = scope) (hp : piece scope c = .ok (p, d)) (ho : o.take p = .ok (.inr r)) :
    content o c = .ok (r, d) := by
  have hstep : contentStep o c = .ok (.inr r, d) := by
    unfold contentStep
    rw [hs, bind_of_ok hp]
    exact lift_of_ok ho
  exact repeatUntil_inr hstep

/-- Up to the next tag, a word is read as the first nodes of an element. -/
structure Fills (word : List Char) (nodes : List Node) : Prop where
  oneLine : '\n' ∉ word
  read : ∀ (f : Frame) (outer : List Frame) (tail : List Char) (pos : Position), f.scope = [] → f.nodes = [] →
    pos.row = 1 → content ⟨f, outer⟩ ⟨word ++ '<' :: tail, pos⟩ =
      content ⟨{ f with nodes := nodes.reverse }, outer⟩ ⟨'<' :: tail, pos.after word⟩

/-- Between tags, a word is read as elements, whatever comes before it and after it. -/
structure Writes (word : List Char) (es : List Element) : Prop where
  oneLine : '\n' ∉ word
  read : ∀ (f : Frame) (outer : List Frame) (tail : List Char) (pos : Position), f.scope = [] →
    pos.row = 1 → content ⟨f, outer⟩ ⟨word ++ tail, pos⟩ =
      content ⟨{ f with nodes := (es.map Element.node).reverse ++ f.nodes }, outer⟩ ⟨tail, pos.after word⟩

/-- A word on one line ends in the row where it begins. -/
theorem row_after_of_not_mem (h : '\n' ∉ word) (pos : Position) : (pos.after word).row = pos.row := by
  rw [Position.row_after, List.count_eq_zero.2 h, Nat.add_zero]

theorem writes_nil : Writes [] [] where
  oneLine := List.not_mem_nil
  read _ _ _ _ _ _ := rfl

theorem Writes.append (h : Writes word es) (h' : Writes body es') : Writes (word ++ body) (es ++ es') where
  oneLine := fun hmem => (List.mem_append.1 hmem).elim h.oneLine h'.oneLine
  read := by
    intro f outer tail pos hscope hrow
    have hrow' : (pos.after word).row = 1 := (row_after_of_not_mem h.oneLine pos).trans hrow
    have hbody := h'.read { f with nodes := (es.map Element.node).reverse ++ f.nodes } outer tail _ hscope hrow'
    rw [List.append_assoc, h.read f outer _ pos hscope hrow, hbody, Position.after_append, List.map_append,
      List.reverse_append, List.append_assoc]

/-- **What is written one after the other is read one after the other.** -/
theorem writes_flatMap {xs : List α} {write : α → List Char} {element : α → List Element}
    (h : ∀ a ∈ xs, Writes (write a) (element a)) : Writes (xs.flatMap write) (xs.flatMap element) := by
  induction xs with
  | nil => exact writes_nil
  | cons a xs ih =>
    obtain ⟨ha, hxs⟩ := List.forall_mem_cons.1 h
    exact ha.append (ih hxs)

/-- Elements fill an element. -/
theorem Writes.fills (h : Writes word es) : Fills word (es.map Element.node) where
  oneLine := h.oneLine
  read := by
    intro f outer tail pos hscope hnodes hrow
    rw [h.read f outer _ pos hscope hrow, hnodes, List.append_nil]

/-- The nodes of an element that holds a text, none if the text is empty. -/
def textNodes (s : String) : List Node := if s = "" then [] else [.text s]

/-- A text fills an element. -/
theorem fills_refer {s : String} (h : ∀ c ∈ s.toList, isLegal c) : Fills (refer s.toList) (textNodes s) where
  oneLine := not_mem_refer (by decide) (by decide)
  read := by
    intro f outer tail pos hscope hnodes hrow
    unfold textNodes
    by_cases hs : s = ""
    · -- there is nothing to be read and no node
      subst hs
      rw [if_pos rfl]
      have hframe : { f with nodes := ([] : List Node).reverse } = f := by
        rw [List.reverse_nil, ← hnodes]
      rw [hframe]
      rfl
    · rw [if_neg hs]
      refine content_of_piece rfl (piece_refer hs h _) ?_
      unfold Open.take Open.push Frame.push
      rw [hnodes]
      rfl

/-! ## Elements -/

theorem not_mem_name (h : IsPlainName name) : '\n' ∉ name.toList := by
  intro hmem
  obtain ⟨hchar, -⟩ := h.2 _ hmem
  cases hchar

theorem not_mem_startTag (hname : IsPlainName name) (h : ∀ a ∈ att, IsPlainAttribute a) :
    '\n' ∉ startTag name att := by
  have hatt : '\n' ∉ (att.map writeAttribute).getD [] := by
    cases att with
    | none => exact List.not_mem_nil
    | some a =>
      have hvalue : '\n' ∉ refer a.2.toList := not_mem_refer (by decide) (by decide)
      simp [writeAttribute, not_mem_name (h a rfl).1, hvalue]
  simp [startTag, not_mem_name hname, hatt]

theorem not_mem_endTag (hname : IsPlainName name) : '\n' ∉ endTag name := by
  simp [endTag, not_mem_name hname]

theorem writeElement_append (name : String) (att : Option (String × String)) (body tail : List Char) :
    writeElement name att body ++ tail = startTag name att ++ (body ++ (endTag name ++ tail)) := by
  unfold writeElement
  simp only [List.append_assoc]

/-- An element that is filled is read up to its end tag. -/
theorem content_body (h : Fills body nodes) (tag : Tag) (outer : List Frame) (hrow : pos.row = 1) :
    content ⟨⟨⟨"", name⟩, tag, [], []⟩, outer⟩ ⟨body ++ (endTag name ++ tail), pos⟩ =
      content ⟨⟨⟨"", name⟩, tag, [], nodes.reverse⟩, outer⟩ ⟨endTag name ++ tail, pos.after body⟩ :=
  h.read _ outer _ pos rfl rfl hrow

/-- An end tag closes the element that it names, which is the root if no other is open. -/
theorem take_endTag (tag : Tag) (outer : List Frame) (start : Position) :
    Open.take ⟨⟨⟨"", name⟩, tag, [], nodes.reverse⟩, outer⟩ (.closing ⟨"", name⟩ start) =
      .ok (match outer with
        | [] => .inr (.closed ⟨tag, nodes⟩)
        | f :: outer => .inl ⟨{ f with nodes := .element tag nodes :: f.nodes }, outer⟩) := by
  unfold Open.take Open.close Frame.close
  simp only [if_true, List.reverse_reverse]
  cases outer <;> rfl

/-- **An element is written by writing what is in it.** -/
theorem writes_element (hname : IsPlainName name) (hatt : ∀ a ∈ att, IsPlainAttribute a) (h : Fills body nodes) :
    Writes (writeElement name att body) [⟨writtenTag name att, nodes⟩] where
  oneLine := by
    unfold writeElement
    simp only [List.mem_append, not_or]
    exact ⟨not_mem_startTag hname hatt, h.oneLine, not_mem_endTag hname⟩
  read := by
    intro f outer tail pos hscope hrow
    have hrow' : (pos.after (startTag name att)).row = 1 :=
      (row_after_of_not_mem (not_mem_startTag hname hatt) pos).trans hrow
    have hopen : Open.take ⟨f, outer⟩ (.opening ⟨⟨"", name⟩, writtenTag name att, [], false⟩) =
        .ok (.inl ⟨⟨⟨"", name⟩, writtenTag name att, [], []⟩, f :: outer⟩) := rfl
    have hread : content ⟨f, outer⟩ ⟨startTag name att ++ (body ++ (endTag name ++ tail)), pos⟩ =
        content ⟨{ f with nodes := .element (writtenTag name att) nodes :: f.nodes }, outer⟩
          ⟨tail, ((pos.after (startTag name att)).after body).after (endTag name)⟩ := by
      refine (content_of_piece hscope (piece_startTag hname hatt hrow) hopen).trans ?_
      refine (content_body h _ _ hrow').trans ?_
      exact content_of_piece rfl (piece_endTag hname) (take_endTag _ _ _)
    rw [writeElement_append, hread]
    unfold writeElement
    rw [Position.after_append, Position.after_append]
    rfl

/-! ## Documents -/

/-- What comes after `<` keeps longer words from being there. -/
theorem isPrefixOf_tag {word : String} {x w : Char} {ws rest : List Char} (hw : word.toList = '<' :: w :: ws)
    (h : rest.head? = some x) (hx : x ≠ w) : word.toList.isPrefixOf ('<' :: rest) = false := by
  rw [hw, List.isPrefixOf_cons_cons, isPrefixOf_eq_false rfl h hx, Bool.and_false]

/-- Nothing but the root comes next. -/
theorem around_tag {x : Char} {rest : List Char} (h : rest.head? = some x) (hbang : x ≠ '!') (hquestion : x ≠ '?') :
    around ⟨'<' :: rest, pos⟩ = .ok ((), ⟨'<' :: rest, pos⟩) := by
  refine repeatUntil_inr ?_
  unfold aroundStep
  rw [bind_of_ok (spaces_none rfl (by decide)), bind_of_ok rfl, accept_else (isPrefixOf_tag rfl h hbang),
    accept_else (isPrefixOf_tag rfl h hquestion)]
  rfl

/-- Nothing comes next. -/
theorem around_nil : around ⟨[], pos⟩ = .ok ((), ⟨[], pos⟩) := repeatUntil_inr rfl

/-- The root is closed by its own end tag. -/
theorem content_root (hname : IsPlainName name) (h : Fills body nodes) (tag : Tag) (hrow : pos.row = 1) :
    ∃ pos', content ⟨⟨⟨"", name⟩, tag, [], []⟩, []⟩ ⟨body ++ endTag name, pos⟩ =
      .ok (.closed ⟨tag, nodes⟩, ⟨[], pos'⟩) := by
  have hbody : content ⟨⟨⟨"", name⟩, tag, [], []⟩, []⟩ ⟨body ++ (endTag name ++ []), pos⟩ =
      content ⟨⟨⟨"", name⟩, tag, [], nodes.reverse⟩, []⟩ ⟨endTag name ++ [], pos.after body⟩ :=
    content_body h tag [] hrow
  have hclose : content ⟨⟨⟨"", name⟩, tag, [], nodes.reverse⟩, []⟩ ⟨endTag name ++ [], pos.after body⟩ =
      .ok (.closed ⟨tag, nodes⟩, ⟨[], (pos.after body).after (endTag name)⟩) :=
    content_of_last rfl (piece_endTag hname) (take_endTag tag [] (pos.after body))
  rw [List.append_nil] at hbody hclose
  exact ⟨_, hbody.trans hclose⟩

/-- A root that is filled is read to the end of the text. -/
theorem root_writeElement (hname : IsPlainName name) (hatt : ∀ a ∈ att, IsPlainAttribute a)
    (h : Fills body nodes) : ∃ pos, root ⟨writeElement name att body, {}⟩ =
      .ok (some (.closed ⟨writtenTag name att, nodes⟩), ⟨[], pos⟩) := by
  have hword : writeElement name att body =
      "<".toList ++ (name.toList ++ ((att.map writeAttribute).getD [] ++ '>' :: (body ++ endTag name))) :=
    startTag_append name att (body ++ endTag name)
  have hpos : (((Position.after {} "<".toList).after name.toList).after ((att.map writeAttribute).getD [])).after ['>'] =
      Position.after {} (startTag name att) := by
    show _ = Position.after {} ("<".toList ++ (name.toList ++ ((att.map writeAttribute).getD [] ++ ['>'])))
    simp only [Position.after_append]
  have hrow : (Position.after {} (startTag name att)).row = 1 :=
    row_after_of_not_mem (not_mem_startTag hname hatt) {}
  obtain ⟨pos, hcontent⟩ := content_root hname h (writtenTag name att) hrow
  refine ⟨pos, ?_⟩
  rw [hword]
  unfold root
  rw [bind_of_ok rfl, bind_of_ok (accept_append "<"), if_pos rfl, bind_of_ok (opening_append hname hatt), hpos]
  simp only [Bool.false_eq_true, if_false]
  show (content ⟨⟨⟨"", name⟩, writtenTag name att, [], []⟩, []⟩ >>= fun e => pure (some e)) _ = _
  rw [bind_of_ok hcontent]
  rfl

/-- **A document is written by writing its root.** -/
theorem ofString_writeElement (hname : IsPlainName name) (hatt : ∀ a ∈ att, IsPlainAttribute a)
    (h : Fills body nodes) :
    Element.ofString (String.ofList (writeElement name att body)) = .ok ⟨writtenTag name att, nodes⟩ := by
  obtain ⟨pos, hroot⟩ := root_writeElement hname hatt h
  obtain ⟨x, hhead, hstart⟩ :=
    head?_of_plain hname ((att.map writeAttribute).getD [] ++ '>' :: (body ++ endTag name))
  have hbang : x ≠ '!' := ne_of_isNameStart hstart (by decide)
  have hquestion : x ≠ '?' := ne_of_isNameStart hstart (by decide)
  have hdocument : document ⟨writeElement name att body, {}⟩ = .ok (⟨writtenTag name att, nodes⟩, ⟨[], pos⟩) := by
    unfold writeElement at hroot ⊢
    rw [startTag_append] at hroot ⊢
    unfold document
    -- no byte order mark, no declaration, nothing before the root and no document type
    rw [bind_of_ok (accept_none rfl), bind_of_ok (standsAt_none (isPrefixOf_tag rfl hhead hquestion))]
    simp only [Bool.false_eq_true, if_false]
    rw [bind_of_ok (around_tag hhead hbang hquestion), bind_of_ok (standsAt_none (isPrefixOf_tag rfl hhead hbang))]
    simp only [Bool.false_eq_true, if_false]
    rw [bind_of_ok hroot, bind_of_ok around_nil, bind_of_ok rfl]
    rfl
  unfold Element.ofString Cursor.ofString
  rw [String.toList_ofList, hdocument]
  rfl

end Vitae.Markup
