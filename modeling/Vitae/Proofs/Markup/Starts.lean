import Mathlib.Data.List.Forall2
import Vitae.Proofs.Markup.Path
import Vitae.Proofs.Markup.StartTag

/-!
# Where elements begin

Each element of a document has a `<` with which it begins. The line of the element counts the line
feeds before it, the name of the element is spelled after it, and an element that comes later in the
document begins later in the text.

* `Reached`: the elements that are open at a cursor, when a text is read up to it.
* `Begins`: the element that begins at an offset of a text.
* `Begins.at_offset`: **its line is one more than the line feeds before its `<`.**
* `Reached.begunBefore`: what a reading has passed has begun, in order.
* `exists_starts`: **the elements of a document begin in the order of their paths.**
* `line_le_of_lt`: so their lines never decrease.
-/

namespace Vitae.Markup

open Reader

/-! ## Reading a text -/

namespace Reader

variable {c d : Cursor}

/-- A loop whose rounds keep a property ends in a round that begins with it. -/
theorem repeatUntil_last {β σ : Type} {step : σ → Reader (σ ⊕ β)} {moves : ∀ s, Moves (·.isLeft) (step s)}
    {inv : σ → Cursor → Prop} (hstep : ∀ s c t d, inv s c → step s c = .ok (.inl t, d) → inv t d) {s : σ} {b : β}
    (hs : inv s c) (h : repeatUntil step moves s c = .ok (b, d)) :
    ∃ t c', inv t c' ∧ step t c' = .ok (.inr b, d) := by
  fun_induction repeatUntil step moves s c with
  | case1 => cases h
  | case2 s c b' d' hround =>
    cases h
    exact ⟨s, c, hs, hround⟩
  | case3 s c t d' hround ih => exact ih (hstep _ _ _ _ hs hround) h

theorem root_ok {root : Element} (h : Reader.root c = .ok (some (.closed root), d)) :
    ∃ o d', StartTag [] c o d' ∧ (o.selfClosing = true ∧ root = ⟨o.tag, []⟩ ∨
      o.selfClosing = false ∧ content { inner := o.frame } d' = .ok (.closed root, d)) := by
  unfold Reader.root at h
  obtain ⟨start, c₁, ⟨⟩, h⟩ := bind_eq_ok.1 h
  obtain ⟨b, c₂, hb, h⟩ := bind_eq_ok.1 h
  unfold accept at hb
  split at hb
  swap
  · cases hb
    cases h
  rename_i hprefix
  cases hb
  obtain ⟨o, c₃, ho, h⟩ := bind_eq_ok.1 h
  have hlt : c.rest.head? = some '<' := by
    obtain ⟨tail, htail⟩ := List.isPrefixOf_iff_prefix.1 hprefix
    rw [← htail]
    rfl
  cases o with
  | none => cases h
  | some o =>
    refine ⟨o, c₃, ⟨hlt, ho⟩, ?_⟩
    simp only at h
    split at h
    · rename_i hself
      cases h
      exact Or.inl ⟨hself, rfl⟩
    · rename_i hself
      obtain ⟨ending, c₄, hcontent, h⟩ := bind_eq_ok.1 h
      cases h
      exact Or.inr ⟨Bool.eq_false_iff.2 hself, hcontent⟩

theorem rootAndAfter_ok {root : Element} (h : rootAndAfter c = .ok (root, d)) :
    ∃ d', Reader.root c = .ok (some (.closed root), d') := by
  unfold rootAndAfter at h
  obtain ⟨found, c₁, hfound, h⟩ := bind_eq_ok.1 h
  obtain ⟨-, c₂, -, h⟩ := bind_eq_ok.1 h
  obtain ⟨b, c₃, -, h⟩ := bind_eq_ok.1 h
  cases b
  · cases h
  rcases found with _ | ending | _
  · cases h
  · cases h
    exact ⟨c₁, hfound⟩
  · cases h

end Reader

variable {text : String} {tags : List Tag} {tag : Tag} {c d : Cursor}

/-- The elements that are open at a cursor, when a text is read up to it. -/
inductive Reached (text : String) : Open → Cursor → Prop
  | root {o : Opening} {c d : Cursor} : prologue (Cursor.ofString text) = .ok ((), c) → StartTag [] c o d →
      o.selfClosing = false → Reached text { inner := o.frame } d
  | next {s t : Open} {c d : Cursor} : Reached text s c → contentStep s c = .ok (.inl t, d) → Reached text t d

/-- The tag of an element that begins at an offset of a text: of the root, or of an element in those
that are open there. -/
inductive Begins (text : String) : Tag → ℕ → Prop
  | root {o : Opening} {k : ℕ} {d : Cursor} :
      prologue (Cursor.ofString text) = .ok ((), (Cursor.ofString text).skip k) →
      StartTag [] ((Cursor.ofString text).skip k) o d → Begins text o.tag k
  | inside {s : Open} {o : Opening} {k : ℕ} {d : Cursor} : Reached text s ((Cursor.ofString text).skip k) →
      StartTag s.inner.scope ((Cursor.ofString text).skip k) o d → Begins text o.tag k

/-- What is read at an offset: a `<`, a name and the line of the `<`. -/
theorem StartTag.at_offset {scope : Scope} {o : Opening} {k : ℕ}
    (h : StartTag scope ((Cursor.ofString text).skip k) o d) :
    text.toList[k]? = some '<' ∧ o.tag.line = 1 + (text.toList.take k).count '\n' ∧
      ∃ name, QName.ofChars ((text.toList.drop (k + 1)).takeWhile isNameChar) = some name ∧
        name.localName = o.tag.name := by
  obtain ⟨hlt, hopening⟩ := h
  obtain ⟨hname, hlocal, hline⟩ := opening_ok hopening
  rw [Cursor.skip_skip] at hname
  refine ⟨?_, ?_, o.name, hname, hlocal.symm⟩
  · rw [← List.head?_drop]
    exact hlt
  · rw [hline]
    exact Position.row_after _ _

/-- **Where an element begins**: at a `<` after which its name is spelled, on a line that is one more
than the line feeds before it. -/
theorem Begins.at_offset {k : ℕ} (h : Begins text tag k) :
    text.toList[k]? = some '<' ∧ tag.line = 1 + (text.toList.take k).count '\n' ∧
      ∃ name, QName.ofChars ((text.toList.drop (k + 1)).takeWhile isNameChar) = some name ∧
        name.localName = tag.name := by
  cases h with
  | root _ hstart => exact hstart.at_offset
  | inside _ hstart => exact hstart.at_offset

/-- Elements begin before a cursor of a text, in the order of their tags. -/
def BegunBefore (text : String) (tags : List Tag) (c : Cursor) : Prop :=
  ∃ k starts, c = (Cursor.ofString text).skip k ∧ List.Forall₂ (Begins text) tags starts ∧
    starts.Pairwise (· < ·) ∧ ∀ j ∈ starts, j < k

theorem BegunBefore.skip (h : BegunBefore text tags c) (n : ℕ) : BegunBefore text tags (c.skip n) := by
  obtain ⟨k, starts, rfl, hstarts, hpairwise, hlt⟩ := h
  refine ⟨k + n, starts, Cursor.skip_skip _ _ _, hstarts, hpairwise, fun j hj => ?_⟩
  exact Nat.lt_add_right n (hlt j hj)

/-- One more element begins at the cursor. -/
theorem BegunBefore.concat (h : BegunBefore text tags c)
    (hbegins : ∀ k, c = (Cursor.ofString text).skip k → Begins text tag k) {n : ℕ} (hn : 0 < n) :
    BegunBefore text (tags ++ [tag]) (c.skip n) := by
  obtain ⟨k, starts, rfl, hstarts, hpairwise, hlt⟩ := h
  refine ⟨k + n, starts ++ [k], Cursor.skip_skip _ _ _, ?_, ?_, ?_⟩
  · exact List.rel_append hstarts (.cons (hbegins k rfl) .nil)
  · rw [List.pairwise_append]
    refine ⟨hpairwise, List.pairwise_singleton _ _, fun j hj k' hk' => ?_⟩
    rw [List.mem_singleton.1 hk']
    exact hlt j hj
  · intro j hj
    rcases List.mem_append.1 hj with hj | hj
    · exact Nat.lt_add_right n (hlt j hj)
    · rw [List.mem_singleton.1 hj]
      exact Nat.lt_add_of_pos_right hn

/-- A start tag is passed over. -/
theorem StartTag.skip {scope : Scope} {o : Opening} (h : StartTag scope c o d) : ∃ n, 0 < n ∧ d = c.skip n := by
  obtain ⟨n, -, hd, -⟩ := tracks_opening scope c.pos.row _ _ _ h.2
  rw [Cursor.skip_skip] at hd
  exact ⟨1 + n, by omega, hd⟩

theorem begunBefore_prologue (h : prologue (Cursor.ofString text) = .ok ((), c)) : BegunBefore text [] c := by
  obtain ⟨k, -, rfl, -⟩ := tracks_prologue _ _ _ h
  exact ⟨k, [], rfl, .nil, .nil, nofun⟩

/-- The root begins after the prologue. -/
theorem begunBefore_root {o : Opening} (h : prologue (Cursor.ofString text) = .ok ((), c))
    (hstart : StartTag [] c o d) : BegunBefore text [o.tag] d := by
  obtain ⟨n, hn, rfl⟩ := hstart.skip
  refine (begunBefore_prologue h).concat (fun k hk => ?_) hn
  subst hk
  exact .root h hstart

/-- **What one piece does**: the elements that have begun are those from before, and the one that
begins with the piece if it is a start tag. -/
theorem BegunBefore.next {s t : Open} (hreached : Reached text s c) (h : BegunBefore text s.tags c)
    (hstep : contentStep s c = .ok (.inl t, d)) : BegunBefore text t.tags d := by
  unfold contentStep at hstep
  obtain ⟨p, c₁, hpiece, hlift⟩ := bind_eq_ok.1 hstep
  obtain ⟨htake, rfl⟩ := lift_eq_ok hlift
  obtain ⟨n, -, rfl, -⟩ := moves_piece _ _ _ _ hpiece
  have htaken := piece_taken hpiece
  rw [Open.tags_take htake]
  -- a piece that is no start tag brings no element, so only the cursor moves on
  have hquiet : p.tags = [] → BegunBefore text (s.tags ++ p.tags) (c.skip n) := by
    intro hnil
    rw [hnil, List.append_nil]
    exact h.skip n
  cases p with
  | node x => exact hquiet (List.map_eq_nil_iff.2 htaken)
  | opening o =>
    obtain ⟨m, hm, hd⟩ := htaken.skip
    rw [hd]
    refine h.concat (fun k hk => ?_) hm
    subst hk
    exact .inside hreached htaken
  | text content => exact hquiet rfl
  | closing name start => exact hquiet rfl
  | nothing => exact hquiet rfl

/-- **What a reading up to a cursor has passed**: the elements so far begin before it, in order. -/
theorem Reached.begunBefore {s : Open} (h : Reached text s c) : BegunBefore text s.tags c := by
  induction h with
  | root hprologue hstart _ => exact begunBefore_root hprologue hstart
  | next hreached hstep ih => exact ih.next hreached hstep

/-- The content of a root closes it with the elements that were open. -/
theorem begunBefore_content {o : Opening} {root : Element} (h : Reached text { inner := o.frame } c)
    (hcontent : content { inner := o.frame } c = .ok (.closed root, d)) :
    ∃ c', BegunBefore text (root.subtree.map (·.tag)) c' := by
  obtain ⟨s, c', hreached, hstep⟩ := repeatUntil_last (fun _ _ _ _ hs hround => hs.next hround) h hcontent
  unfold contentStep at hstep
  obtain ⟨p, c₁, -, hlift⟩ := bind_eq_ok.1 hstep
  obtain ⟨htake, -⟩ := lift_eq_ok hlift
  refine ⟨c', ?_⟩
  rw [Open.tags_take_closed htake]
  exact hreached.begunBefore

/-- **The elements of a document begin in document order.** -/
theorem starts_of_ofString {root : Element} (h : Element.ofString text = .ok root) :
    ∃ starts, List.Forall₂ (Begins text) (root.subtree.map (·.tag)) starts ∧ starts.Pairwise (· < ·) := by
  unfold Element.ofString at h
  obtain ⟨⟨e, d⟩, hdocument, h⟩ := exists_of_bind_ok h
  cases h
  -- the prologue holds no element: the root is the first, and all others come with its content
  have hbegun : ∃ c, BegunBefore text (root.subtree.map (·.tag)) c := by
    rw [document_eq] at hdocument
    obtain ⟨⟨⟩, c, hprologue, hroot⟩ := bind_eq_ok.1 hdocument
    obtain ⟨d', hroot⟩ := rootAndAfter_ok hroot
    obtain ⟨o, d₁, hstart, ⟨-, rfl⟩ | ⟨hself, hcontent⟩⟩ := root_ok hroot
    · exact ⟨d₁, begunBefore_root hprologue hstart⟩
    · exact begunBefore_content (.root hprologue hstart hself) hcontent
  obtain ⟨c, k, starts, -, hstarts, hpairwise, -⟩ := hbegun
  exact ⟨starts, hstarts, hpairwise⟩

/-! ## Paths -/

/-- Offsets in the order of some paths are a function of the paths. -/
theorem exists_offsets {α : Type} {r : α → ℕ → Prop} {places : List (Path × α)} {starts : List ℕ}
    (h : List.Forall₂ (fun x k => r x.2 k) places starts) (hplaces : places.Pairwise fun x y => x.1 < y.1)
    (hstarts : starts.Pairwise (· < ·)) :
    ∃ start : Path → ℕ, (∀ x ∈ places, start x.1 ∈ starts ∧ r x.2 (start x.1)) ∧
      ∀ x ∈ places, ∀ y ∈ places, x.1 < y.1 → start x.1 < start y.1 := by
  induction h with
  | nil => exact ⟨fun _ => 0, nofun, nofun⟩
  | @cons x k places starts hx hrest ih =>
    obtain ⟨hxPlaces, hplaces⟩ := List.pairwise_cons.1 hplaces
    obtain ⟨hkStarts, hstarts⟩ := List.pairwise_cons.1 hstarts
    obtain ⟨start, hstart, hlt⟩ := ih hplaces hstarts
    -- the first path is none of the others, for it is before them
    have hself : Function.update start x.1 k x.1 = k := Function.update_self _ _ _
    have hother : ∀ y ∈ places, Function.update start x.1 k y.1 = start y.1 := by
      intro y hy
      refine Function.update_of_ne ?_ _ _
      intro heq
      exact absurd (hxPlaces y hy) (by rw [heq]; exact List.lt_irrefl _)
    refine ⟨Function.update start x.1 k, ?_, ?_⟩
    · rintro y (_ | ⟨_, hy⟩)
      · rw [hself]
        exact ⟨List.mem_cons_self, hx⟩
      · rw [hother y hy]
        exact ⟨List.mem_cons_of_mem _ (hstart y hy).1, (hstart y hy).2⟩
    · rintro y (_ | ⟨_, hy⟩) z (_ | ⟨_, hz⟩) hyz
      · exact absurd hyz (List.lt_irrefl _)
      · rw [hself, hother z hz]
        exact hkStarts _ (hstart z hz).1
      · exact absurd hyz (List.lt_asymm (hxPlaces y hy))
      · rw [hother y hy, hother z hz]
        exact hlt y hy z hz hyz

/-- **The elements of a document begin in the order of their paths.** -/
theorem exists_starts {root : Element} (h : Element.ofString text = .ok root) : ∃ start : Path → ℕ,
    (∀ p e, root.at? p = some e → Begins text e.tag (start p)) ∧
      ∀ p q, (root.at? p).isSome → (root.at? q).isSome → p < q → start p < start q := by
  obtain ⟨starts, hstarts, hpairwise⟩ := starts_of_ofString h
  rw [subtree_eq_places, List.map_map, List.forall₂_map_left_iff] at hstarts
  obtain ⟨start, hstart, hlt⟩ := exists_offsets (r := fun e k => Begins text e.tag k) hstarts (places_pairwise root) hpairwise
  refine ⟨start, fun p e hp => (hstart (p, e) (mem_places.2 hp)).2, fun p q hp hq hpq => ?_⟩
  obtain ⟨e, he⟩ := Option.isSome_iff_exists.1 hp
  obtain ⟨e', he'⟩ := Option.isSome_iff_exists.1 hq
  exact hlt (p, e) (mem_places.2 he) (q, e') (mem_places.2 he') hpq

/-! ## Lines -/

/-- An element of a text has a name and begins on a line, which is one more than the line feeds before
the `<` of the element. -/
def ElementOn (text name : String) (line : ℕ) : Prop :=
  ∃ root p e k, Element.ofString text = .ok root ∧ root.at? p = some e ∧ e.name = name ∧
    Begins text e.tag k ∧ text.toList[k]? = some '<' ∧
    (∃ spelled, QName.ofChars ((text.toList.drop (k + 1)).takeWhile isNameChar) = some spelled ∧
      spelled.localName = name) ∧
    line = 1 + (text.toList.take k).count '\n'

/-- A line on which an element begins is a line of the text. -/
theorem ElementOn.bounds {name : String} {line : ℕ} (h : ElementOn text name line) :
    1 ≤ line ∧ line ≤ 1 + text.toList.count '\n' := by
  obtain ⟨-, -, -, k, -, -, -, -, -, -, rfl⟩ := h
  exact ⟨Nat.le_add_right _ _, Nat.add_le_add_left ((List.take_sublist k _).count_le _) 1⟩

/-- The local name that is spelled by some characters is among them. -/
theorem QName.localName_subset {word : List Char} {name : QName} (h : QName.ofChars word = some name) :
    name.localName.toList ⊆ word := by
  unfold QName.ofChars at h
  simp only at h
  split at h
  · split at h
    · cases h
      rw [String.toList_ofList]
      exact (List.takeWhile_prefix _).subset
    · cases h
  · rename_i colon back hback
    have hall : colon :: back ⊆ word := by
      rw [← hback]
      exact (List.dropWhile_suffix _).subset
    split at h
    · cases h
      rw [String.toList_ofList]
      exact List.Subset.trans (List.subset_cons_self colon back) hall
    · cases h

/-- The name of an element is made of name characters. -/
theorem ElementOn.name_chars {name : String} {line : ℕ} (h : ElementOn text name line) :
    ∀ c ∈ name.toList, isNameChar c := by
  obtain ⟨-, -, -, k, -, -, -, -, -, ⟨spelled, hspelled, rfl⟩, -⟩ := h
  intro c hc
  exact List.all_eq_true.1 List.all_takeWhile c (QName.localName_subset hspelled hc)

section

variable {root e e' : Element} {p q : Path}

/-- **The line of an element is where it begins.** -/
theorem elementOn_of_at? (h : Element.ofString text = .ok root) (hp : root.at? p = some e) :
    ElementOn text e.name e.line := by
  obtain ⟨start, hstart, -⟩ := exists_starts h
  obtain ⟨hlt, hline, hname⟩ := (hstart p e hp).at_offset
  exact ⟨root, p, e, start p, h, hp, rfl, hstart p e hp, hlt, hname, hline⟩

/-- **Lines follow the document**: an element that comes later begins on no earlier line. -/
theorem line_le_of_lt (h : Element.ofString text = .ok root) (hp : root.at? p = some e)
    (hq : root.at? q = some e') (hpq : p < q) : e.line ≤ e'.line := by
  obtain ⟨start, hstart, hlt⟩ := exists_starts h
  have hoffset : start p < start q :=
    hlt p q (Option.isSome_of_eq_some hp) (Option.isSome_of_eq_some hq) hpq
  have htake : text.toList.take (start p) <+: text.toList.take (start q) :=
    List.take_prefix_take_left (Nat.le_of_lt hoffset)
  calc e.line = 1 + (text.toList.take (start p)).count '\n' := (hstart p e hp).at_offset.2.1
    _ ≤ 1 + (text.toList.take (start q)).count '\n' := Nat.add_le_add_left (htake.sublist.count_le _) 1
    _ = e'.line := (hstart q e' hq).at_offset.2.1.symm

end

end Vitae.Markup
