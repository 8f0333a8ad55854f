import Vitae.Proofs.Schema.Conclusion

/-!
# The readings of the four levels

Titles, items, lists, entries, sections and roots are read by concluding from what is found
in them: each level adds the findings of the levels below it, child by child.

* `readResume_eq`: **a root named `resume` is read by concluding from its findings.**
-/

namespace Vitae.Schema

open Markup (Element)

variable {β : Type}

/-! ## Titles and lists -/

theorem attribute?_eq (e : Element) :
    e.attribute? titleName = (e.tag.attributes.find? (·.localName = "title")).map (·.value) := rfl

theorem readTitle_eq (e : Element) :
    (MonadExcept.ofExcept (readTitle e) : Logged Error String) = conclude (titleOf e) (judgeTitle e) := by
  unfold readTitle judgeTitle titleOf
  rw [attribute?_eq]
  cases h : e.tag.attributes.find? (·.localName = "title") with
  | none =>
    have hno : ¬ Titled e := by simpa [Titled, List.find?_eq_none] using h
    rw [if_neg hno]
    rfl
  | some a =>
    have ha := List.find?_some h
    have hyes : Titled e := ⟨a, List.mem_of_find?_eq_some h, by simpa using ha⟩
    rw [if_pos hyes]
    rfl

theorem readItem_eq (c : Element) :
    (MonadExcept.ofExcept (readItem c) : Logged Error String) = conclude (c.text?.getD "") (judgeItem c) := by
  unfold readItem judgeItem
  cases hkind : ListKind.ofName c.name with
  | other =>
    have hname : c.name ≠ "item" := fun h => by
      rw [ListKind.ofName_eq_item.2 h] at hkind
      cases hkind
    rw [if_pos hname]
    rfl
  | item =>
    have hname : ¬ c.name ≠ "item" := not_not.2 (ListKind.ofName_eq_item.1 hkind)
    simp only
    rw [if_neg hname]
    split <;> rfl

theorem ofExcept_mapM (read : Element → Except Error β) (es : List Element) :
    (MonadExcept.ofExcept (es.mapM read) : Logged Error (List β)) =
      es.mapM fun c => MonadExcept.ofExcept (read c) := by
  induction es with
  | nil => rfl
  | cons c es ih =>
    rw [List.mapM_cons, List.mapM_cons, ← ih]
    cases read c with
    | error e => rfl
    | ok b => cases es.mapM read <;> rfl

theorem readList_eq (l : Element) :
    (MonadExcept.ofExcept (readList l) : Logged Error (List String)) = conclude (itemsOf l) (judgeList l) := by
  unfold readList
  rw [ofExcept_mapM]
  exact mapM_eq_conclude fun c _ => readItem_eq c

theorem lastText_concat (tags : List String) (es : List Element) (c : Element) :
    lastText tags (es ++ [c]) = if c.name ∈ tags then c.text? else lastText tags es := by
  unfold lastText
  rw [List.filter_append]
  split <;> simp_all

/-- One more field overwrites what was there. -/
theorem entryOf_concat_field {title : String} {es : List Element} {c : Element} {f : EntryField}
    (hname : c.name ∈ f.tags) : entryOf title (es ++ [c]) = (entryOf title es).setField c.text? f := by
  unfold entryOf
  simp only [lastText_concat, List.find?_append]
  cases f with
  | startDate =>
    rcases (by simpa [EntryField.tags] using hname : c.name = "start_date" ∨ c.name = "date") with h | h <;>
      simp [h, Entry.setField]
  | _ => simp_all [EntryField.tags, Entry.setField]

/-- The first list is the list of an entry. -/
theorem entryOf_concat_list {title : String} {es : List Element} {c : Element} (hname : c.name = "list")
    (hnone : es.find? (·.name = "list") = none) :
    entryOf title (es ++ [c]) = { entryOf title es with items := some (itemsOf c) } := by
  unfold entryOf
  simp only [lastText_concat, List.find?_append]
  simp [hname, hnone]

theorem entryOf_concat_unrecognized {title : String} {es : List Element} {c : Element}
    (hname : c.name ∉ ["organization", "location", "start_date", "date", "end_date", "list"]) :
    entryOf title (es ++ [c]) = entryOf title es := by
  unfold entryOf
  simp only [lastText_concat, List.find?_append]
  simp only [List.mem_cons, List.not_mem_nil, or_false, not_or] at hname
  simp [hname]

theorem readEntryChild_eq (title : String) (before : List Element) (c : Element) :
    readEntryChild (entryOf title before) c =
      conclude (entryOf title (before ++ [c])) (judgeEntryChild before c) := by
  unfold readEntryChild judgeEntryChild
  cases hkind : EntryKind.ofName c.name with
  | field f =>
    rw [entryOf_concat_field (EntryKind.ofName_eq_field.1 hkind)]
    rfl
  | list =>
    have hname := EntryKind.ofName_eq_list.1 hkind
    have hany : before.any (·.name = "list") = (before.find? (·.name = "list")).isSome := by
      rw [List.isSome_find?]
    simp only
    rw [hany]
    cases hfirst : before.find? (·.name = "list") with
    | some first =>
      have hset : (entryOf title before).items.isSome := by simp [entryOf, hfirst]
      rw [if_pos hset]
      rfl
    | none =>
      have hunset : ¬ (entryOf title before).items.isSome := by simp [entryOf, hfirst]
      rw [if_neg hunset, entryOf_concat_list hname hfirst, readList_eq]
      exact conclude_bind_pure _ _ _
  | unrecognized =>
    rw [entryOf_concat_unrecognized (EntryKind.ofName_eq_unrecognized.1 hkind)]
    rfl

/-- **An entry is read by concluding from what is found in it.** -/
theorem readEntry_eq (e : Element) :
    readEntry e = conclude (entryOf (titleOf e) e.children) (judgeEntry e) := by
  have hchildren : e.children.foldlM readEntryChild (entryOf (titleOf e) []) =
      conclude (entryOf (titleOf e) e.children)
        (overChildren (fun i => judgeEntryChild (e.children.take i)) e.children) := by
    refine foldlM_eq_conclude ?_
    intro before c after hes
    rw [hes, List.take_left]
    exact readEntryChild_eq _ before c
  unfold readEntry judgeEntry
  rw [readTitle_eq]
  exact conclude_bind _ _ hchildren

/-- A child of a section that is no list or not the only one: a list may not stand there. -/
theorem readSectionChild_eq {n : ℕ} {c : Element} (h : c.name = "list" → n ≠ 1) :
    readSectionChild c =
      conclude (if c.name = "entry" then some (entryOf (titleOf c) c.children) else none)
        (judgeSectionChild n c) := by
  unfold readSectionChild judgeSectionChild
  cases hkind : SectionKind.ofName c.name with
  | list =>
    simp only
    rw [if_neg (h (SectionKind.ofName_eq_list.1 hkind))]
    rfl
  | entry =>
    simp only
    rw [readEntry_eq, if_pos (SectionKind.ofName_eq_entry.1 hkind)]
    exact conclude_bind_pure _ _ _
  | unrecognized =>
    have hname := SectionKind.ofName_eq_unrecognized.1 hkind
    have hentry : c.name ≠ "entry" := fun h => hname (by simp [h])
    rw [if_neg hentry]
    rfl

/-- The only child of a section may be a list. -/
theorem readBody_single (e : Element) :
    readBody [e] = conclude (bodyOf [e]) (overChildren (fun _ => judgeSectionChild 1) [e]) := by
  have hover : overChildren (fun _ => judgeSectionChild 1) [e] = (judgeSectionChild 1 e).map (.under 0) := by
    simp [overChildren]
  rw [hover, conclude_map_under]
  unfold readBody bodyOf
  by_cases hlist : e.name = "list"
  · have hfind : [e].find? (·.name = "list") = some e := by simp [hlist]
    have hkind := SectionKind.ofName_eq_list.2 hlist
    simp only
    rw [if_pos hkind, hfind, readList_eq]
    unfold judgeSectionChild
    rw [hkind]
    exact conclude_bind_pure _ _ _
  · have hfind : [e].find? (·.name = "list") = none := by simp [hlist]
    have hkind : ¬ SectionKind.ofName e.name = .list := fun h => hlist (SectionKind.ofName_eq_list.1 h)
    simp only
    rw [if_neg hkind, hfind, readSectionChild_eq (n := 1) fun h => absurd h hlist]
    refine (conclude_bind_pure _ _ _).trans ?_
    by_cases hentry : e.name = "entry"
    · simp [hentry]
    · simp [hentry]

/-- The entries among some children of a section. -/
theorem filterMap_entry (es : List Element) :
    (es.map fun c => if c.name = "entry" then some (entryOf (titleOf c) c.children) else none).filterMap id =
      (es.filter (·.name = "entry")).map fun c => entryOf (titleOf c) c.children := by
  rw [List.filterMap_map, ← List.filterMap_eq_map, List.filterMap_filter]
  simp

theorem readBody_eq (es : List Element) :
    readBody es = conclude (bodyOf es) (overChildren (fun _ => judgeSectionChild es.length) es) := by
  by_cases hone : ∃ e, es = [e]
  · obtain ⟨e, rfl⟩ := hone
    exact readBody_single e
  have hlength : es.length ≠ 1 := fun h => hone (List.length_eq_one_iff.1 h)
  have hbody : readBody es = do return .entries ((← es.mapM readSectionChild).filterMap id) := by
    unfold readBody
    split
    · exact absurd ⟨_, rfl⟩ hone
    · rfl
  rw [hbody, mapM_eq_conclude fun c _ => readSectionChild_eq fun _ => hlength]
  refine (conclude_bind_pure _ _ _).trans ?_
  rw [filterMap_entry]
  unfold bodyOf
  cases hfind : es.find? (·.name = "list") with
  | none => rfl
  | some l =>
    -- the list is not alone, so no body is given
    obtain ⟨i, hi⟩ := List.mem_iff_getElem?.1 (List.mem_of_find?_eq_some hfind)
    have hname : l.name = "list" := by simpa using List.find?_some hfind
    have hchild : Finding.on l (.breaks .listNotAlone) ∈ judgeSectionChild es.length l :=
      mem_judgeSectionChild.2 (Or.inl ⟨hname, hlength, rfl, rfl, rfl⟩)
    have hf : (Finding.on l (.breaks .listNotAlone)).under i ∈
        overChildren (fun _ => judgeSectionChild es.length) es :=
      mem_overChildren.2 ⟨i, l, _, hi, hchild, rfl⟩
    exact conclude_of_breaks _ _ hf rfl

theorem readSection_eq (s : Element) : readSection s = conclude (sectionOf s) (judgeSection s) := by
  unfold readSection judgeSection
  rw [readTitle_eq]
  refine conclude_bind _ _ ?_
  rw [readBody_eq]
  exact conclude_bind_pure _ _ _

/-- One more identity field overwrites what was there. -/
theorem resumeOf_concat_identity {es : List Element} {c : Element} {f : IdentityField}
    (hname : c.name = f.label) : resumeOf (es ++ [c]) = (resumeOf es).setField c.text? f := by
  unfold resumeOf
  simp only [lastText_concat, List.filter_append]
  cases f <;> simp_all [IdentityField.label, Resume.setField]

theorem resumeOf_concat_section {es : List Element} {c : Element} (hname : c.name = "section") :
    resumeOf (es ++ [c]) = { resumeOf es with sections := (resumeOf es).sections ++ [sectionOf c] } := by
  unfold resumeOf
  simp only [lastText_concat, List.filter_append]
  simp [hname]

theorem resumeOf_concat_unrecognized {es : List Element} {c : Element}
    (hname : c.name ∉ ["name", "address", "email", "phone", "section"]) :
    resumeOf (es ++ [c]) = resumeOf es := by
  unfold resumeOf
  simp only [lastText_concat, List.filter_append]
  simp only [List.mem_cons, List.not_mem_nil, or_false, not_or] at hname
  simp [hname]

theorem readRootChild_eq (before : List Element) (c : Element) :
    readRootChild (resumeOf before) c = conclude (resumeOf (before ++ [c])) (judgeRootChild c) := by
  unfold readRootChild judgeRootChild
  cases hkind : RootKind.ofName c.name with
  | identity f =>
    rw [resumeOf_concat_identity (RootKind.ofName_eq_identity.1 hkind)]
    rfl
  | part =>
    rw [resumeOf_concat_section (RootKind.ofName_eq_part.1 hkind)]
    simp only
    rw [readSection_eq]
    exact conclude_bind_pure _ _ _
  | unrecognized =>
    rw [resumeOf_concat_unrecognized (RootKind.ofName_eq_unrecognized.1 hkind)]
    rfl

/-- **A root named `resume` is read by concluding from what is found below it**; any other is
refused at once. -/
theorem readResume_eq (root : Element) :
    readResume root =
      if root.name = "resume" then conclude (resumeOf root.children) (findings root)
      else throw .wrongRoot := by
  have hchildren : root.children.foldlM readRootChild (resumeOf []) =
      conclude (resumeOf root.children) (findings root) :=
    foldlM_eq_conclude fun before c _ _ => readRootChild_eq before c
  unfold readResume rootName
  split
  · exact hchildren
  · rfl

end Vitae.Schema
