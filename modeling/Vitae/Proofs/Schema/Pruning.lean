import Vitae.Proofs.Markup.Edit
import Vitae.Proofs.Schema.Acceptance
import Vitae.Proofs.Schema.Outcome

/-!
# Pruning

A tree without the elements that mean nothing where they stand. It says the same as before, it
breaks no rule that was kept before, and there is nothing in it to report.

* `prune`: the tree that is left.
* `resumeOf_prune`: **what a tree says does not depend on what is pruned.**
* `findings_prune`: in a tree that conforms, once it is pruned, there is nothing to be found.
-/

namespace Vitae.Markup

/-- What becomes of a node of which only some elements are kept, each perhaps changed. -/
def Node.sift (keep : Element → Option Element) (node : Node) : Option Node :=
  match node.element? with
  | none => some node
  | some c => (keep c).map Element.node

/-- An element of which only some children are kept, each perhaps changed. -/
def Element.sift (keep : Element → Option Element) (e : Element) : Element :=
  { e with nodes := e.nodes.filterMap (Node.sift keep) }

theorem children_sift (keep : Element → Option Element) (e : Element) :
    (e.sift keep).children = e.children.filterMap keep := by
  unfold Element.sift Element.children
  rw [List.filterMap_filterMap, List.filterMap_filterMap]
  refine congrArg (List.filterMap · e.nodes) (funext fun node => ?_)
  unfold Node.sift
  cases hnode : node.element? with
  | none => exact hnode
  | some c =>
    simp only [Option.bind_some]
    cases keep c with
    | none => rfl
    | some c' => exact element?_eq_some.2 rfl

/-- An element of which all children are kept as they are is as it was. -/
theorem sift_eq_self {keep : Element → Option Element} {e : Element} (h : ∀ c ∈ e.children, keep c = some c) :
    e.sift keep = e := by
  have hnodes : e.nodes.filterMap (Node.sift keep) = e.nodes := by
    refine (List.filterMap_congr fun node hnode => ?_).trans List.filterMap_some
    unfold Node.sift
    cases hc : node.element? with
    | none => rfl
    | some c =>
      have hmem : c ∈ e.children := List.mem_filterMap.2 ⟨node, hnode, hc⟩
      simp only
      rw [h c hmem, Option.map_some, element?_eq_some.1 hc]
  unfold Element.sift
  rw [hnodes]

end Vitae.Markup

namespace Vitae.Schema

open Markup (Element Node Path children_sift)

/-- A child of an entry, if it means something there. -/
def keepInEntry (c : Element) : Option Element :=
  match EntryKind.ofName c.name with
  | .field _ | .list => some c
  | .unrecognized => none

/-- An entry without the children that mean nothing in it. -/
def pruneEntry (e : Element) : Element := e.sift keepInEntry

/-- A child of a section, pruned, if it means something there. -/
def keepInSection (c : Element) : Option Element :=
  match SectionKind.ofName c.name with
  | .list => some c
  | .entry => some (pruneEntry c)
  | .unrecognized => none

/-- A section without the children that mean nothing in it or in its entries. -/
def pruneSection (s : Element) : Element := s.sift keepInSection

/-- A child of the root, pruned, if it means something there. -/
def keepBelowRoot (c : Element) : Option Element :=
  match RootKind.ofName c.name with
  | .identity _ => some c
  | .part => some (pruneSection c)
  | .unrecognized => none

/-- A root without the elements that mean nothing below it, in its sections or in their entries. -/
def prune (root : Element) : Element := root.sift keepBelowRoot

variable {e s root c c' : Element} {es : List Element} {name : String}

/-! ## What is kept -/

theorem keepInEntry_eq_some : keepInEntry c = some c' ↔
    c' = c ∧ c.name ∈ ["organization", "location", "start_date", "date", "end_date", "list"] := by
  have hkind : EntryKind.ofName c.name = .unrecognized ↔
      c.name ∉ ["organization", "location", "start_date", "date", "end_date", "list"] :=
    EntryKind.ofName_eq_unrecognized
  unfold keepInEntry
  cases h : EntryKind.ofName c.name with
  | unrecognized =>
    have hname := hkind.1 h
    exact iff_of_false nofun fun hc => hname hc.2
  | _ =>
    have hname : c.name ∈ ["organization", "location", "start_date", "date", "end_date", "list"] := by
      by_contra hne
      rw [hkind.2 hne] at h
      cases h
    simp only [Option.some.injEq]
    exact ⟨fun hc => ⟨hc.symm, hname⟩, fun hc => hc.1.symm⟩

theorem keepInSection_eq_some : keepInSection c = some c' ↔
    c.name = "list" ∧ c' = c ∨ c.name = "entry" ∧ c' = pruneEntry c := by
  rw [← SectionKind.ofName_eq_list, ← SectionKind.ofName_eq_entry]
  unfold keepInSection
  cases SectionKind.ofName c.name <;> simp [eq_comm]

theorem keepBelowRoot_eq_some : keepBelowRoot c = some c' ↔
    (∃ f : IdentityField, c.name = f.label) ∧ c' = c ∨ c.name = "section" ∧ c' = pruneSection c := by
  rw [← RootKind.ofName_eq_part]
  simp only [← RootKind.ofName_eq_identity]
  unfold keepBelowRoot
  cases RootKind.ofName c.name <;> simp [eq_comm]

/-- Pruning changes no name. -/
def KeepsNames (keep : Element → Option Element) : Prop := ∀ c c', keep c = some c' → c'.name = c.name

theorem keepsNames_keepInEntry : KeepsNames keepInEntry := by
  intro c c' h
  rw [(keepInEntry_eq_some.1 h).1]

theorem keepsNames_keepInSection : KeepsNames keepInSection := by
  intro c c' h
  rcases keepInSection_eq_some.1 h with ⟨-, rfl⟩ | ⟨-, rfl⟩ <;> rfl

theorem keepsNames_keepBelowRoot : KeepsNames keepBelowRoot := by
  intro c c' h
  rcases keepBelowRoot_eq_some.1 h with ⟨-, rfl⟩ | ⟨-, rfl⟩ <;> rfl

section

variable {keep : Element → Option Element} {P : String → Bool}

/-- Elements are looked for by name, before or after pruning. -/
theorem filter_filterMap (hkeep : KeepsNames keep) (P : String → Bool) (es : List Element) :
    (es.filterMap keep).filter (P ·.name) = (es.filter (P ·.name)).filterMap keep := by
  rw [List.filter_filterMap, List.filterMap_filter]
  refine congrArg (List.filterMap · es) (funext fun c => ?_)
  cases hc : keep c with
  | none => simp
  | some c' => simp [hkeep c c' hc, Option.filter]

/-- Elements that are all kept as they are are found as they were. -/
theorem filter_kept (hkeep : KeepsNames keep) (h : ∀ c, P c.name → keep c = some c) (es : List Element) :
    (es.filterMap keep).filter (P ·.name) = es.filter (P ·.name) := by
  rw [filter_filterMap hkeep]
  refine (List.filterMap_congr fun c hc => ?_).trans List.filterMap_some
  exact h c (List.mem_filter.1 hc).2

theorem find?_kept (hkeep : KeepsNames keep) (h : ∀ c, P c.name → keep c = some c) (es : List Element) :
    (es.filterMap keep).find? (P ·.name) = es.find? (P ·.name) := by
  rw [← List.head?_filter, ← List.head?_filter, filter_kept hkeep h]

theorem lastText_kept {tags : List String} (hkeep : KeepsNames keep) (h : ∀ c, c.name ∈ tags → keep c = some c)
    (es : List Element) : lastText tags (es.filterMap keep) = lastText tags es := by
  have hfilter := filter_kept (P := fun name => name ∈ tags) hkeep (fun c hc => h c (of_decide_eq_true hc)) es
  unfold lastText
  rw [hfilter]

end

/-! ## What is said -/

theorem entryOf_pruneEntry (title : String) (e : Element) :
    entryOf title (pruneEntry e).children = entryOf title e.children := by
  have htext : ∀ tags, (∀ t ∈ tags, t ∈ ["organization", "location", "start_date", "date", "end_date", "list"]) →
      lastText tags (e.children.filterMap keepInEntry) = lastText tags e.children := by
    intro tags htags
    refine lastText_kept keepsNames_keepInEntry ?_ e.children
    intro c hc
    exact keepInEntry_eq_some.2 ⟨rfl, htags c.name hc⟩
  have hlist := find?_kept (P := fun name => name = "list") keepsNames_keepInEntry
    (fun c hc => keepInEntry_eq_some.2 ⟨rfl, by simp [of_decide_eq_true hc]⟩) e.children
  unfold pruneEntry entryOf
  rw [children_sift, htext _ (by decide), htext _ (by decide), htext _ (by decide), htext _ (by decide), hlist]

theorem sectionOf_pruneSection (s : Element) : sectionOf (pruneSection s) = sectionOf s := by
  have hlist := find?_kept (P := fun name => name = "list") keepsNames_keepInSection
    (fun c hc => keepInSection_eq_some.2 (Or.inl ⟨of_decide_eq_true hc, rfl⟩)) s.children
  have hentries : ((s.children.filterMap keepInSection).filter (·.name = "entry")).map
        (fun e => entryOf (titleOf e) e.children) =
      (s.children.filter (·.name = "entry")).map fun e => entryOf (titleOf e) e.children := by
    -- entries are not kept as they are but pruned, which changes nothing of what they say
    have hkept : ∀ c ∈ s.children.filter (·.name = "entry"), keepInSection c = some (pruneEntry c) := by
      intro c hc
      exact keepInSection_eq_some.2 (Or.inr ⟨by simpa using (List.mem_filter.1 hc).2, rfl⟩)
    rw [filter_filterMap keepsNames_keepInSection fun name => name = "entry", List.filterMap_congr hkept,
      List.filterMap_eq_map', List.map_map]
    exact List.map_congr_left fun e _ => entryOf_pruneEntry (titleOf e) e
  unfold sectionOf bodyOf
  rw [pruneSection, children_sift, hlist, hentries]
  rfl

/-- **What a tree says does not depend on what is pruned.** -/
theorem resumeOf_prune (root : Element) : resumeOf (prune root).children = resumeOf root.children := by
  have htext : ∀ (f : IdentityField) (tag : String), f.label = tag →
      lastText [tag] (root.children.filterMap keepBelowRoot) = lastText [tag] root.children := by
    rintro f _ rfl
    refine lastText_kept keepsNames_keepBelowRoot ?_ root.children
    intro c hc
    exact keepBelowRoot_eq_some.2 (Or.inl ⟨⟨f, List.mem_singleton.1 hc⟩, rfl⟩)
  have hsections : ((root.children.filterMap keepBelowRoot).filter (·.name = "section")).map sectionOf =
      (root.children.filter (·.name = "section")).map sectionOf := by
    have hkept : ∀ c ∈ root.children.filter (·.name = "section"), keepBelowRoot c = some (pruneSection c) := by
      intro c hc
      exact keepBelowRoot_eq_some.2 (Or.inr ⟨by simpa using (List.mem_filter.1 hc).2, rfl⟩)
    rw [filter_filterMap keepsNames_keepBelowRoot fun name => name = "section", List.filterMap_congr hkept,
      List.filterMap_eq_map', List.map_map]
    exact List.map_congr_left fun s _ => sectionOf_pruneSection s
  unfold resumeOf
  rw [prune, children_sift, hsections, htext .name "name" rfl, htext .address "address" rfl,
    htext .email "email" rfl, htext .phone "phone" rfl]

/-! ## What is left -/

theorem mem_pruneEntry (h : c ∈ (pruneEntry e).children) : c ∈ e.children ∧
    c.name ∈ ["organization", "location", "start_date", "date", "end_date", "list"] := by
  rw [pruneEntry, children_sift] at h
  obtain ⟨d, hd, hkeep⟩ := List.mem_filterMap.1 h
  obtain ⟨rfl, hname⟩ := keepInEntry_eq_some.1 hkeep
  exact ⟨hd, hname⟩

theorem mem_pruneSection (h : c ∈ (pruneSection s).children) :
    c.name = "list" ∧ c ∈ s.children ∨
      c.name = "entry" ∧ ∃ e ∈ s.children, e.name = "entry" ∧ c = pruneEntry e := by
  rw [pruneSection, children_sift] at h
  obtain ⟨d, hd, hkeep⟩ := List.mem_filterMap.1 h
  rcases keepInSection_eq_some.1 hkeep with ⟨hname, rfl⟩ | ⟨hname, rfl⟩
  · exact Or.inl ⟨hname, hd⟩
  · exact Or.inr ⟨hname, d, hd, hname, rfl⟩

theorem mem_prune (h : c ∈ (prune root).children) :
    (∃ f : IdentityField, c.name = f.label) ∨
      c.name = "section" ∧ ∃ s ∈ root.children, s.name = "section" ∧ c = pruneSection s := by
  rw [prune, children_sift] at h
  obtain ⟨d, hd, hkeep⟩ := List.mem_filterMap.1 h
  rcases keepBelowRoot_eq_some.1 hkeep with ⟨hname, rfl⟩ | ⟨hname, rfl⟩
  · exact Or.inl hname
  · exact Or.inr ⟨hname, d, hd, hname, rfl⟩

theorem mem_prune_section (h : c ∈ (prune root).children) (hname : c.name = "section") :
    ∃ s ∈ root.children, s.name = "section" ∧ c = pruneSection s := by
  rcases mem_prune h with ⟨f, hf⟩ | ⟨-, hs⟩
  · rw [hname] at hf
    cases f <;> exact absurd hf (by decide)
  · exact hs

theorem mem_pruneSection_entry (h : c ∈ (pruneSection s).children) (hname : c.name = "entry") :
    ∃ e ∈ s.children, e.name = "entry" ∧ c = pruneEntry e := by
  rcases mem_pruneSection h with ⟨hlist, -⟩ | ⟨-, he⟩
  · rw [hlist] at hname
    exact absurd hname (by decide)
  · exact he

theorem mem_pruneSection_list (h : c ∈ (pruneSection s).children) (hname : c.name = "list") : c ∈ s.children := by
  rcases mem_pruneSection h with ⟨-, hc⟩ | ⟨hentry, -⟩
  · exact hc
  · rw [hname] at hentry
    exact absurd hentry (by decide)

/-! ## Rules and findings -/

theorem EntryConforms.prune (h : EntryConforms e) : EntryConforms (pruneEntry e) := by
  have hlists : (pruneEntry e).children.filter (·.name = "list") = e.children.filter (·.name = "list") := by
    rw [pruneEntry, children_sift]
    refine filter_kept (P := fun name => name = "list") keepsNames_keepInEntry ?_ e.children
    intro l hl
    exact keepInEntry_eq_some.2 ⟨rfl, by simp [of_decide_eq_true hl]⟩
  refine ⟨h.titled, ?_, ?_⟩
  · rw [hlists]
    exact h.oneList
  · intro l hl hname
    exact h.lists l (mem_pruneEntry hl).1 hname

theorem SectionConforms.prune (h : SectionConforms s) : SectionConforms (pruneSection s) := by
  refine ⟨h.titled, ?_, ?_, ?_⟩
  · -- a list that stood alone still does: there was nothing beside it
    intro l hl hname
    have hkeep : keepInSection l = some l := keepInSection_eq_some.2 (Or.inl ⟨hname, rfl⟩)
    rw [pruneSection, children_sift, h.alone l (mem_pruneSection_list hl hname) hname,
      List.filterMap_cons_some hkeep, List.filterMap_nil]
  · intro c hc hname
    obtain ⟨e, he, heName, rfl⟩ := mem_pruneSection_entry hc hname
    exact (h.entries e he heName).prune
  · intro l hl hname
    exact h.lists l (mem_pruneSection_list hl hname) hname

theorem Conforms.prune (h : Conforms root) : Conforms (prune root) := by
  refine ⟨h.named, ?_⟩
  intro c hc hname
  obtain ⟨s, hs, hsName, rfl⟩ := mem_prune_section hc hname
  exact (h.sections s hs hsName).prune

/-- Nothing in a pruned tree is without a meaning where it stands. -/
theorem not_noted_prune {p : Path} : ¬ Noted (prune root) p c .unrecognized := by
  rw [noted_unrecognized_iff]
  rintro (⟨i, -, hc, hname⟩ | ⟨i, s', j, -, hs, hsName, hc, hname⟩ |
    ⟨i, s', j, e', k, -, hs, hsName, he, heName, hc, hname⟩)
  · rcases mem_prune (List.mem_of_getElem? hc) with ⟨f, hf⟩ | ⟨hsection, -⟩
    · rw [hf] at hname
      cases f <;> exact hname (by decide)
    · exact hname (by simp [hsection])
  · obtain ⟨s, -, -, rfl⟩ := mem_prune_section (List.mem_of_getElem? hs) hsName
    rcases mem_pruneSection (List.mem_of_getElem? hc) with ⟨hlist, -⟩ | ⟨hentry, -⟩
    · exact hname (by simp [hlist])
    · exact hname (by simp [hentry])
  · obtain ⟨s, -, -, rfl⟩ := mem_prune_section (List.mem_of_getElem? hs) hsName
    obtain ⟨e, -, -, rfl⟩ := mem_pruneSection_entry (List.mem_of_getElem? he) heName
    exact hname (mem_pruneEntry (List.mem_of_getElem? hc)).2

/-- **In a tree that conforms there is nothing to be found once it is pruned.** -/
theorem findings_prune (h : Conforms root) : findings (prune root) = [] := by
  have hrules := ((conforms_iff (prune root)).1 h.prune).2
  refine List.eq_nil_iff_forall_not_mem.2 ?_
  rintro ⟨p, c, n⟩ hf
  have hnote := mem_findings.1 hf
  cases n with
  | unrecognized => exact not_noted_prune hnote
  | breaks rule => exact hrules p c rule hnote

/-- A tree that conforms, once it is pruned, is read as what it said before, and nothing is logged. -/
theorem readResume_prune (h : Conforms root) : readResume (prune root) = pure (resumeOf root.children) := by
  have hname : (prune root).name = "resume" := h.named
  rw [readResume_eq, if_pos hname, findings_prune h, conclude_nil, resumeOf_prune]

end Vitae.Schema
