import Mathlib.Data.List.Nodup
import Vitae.Proofs.Loading
import Vitae.Proofs.Resume.Markup
import Vitae.Proofs.Schema.Pruning

/-!
# What the tree of a résumé says

The tree that the markup of a résumé is read as says what the résumé does, and nothing else is in it.

* `resumeOf_tree`: **the tree says what the résumé does.**
* `prune_tree`, `conforms_tree`: all its elements mean something and keep the rules.
* `parse_markup`: **every résumé can be written down.**
-/

namespace Vitae

open Markup (Element Node element?_eq_some fieldElements leaf listElement sift_eq_self textNodes writtenTag)
open Schema

variable {tag s : String} {items : List String} {c : Element} {fields : List (String × Option String)}

/-! ## Leaves and fields -/

theorem children_tree (tag : Markup.Tag) (es : List Element) : Element.children ⟨tag, es.map Element.node⟩ = es := by
  have hnode : ∀ e : Element, e.node.element? = some e := fun e => element?_eq_some.2 rfl
  unfold Element.children
  rw [List.filterMap_map]
  exact (List.filterMap_congr fun e _ => hnode e).trans List.filterMap_some

theorem text?_leaf (hs : s ≠ "") : (leaf tag s).text? = some s := by
  unfold leaf textNodes
  rw [if_neg hs]
  rfl

theorem textD_leaf (tag s : String) : (leaf tag s).text?.getD "" = s := by
  by_cases hs : s = ""
  · subst hs
    rfl
  · rw [text?_leaf hs, Option.getD_some]

theorem children_leaf (tag s : String) : (leaf tag s).children = [] := by
  unfold leaf textNodes
  split <;> rfl

theorem mem_fieldElements : c ∈ fieldElements fields ↔ ∃ f ∈ fields, ∃ s, f.2 = some s ∧ c = leaf f.1 s := by
  unfold fieldElements
  rw [List.mem_flatMap]
  simp only [List.mem_map, Option.mem_toList, eq_comm]

theorem itemsOf_listElement (items : List String) : itemsOf (listElement items) = items := by
  unfold itemsOf listElement
  rw [children_tree, List.map_map]
  exact (List.map_congr_left fun s _ => textD_leaf "item" s).trans (List.map_id _)

/-- The elements of fields are looked for by the tags of the fields. -/
theorem filter_fieldElements (P : String → Bool) (fields : List (String × Option String)) :
    (fieldElements fields).filter (P ·.name) = fieldElements (fields.filter (P ·.1)) := by
  induction fields with
  | nil => rfl
  | cons f fields ih =>
    have hname : ∀ c ∈ f.2.toList.map (leaf f.1), c.name = f.1 := by
      intro c hc
      obtain ⟨s, -, rfl⟩ := List.mem_map.1 hc
      rfl
    have hcons : ∀ fields, fieldElements (f :: fields) = f.2.toList.map (leaf f.1) ++ fieldElements fields :=
      fun fields => List.flatMap_cons
    rw [hcons, List.filter_append, ih]
    -- the element of a field, if there is one, has the field's tag, so it is kept as the field is
    by_cases hf : P f.1
    · have hown : (f.2.toList.map (leaf f.1)).filter (P ·.name) = f.2.toList.map (leaf f.1) := by
        rw [List.filter_eq_self]
        intro c hc
        rw [hname c hc, hf]
      rw [hown, List.filter_cons, if_pos hf, hcons]
    · have hown : (f.2.toList.map (leaf f.1)).filter (P ·.name) = [] := by
        rw [List.filter_eq_nil_iff]
        intro c hc
        rwa [hname c hc]
      rw [hown, List.filter_cons, if_neg hf, List.nil_append]

/-- Fields do not have other tags than their own. -/
theorem filter_fieldElements_eq_nil {F : Type} {fs : List F} {label : F → String} {value : F → Option String}
    {name : String} (h : ∀ f, label f ≠ name) :
    (fieldElements (fs.map fun f => (label f, value f))).filter (·.name = name) = [] := by
  rw [filter_fieldElements fun tag => tag = name, List.filter_map, List.filter_eq_nil_iff.2 fun f _ => by simpa using h f]
  rfl

/-- A field is read back from among the others, whatever comes after them. -/
theorem lastText_fields {F : Type} [DecidableEq F] {fs : List F} {label : F → String} {value : F → Option String}
    {tags : List String} {f : F} {more : List Element} (hf : f ∈ fs) (hnodup : fs.Nodup)
    (htags : ∀ g, label g ∈ tags ↔ g = f) (hmore : ∀ c ∈ more, c.name ∉ tags)
    (hvalue : ∀ s, value f = some s → s ≠ "") :
    lastText tags (fieldElements (fs.map fun g => (label g, value g)) ++ more) = value f := by
  -- of all that is there only the element of the field itself has one of its tags
  have hown : fs.filter (fun g => label g ∈ tags) = [f] := by
    simp only [htags]
    rw [List.filter_eq, List.count_eq_one_of_mem hnodup hf]
    rfl
  have hfields : (fieldElements (fs.map fun g => (label g, value g))).filter (·.name ∈ tags) =
      fieldElements [(label f, value f)] := by
    rw [filter_fieldElements fun tag => tag ∈ tags, List.filter_map]
    exact congrArg (fun gs => fieldElements (gs.map fun g => (label g, value g))) hown
  have hnone : more.filter (·.name ∈ tags) = [] := by
    rw [List.filter_eq_nil_iff]
    intro c hc
    simpa using hmore c hc
  unfold lastText
  rw [List.filter_append, hfields, hnone, List.append_nil]
  cases hs : value f with
  | none => rfl
  | some s => exact text?_leaf (hvalue s hs)

theorem tag_mem_tags (f g : EntryField) : g.tag ∈ f.tags ↔ g = f := by
  cases f <;> cases g <;> decide

theorem tag_ne_list (f : EntryField) : f.tag ≠ "list" := by
  cases f <;> decide

theorem label_mem (f g : IdentityField) : g.label ∈ [f.label] ↔ g = f := by
  cases f <;> cases g <;> decide

theorem label_ne_section (f : IdentityField) : f.label ≠ "section" := by
  cases f <;> decide

/-! ## Entries, sections and the root -/

namespace Entry

variable {e : Entry}

/-- What is in an entry: its fields, and its list if it has one. -/
theorem mem_elements : c ∈ e.elements ↔
    (∃ f s, e.field f = some s ∧ c = leaf f.tag s) ∨ ∃ items, e.items = some items ∧ c = listElement items := by
  unfold elements fields
  rw [List.mem_append, mem_fieldElements]
  constructor
  · rintro (⟨x, hx, s, hs, rfl⟩ | hc)
    · obtain ⟨f, -, rfl⟩ := List.mem_map.1 hx
      exact Or.inl ⟨f, s, hs, rfl⟩
    · obtain ⟨items, hitems, rfl⟩ := List.mem_map.1 hc
      exact Or.inr ⟨items, Option.mem_toList.1 hitems, rfl⟩
  · rintro (⟨f, s, hs, rfl⟩ | ⟨items, hitems, rfl⟩)
    · refine Or.inl ⟨_, List.mem_map.2 ⟨f, ?_, rfl⟩, s, hs, rfl⟩
      cases f <;> decide
    · exact Or.inr (List.mem_map.2 ⟨items, Option.mem_toList.2 hitems, rfl⟩)

theorem name_tree_ne (e : Entry) : e.tree.name ≠ "list" := by
  show "entry" ≠ "list"
  decide

theorem filter_list (e : Entry) : e.elements.filter (·.name = "list") = e.items.toList.map listElement := by
  have hfields : (fieldElements e.fields).filter (·.name = "list") = [] := filter_fieldElements_eq_nil tag_ne_list
  have hitems : (e.items.toList.map listElement).filter (·.name = "list") = e.items.toList.map listElement := by
    rw [List.filter_eq_self]
    intro c hc
    obtain ⟨items, -, rfl⟩ := List.mem_map.1 hc
    rfl
  unfold elements
  rw [List.filter_append, hfields, hitems, List.nil_append]

theorem find?_list (e : Entry) : e.elements.find? (·.name = "list") = e.items.map listElement := by
  rw [← List.head?_filter, filter_list, List.head?_map]
  cases e.items <;> rfl

theorem lastText_elements (h : e.Writable) (f : EntryField) : lastText f.tags e.elements = e.field f := by
  have hlist : "list" ∉ f.tags := by cases f <;> decide
  refine lastText_fields ?_ (by decide) (tag_mem_tags f) ?_ fun s hs => (h.fields f s hs).2
  · cases f <;> decide
  · intro c hc
    obtain ⟨items, -, rfl⟩ := List.mem_map.1 hc
    exact hlist

theorem entryOf_tree (h : e.Writable) : entryOf (titleOf e.tree) e.tree.children = e := by
  have hitems : (e.items.map listElement).map itemsOf = e.items := by
    cases e.items with
    | none => rfl
    | some items => exact congrArg some (itemsOf_listElement items)
  have hchildren : e.tree.children = e.elements := children_tree _ _
  have horganization : lastText ["organization"] e.elements = e.organization := lastText_elements h .organization
  have hlocation : lastText ["location"] e.elements = e.location := lastText_elements h .location
  have hstart : lastText ["start_date", "date"] e.elements = e.startDate := lastText_elements h .startDate
  have hend : lastText ["end_date"] e.elements = e.endDate := lastText_elements h .endDate
  unfold entryOf
  rw [hchildren, horganization, hlocation, hstart, hend, find?_list, hitems]
  rfl

end Entry

namespace Section

variable {part : Section}

theorem bodyOf_run {run : List Entry} (h : ∀ e ∈ run, e.Writable) : bodyOf (run.map Entry.tree) = .entries run := by
  have hlist : (run.map Entry.tree).find? (·.name = "list") = none := by
    rw [List.find?_eq_none]
    intro c hc
    obtain ⟨e, -, rfl⟩ := List.mem_map.1 hc
    rw [decide_eq_true_eq]
    exact Entry.name_tree_ne e
  have hentries : (run.map Entry.tree).filter (·.name = "entry") = run.map Entry.tree := by
    rw [List.filter_eq_self]
    intro c hc
    obtain ⟨e, -, rfl⟩ := List.mem_map.1 hc
    rfl
  have hread : (run.map Entry.tree).map (fun e => entryOf (titleOf e) e.children) = run := by
    rw [List.map_map]
    exact (List.map_congr_left fun e he => Entry.entryOf_tree (h e he)).trans (List.map_id _)
  unfold bodyOf
  rw [hlist]
  simp only
  rw [hentries, hread]

theorem sectionOf_tree (h : part.Writable) : sectionOf part.tree = part := by
  have hchildren : part.tree.children = part.body.elements := children_tree _ _
  have hbody : bodyOf part.body.elements = part.body := by
    have hwritable := h.body
    cases hs : part.body with
    | list items => exact congrArg SectionBody.list (itemsOf_listElement items)
    | entries run =>
      rw [hs] at hwritable
      exact bodyOf_run hwritable
  unfold sectionOf
  rw [hchildren, hbody]
  rfl

end Section

namespace Resume

variable {r : Resume}

theorem mem_elements : c ∈ r.elements ↔
    (∃ f s, r.field f = some s ∧ c = leaf f.label s) ∨ ∃ part ∈ r.sections, c = part.tree := by
  unfold elements fields
  rw [List.mem_append, mem_fieldElements]
  constructor
  · rintro (⟨x, hx, s, hs, rfl⟩ | hc)
    · obtain ⟨f, -, rfl⟩ := List.mem_map.1 hx
      exact Or.inl ⟨f, s, hs, rfl⟩
    · obtain ⟨part, hpart, rfl⟩ := List.mem_map.1 hc
      exact Or.inr ⟨part, hpart, rfl⟩
  · rintro (⟨f, s, hs, rfl⟩ | ⟨part, hpart, rfl⟩)
    · refine Or.inl ⟨_, List.mem_map.2 ⟨f, ?_, rfl⟩, s, hs, rfl⟩
      cases f <;> decide
    · exact Or.inr (List.mem_map.2 ⟨part, hpart, rfl⟩)

theorem lastText_elements (h : r.Writable) (f : IdentityField) : lastText [f.label] r.elements = r.field f := by
  refine lastText_fields ?_ (by decide) (label_mem f) ?_ fun s hs => (h.fields f s hs).2
  · cases f <;> decide
  · intro c hc
    obtain ⟨part, -, rfl⟩ := List.mem_map.1 hc
    exact fun hname => label_ne_section f (List.mem_singleton.1 hname).symm

theorem filter_section (r : Resume) : r.elements.filter (·.name = "section") = r.sections.map Section.tree := by
  have hfields : (fieldElements r.fields).filter (·.name = "section") = [] :=
    filter_fieldElements_eq_nil label_ne_section
  have hsections : (r.sections.map Section.tree).filter (·.name = "section") = r.sections.map Section.tree := by
    rw [List.filter_eq_self]
    intro c hc
    obtain ⟨part, -, rfl⟩ := List.mem_map.1 hc
    rfl
  unfold elements
  rw [List.filter_append, hfields, hsections, List.nil_append]

/-- **The tree of a résumé says what the résumé does.** -/
theorem resumeOf_tree (h : r.Writable) : resumeOf r.tree.children = r := by
  have hchildren : r.tree.children = r.elements := children_tree _ _
  have hname : lastText ["name"] r.elements = r.name := lastText_elements h .name
  have haddress : lastText ["address"] r.elements = r.address := lastText_elements h .address
  have hemail : lastText ["email"] r.elements = r.email := lastText_elements h .email
  have hphone : lastText ["phone"] r.elements = r.phone := lastText_elements h .phone
  have hsections : (r.sections.map Section.tree).map sectionOf = r.sections := by
    rw [List.map_map]
    exact (List.map_congr_left fun part hpart => Section.sectionOf_tree (h.sections part hpart)).trans (List.map_id _)
  unfold resumeOf
  rw [hchildren, hname, haddress, hemail, hphone, filter_section, hsections]

end Resume

/-! ## And nothing else -/

theorem titled_writtenTag (tag title : String) (nodes : List Node) :
    Titled ⟨writtenTag tag (some ("title", title)), nodes⟩ :=
  ⟨_, List.mem_singleton.2 rfl, rfl⟩

theorem listConforms_listElement (items : List String) : ListConforms (listElement items) := by
  intro c hc
  rw [listElement, children_tree] at hc
  obtain ⟨s, -, rfl⟩ := List.mem_map.1 hc
  exact ⟨rfl, children_leaf _ _⟩

namespace Entry

theorem prune_tree (e : Entry) : pruneEntry e.tree = e.tree := by
  refine sift_eq_self fun c hc => keepInEntry_eq_some.2 ⟨rfl, ?_⟩
  rw [tree, children_tree] at hc
  rcases mem_elements.1 hc with ⟨f, s, -, rfl⟩ | ⟨items, -, rfl⟩
  · show f.tag ∈ _
    cases f <;> decide
  · show "list" ∈ _
    decide

theorem conforms_tree (e : Entry) : EntryConforms e.tree := by
  refine ⟨titled_writtenTag _ _ _, ?_, ?_⟩
  · rw [tree, children_tree, filter_list, List.length_map]
    cases e.items <;> simp
  · intro l hl hname
    rw [tree, children_tree] at hl
    rcases mem_elements.1 hl with ⟨f, s, -, rfl⟩ | ⟨items, -, rfl⟩
    · exact absurd hname (tag_ne_list f)
    · exact listConforms_listElement items

end Entry

namespace Section

theorem mem_elements {body : SectionBody} (h : c ∈ body.elements) :
    (∃ items, c = listElement items ∧ body = .list items) ∨ ∃ e : Entry, c = e.tree := by
  cases body with
  | list items => exact Or.inl ⟨items, List.mem_singleton.1 h, rfl⟩
  | entries run =>
    obtain ⟨e, -, rfl⟩ := List.mem_map.1 h
    exact Or.inr ⟨e, rfl⟩

theorem prune_tree (part : Section) : pruneSection part.tree = part.tree := by
  refine sift_eq_self fun c hc => keepInSection_eq_some.2 ?_
  rw [tree, children_tree] at hc
  rcases mem_elements hc with ⟨items, rfl, -⟩ | ⟨e, rfl⟩
  · exact Or.inl ⟨rfl, rfl⟩
  · exact Or.inr ⟨rfl, (Entry.prune_tree e).symm⟩

theorem conforms_tree (part : Section) : SectionConforms part.tree := by
  have hchildren : part.tree.children = part.body.elements := children_tree _ _
  refine ⟨titled_writtenTag _ _ _, ?_, ?_, ?_⟩
  · intro l hl hname
    rw [hchildren] at hl ⊢
    rcases mem_elements hl with ⟨items, rfl, hbody⟩ | ⟨e, rfl⟩
    · rw [hbody]
      rfl
    · exact absurd hname (Entry.name_tree_ne e)
  · intro c hc hname
    rw [hchildren] at hc
    rcases mem_elements hc with ⟨items, rfl, -⟩ | ⟨e, rfl⟩
    · have hne : "list" ≠ "entry" := by decide
      exact absurd hname hne
    · exact Entry.conforms_tree e
  · intro l hl hname
    rw [hchildren] at hl
    rcases mem_elements hl with ⟨items, rfl, -⟩ | ⟨e, rfl⟩
    · exact listConforms_listElement items
    · exact absurd hname (Entry.name_tree_ne e)

end Section

namespace Resume

/-- All elements of the tree mean something. -/
theorem prune_tree (r : Resume) : prune r.tree = r.tree := by
  refine sift_eq_self fun c hc => keepBelowRoot_eq_some.2 ?_
  rw [tree, children_tree] at hc
  rcases mem_elements.1 hc with ⟨f, s, -, rfl⟩ | ⟨part, -, rfl⟩
  · exact Or.inl ⟨⟨f, rfl⟩, rfl⟩
  · exact Or.inr ⟨rfl, (Section.prune_tree part).symm⟩

/-- The tree breaks no rule. -/
theorem conforms_tree (r : Resume) : Conforms r.tree := by
  refine ⟨rfl, ?_⟩
  intro c hc hname
  rw [tree, children_tree] at hc
  rcases mem_elements.1 hc with ⟨f, s, -, rfl⟩ | ⟨part, -, rfl⟩
  · exact absurd hname (label_ne_section f)
  · exact Section.conforms_tree part

theorem readResume_tree {r : Resume} (h : r.Writable) : readResume r.tree = pure r := by
  -- a tree that keeps the rules is read without logging anything once it is pruned, and this one
  -- is pruned already
  rw [← prune_tree r, readResume_prune (conforms_tree r), resumeOf_tree h]

/-- **Every résumé can be written down**, whatever its texts hold and whichever of its parts are
absent or empty: it is read from its markup, and nothing is logged. -/
theorem parse_markup (r : Resume) (h : r.Writable) (log : Log) : (parse r.markup).after log = (.ok r, log) := by
  rw [after_parse, ofString_markup h]
  simp only
  rw [readResume_tree h]
  rfl

/-- Texts that markup has other uses for, a list that is empty and one that is absent. -/
def awkward : Resume where
  name := some " ]]> "
  sections :=
    [{ title := "\t\"<&\r\n"
       body := .entries [{ title := "", location := some "\n", items := some [] }, { title := "'" }] },
     { title := "", body := .list ["", " "] }]

theorem awkward_parsed : awkward.Writable ∧ (parse awkward.markup).after #[] = (.ok awkward, #[]) := by
  have hplace : Entry.Writable { title := "", location := some "\n", items := some [] } := by
    refine ⟨by decide, ?_, ?_⟩
    · intro f s hs
      cases f <;> cases hs
      exact ⟨by decide, by decide⟩
    · rintro items ⟨⟩
      nofun
  have hbare : Entry.Writable { title := "'" } := by
    refine ⟨by decide, ?_, nofun⟩
    intro f s hs
    cases f <;> cases hs
  have hitems : ∀ s ∈ ["", " "], IsLegalText s := by decide
  have hawkward : awkward.Writable := by
    refine ⟨?_, List.forall_mem_cons.2 ⟨⟨by decide, ?_⟩, List.forall_mem_singleton.2 ⟨by decide, hitems⟩⟩⟩
    · intro f s hs
      cases f <;> cases hs
      exact ⟨by decide, by decide⟩
    · exact List.forall_mem_cons.2 ⟨hplace, List.forall_mem_singleton.2 hbare⟩
  exact ⟨hawkward, parse_markup awkward hawkward #[]⟩

end Resume

end Vitae
