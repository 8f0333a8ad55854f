import Mathlib.Logic.Relation
import Vitae.Proofs.Schema.Sight

/-!
# What has no influence

Changes to a tree that a reading does not notice: what stands between the elements that are
read child by child, namespaces, attributes other than the title that counts, all that is in an
element without a meaning, and which of its two names a start date has.

* `Edit`: one such change somewhere in a tree.
* `Edit.alike`: a tree with such a change is alike.
* `readResume_edited`: **any number of such changes, made or undone, have no influence.**
-/

namespace Vitae.Schema

open Markup (Attribute Element Node Tag children_append_cons)

/-- A change of one element, in its role, that spares the children that are read. -/
inductive Change : Role → Element → Element → Prop
  /-- A comment, an instruction or a text comes between the children. -/
  | aside {role : Role} {tag : Tag} {n : Node} (before after : List Node) : role.Inner → n.element? = none →
      Change role ⟨tag, before ++ after⟩ ⟨tag, before ++ n :: after⟩
  | space {role : Role} {tag : Tag} {nodes : List Node} (space : Option String) :
      Change role ⟨tag, nodes⟩ ⟨{ tag with space }, nodes⟩
  /-- Attributes change. A section and an entry keep the value of the first one named `title`. -/
  | attributes {role : Role} {tag : Tag} {nodes : List Node} (attributes : List Attribute) :
      (role = .part ∨ role = .entry →
        (attributes.find? (·.localName = "title")).map (·.value) =
          (tag.attributes.find? (·.localName = "title")).map (·.value)) →
      Change role ⟨tag, nodes⟩ ⟨{ tag with attributes }, nodes⟩
  /-- All in an element without a meaning gives way to something else. -/
  | content {tag : Tag} (nodes nodes' : List Node) : Change .unrecognized ⟨tag, nodes⟩ ⟨tag, nodes'⟩
  /-- A start date takes the other of its names. -/
  | date {tag : Tag} {nodes : List Node} (name : String) : name ∈ EntryField.startDate.tags →
      Change (.field .startDate) ⟨tag, nodes⟩ ⟨{ tag with name }, nodes⟩

/-- A change of an element with a role or of one somewhere below it. -/
inductive Edit : Role → Element → Element → Prop
  | here {role : Role} {e e' : Element} : Change role e e' → Edit role e e'
  | inside {role : Role} {tag : Tag} (before after : List Node) (c c' : Element) : Edit (role.below c.name) c c' →
      Edit role ⟨tag, before ++ c.node :: after⟩ ⟨tag, before ++ c'.node :: after⟩

variable {role s : Role} {e e' c c' : Element} {tag : Tag} {before after : List Node}

/-! ## Edited trees are alike -/

/-- What elements have to have in common to agree in every role. -/
theorem agree_of_eq (role : Role) (hline : e.line = e'.line) (hname : e.name = e'.name)
    (htitle : role = .part ∨ role = .entry → e.attribute? titleName = e'.attribute? titleName)
    (htext : e.text? = e'.text?) (hempty : e.children.isEmpty = e'.children.isEmpty) : Agree role e e' := by
  cases role with
  | root => exact hname
  | part => exact ⟨hline, htitle (Or.inl rfl)⟩
  | entry => exact ⟨hline, htitle (Or.inr rfl)⟩
  | item => exact ⟨hline, congrArg (·.getD "") htext, hempty⟩
  | identity f => exact htext
  | field f => exact htext
  | list => exact hline
  | stranger => exact hline
  | unrecognized => exact ⟨hline, hname⟩
  | inText => trivial
  | passed => trivial

theorem AlikeChild.refl (role : Role) (c : Element) : AlikeChild role c c := ⟨rfl, Alike.refl _ c⟩

/-- Elements that agree and whose children are alike one by one are alike. -/
theorem alike_of_forall₂ (hagree : Agree role e e')
    (hchildren : role.Inner → List.Forall₂ (AlikeChild role) e.children e'.children) : Alike role e e' := by
  have hpair : role.Inner → ∀ (i : ℕ) (c c' : Element), e.children[i]? = some c → e'.children[i]? = some c' →
      AlikeChild role c c' := by
    intro hrole i c c' hc hc'
    obtain ⟨hi, rfl⟩ := List.getElem?_eq_some_iff.1 hc
    obtain ⟨hi', rfl⟩ := List.getElem?_eq_some_iff.1 hc'
    exact (hchildren hrole).get hi hi'
  refine .mk hagree (fun hrole => (hchildren hrole).length_eq) ?_ ?_
  · intro hrole i c c' hc hc'
    exact (hpair hrole i c c' hc hc').1
  · intro hrole i c c' hc hc'
    exact (hpair hrole i c c' hc hc').2

/-- Elements that agree and have the same children are alike. -/
theorem alike_of_children_eq (hagree : Agree role e e') (hchildren : role.Inner → e'.children = e.children) :
    Alike role e e' := by
  refine alike_of_forall₂ hagree ?_
  intro hrole
  rw [hchildren hrole]
  exact List.forall₂_same.2 fun c _ => AlikeChild.refl role c

theorem Change.alike (h : Change role e e') : Alike role e e' := by
  cases h with
  | aside before after hrole hn =>
    refine alike_of_children_eq ?_ ?_
    · -- of the roles with children to be read none looks at the texts between them
      cases hrole <;> first | exact ⟨rfl, rfl⟩ | exact rfl
    · intro _
      unfold Element.children
      rw [List.filterMap_append, List.filterMap_append, List.filterMap_cons_none hn]
  | space space =>
    exact alike_of_children_eq (agree_of_eq role rfl rfl (fun _ => rfl) rfl rfl) fun _ => rfl
  | attributes attributes htitle =>
    exact alike_of_children_eq (agree_of_eq role rfl rfl (fun hrole => (htitle hrole).symm) rfl rfl) fun _ => rfl
  | content nodes nodes' => exact alike_of_children_eq ⟨rfl, rfl⟩ nofun
  | date name hname => exact alike_of_children_eq rfl nofun

/-- A changed element keeps its role. -/
theorem Change.below_eq (h : Change role e e') (hrole : s.below e.name = role) : s.below e'.name = role := by
  cases h with
  | date name hname =>
    have hgives := Role.below_eq_iff.1 hrole
    cases hgives with
    | field _ _ => exact Role.below_eq_iff.2 (.field .startDate hname)
  | _ => exact hrole

/-- What is looked at of an element itself does not depend on what a child of it holds. -/
theorem agree_replace (role : Role) (tag : Tag) (before after : List Node) (c c' : Element) :
    Agree role ⟨tag, before ++ c.node :: after⟩ ⟨tag, before ++ c'.node :: after⟩ := by
  refine agree_of_eq role rfl rfl (fun _ => rfl) ?_ ?_
  · cases before with
    | nil => rfl
    | cons node before => cases node <;> rfl
  · rw [children_append_cons, children_append_cons]
    cases before.filterMap Node.element? <;> rfl

/-- **An edit leaves a tree alike**, and its root in the role that it has. -/
theorem Edit.alike (h : Edit role e e') :
    Alike role e e' ∧ ∀ s : Role, s.below e.name = role → s.below e'.name = role := by
  -- a child has its role from its name, so that it keeps its role is carried along
  induction h with
  | here h => exact ⟨h.alike, fun s => h.below_eq⟩
  | @inside role tag before after c c' _ ih =>
    obtain ⟨halike, hname⟩ := ih
    have hchild : AlikeChild role c c' := ⟨(hname role rfl).symm, halike⟩
    have hsame : ∀ es, List.Forall₂ (AlikeChild role) es es := fun es =>
      List.forall₂_same.2 fun d _ => AlikeChild.refl role d
    refine ⟨alike_of_forall₂ (agree_replace role tag before after c c') ?_, fun s hs => hs⟩
    intro _
    rw [children_append_cons, children_append_cons]
    exact List.rel_append (hsame _) (.cons hchild (hsame _))

/-- **Irrelevant markup has no influence.** A tree that is changed any number of times, each change
made or undone, is read as before: to the same résumé or the same error, with the same log. -/
theorem readResume_edited {root root' : Element} (h : Relation.EqvGen (Edit .root) root root') :
    readResume root' = readResume root := by
  induction h with
  | rel e e' h => exact (readResume_alike h.alike.1).symm
  | refl e => rfl
  | symm e e' _ ih => exact ih.symm
  | trans e e' e'' _ _ ih ih' => exact ih'.trans ih

/-- A dated talk after some hobbies, which mean nothing in a section. -/
def talks (asides : List Node) (attributes : List Attribute) (hobbies : List Node) (date : String) : Element where
  tag := ⟨none, "resume", [], 1⟩
  nodes := asides ++ [.element ⟨none, "section", attributes, 2⟩
    [.element ⟨none, "hobbies", [], 3⟩ hobbies,
      .element ⟨none, "entry", [⟨none, "title", "Keynote"⟩], 4⟩ [.element ⟨none, date, [], 5⟩ [.text "2021"]]]]

/-- A comment above all, another title after the one that counts, an untitled section among the
hobbies and the other name for the date make no difference. -/
theorem talks_edited :
    Relation.EqvGen (Edit .root) (talks [] [⟨none, "title", "Talks"⟩] [] "date")
      (talks [.comment "c"] [⟨none, "title", "Talks"⟩, ⟨some "urn:x", "title", "B"⟩]
        [.element ⟨none, "section", [], 3⟩ []] "start_date") ∧
    readResume (talks [.comment "c"] [⟨none, "title", "Talks"⟩, ⟨some "urn:x", "title", "B"⟩]
        [.element ⟨none, "section", [], 3⟩ []] "start_date") =
      readResume (talks [] [⟨none, "title", "Talks"⟩] [] "date") := by
  have hdate : Edit .root (talks [] [⟨none, "title", "Talks"⟩] [] "date")
      (talks [] [⟨none, "title", "Talks"⟩] [] "start_date") :=
    .inside [] [] ⟨_, _⟩ ⟨_, _⟩ (.inside [_] [] ⟨_, _⟩ ⟨_, _⟩ (.inside [] [] ⟨_, _⟩ ⟨_, _⟩
      (.here (.date "start_date" (by decide)))))
  have hhobbies : Edit .root (talks [] [⟨none, "title", "Talks"⟩] [] "start_date")
      (talks [] [⟨none, "title", "Talks"⟩] [.element ⟨none, "section", [], 3⟩ []] "start_date") :=
    .inside [] [] ⟨_, _⟩ ⟨_, _⟩ (.inside [] [_] ⟨_, _⟩ ⟨_, _⟩ (.here (.content _ _)))
  have htitle : Edit .root
      (talks [] [⟨none, "title", "Talks"⟩] [.element ⟨none, "section", [], 3⟩ []] "start_date")
      (talks [] [⟨none, "title", "Talks"⟩, ⟨some "urn:x", "title", "B"⟩]
        [.element ⟨none, "section", [], 3⟩ []] "start_date") :=
    .inside [] [] ⟨_, _⟩ ⟨_, _⟩ (.here (.attributes _ fun _ => rfl))
  have hcomment : Edit .root
      (talks [] [⟨none, "title", "Talks"⟩, ⟨some "urn:x", "title", "B"⟩]
        [.element ⟨none, "section", [], 3⟩ []] "start_date")
      (talks [.comment "c"] [⟨none, "title", "Talks"⟩, ⟨some "urn:x", "title", "B"⟩]
        [.element ⟨none, "section", [], 3⟩ []] "start_date") :=
    .here (.aside [] _ .root rfl)
  have hedited := ((Relation.EqvGen.rel _ _ hdate).trans _ _ _ (.rel _ _ hhobbies)).trans _ _ _
    ((Relation.EqvGen.rel _ _ htitle).trans _ _ _ (.rel _ _ hcomment))
  exact ⟨hedited, readResume_edited hedited⟩

/-- A root with one section, of which only the attributes are given. -/
def partWith (attributes : List Attribute) : Element where
  tag := ⟨none, "resume", [], 1⟩
  nodes := [.element ⟨none, "section", attributes, 1⟩ []]

/-- A title in a namespace that comes before the other title is the one that counts. -/
theorem shadowedTitle_counts :
    (readResume (partWith [⟨none, "title", "B"⟩])).after #[] = (.ok { sections := [{ title := "B" }] }, #[]) ∧
      (readResume (partWith [⟨some "u", "title", "A"⟩, ⟨none, "title", "B"⟩])).after #[] =
        (.ok { sections := [{ title := "A" }] }, #[]) :=
  ⟨rfl, rfl⟩

end Vitae.Schema
