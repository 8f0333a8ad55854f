import Mathlib.Data.List.Induction
import Vitae.Proofs.Schema.Acceptance
import Vitae.Proofs.Schema.Outcome

/-!
# Roles

What an element is to the schema where it stands. The role of a child follows from its name
and the role of its parent, so each element of a tree has one.

* `Role.below_eq_iff`: the rules, one per role.
* `stands_concat`: the last step of a path decides the role.
* `Stands.in_unrecognized`: all below an element that means nothing is passed over.
  `Stands.exists_leaf`, `Stands.exists_unread`: what is in a text or passed over has such an
  element above it.
* `stands_unrecognized_iff`: the elements without a meaning are those that the schema notes.
-/

namespace Vitae.Schema

open Markup (Element Path at?_append at?_concat)

/-- What an element is to the schema where it stands. -/
inductive Role where
  | root
  | identity (f : IdentityField)
  | part
  | entry
  | field (f : EntryField)
  | list
  | item
  /-- In a list, but no item. -/
  | stranger
  /-- Without a meaning where it stands. -/
  | unrecognized
  /-- Below an element that is read for its text. -/
  | inText
  /-- Below an element that is not read. -/
  | passed
  deriving DecidableEq

/-- The role that a kind of child of the root stands for. -/
def RootKind.role : RootKind → Role
  | .identity f => .identity f
  | .part => .part
  | .unrecognized => .unrecognized

def SectionKind.role : SectionKind → Role
  | .list => .list
  | .entry => .entry
  | .unrecognized => .unrecognized

def EntryKind.role : EntryKind → Role
  | .field f => .field f
  | .list => .list
  | .unrecognized => .unrecognized

def ListKind.role : ListKind → Role
  | .item => .item
  | .other => .stranger

namespace Role

/-- The role of a child, from that of its parent. -/
def below : Role → String → Role
  | .root, name => (RootKind.ofName name).role
  | .part, name => (SectionKind.ofName name).role
  | .entry, name => (EntryKind.ofName name).role
  | .list, name => (ListKind.ofName name).role
  | .identity _, _ | .field _, _ | .item, _ | .inText, _ => .inText
  | .stranger, _ | .unrecognized, _ | .passed, _ => .passed

/-- The role of what a path leads to, from that of the element where it starts. -/
def along (role : Role) (e : Element) : Path → Option Role
  | [] => some role
  | i :: p => e.children[i]?.bind fun c => (role.below c.name).along c p

/-- The roles of elements that are read for their text. -/
inductive Leaf : Role → Prop
  | identity (f : IdentityField) : Leaf (.identity f)
  | field (f : EntryField) : Leaf (.field f)
  | item : Leaf .item

/-- The roles of elements that a reading takes in. -/
inductive Read : Role → Prop
  | root : Read .root
  | part : Read .part
  | entry : Read .entry
  | list : Read .list
  | leaf {role : Role} : role.Leaf → Read role

/-- The roles of children by name, one rule per role. -/
inductive Gives : Role → String → Role → Prop
  | identity {name : String} (f : IdentityField) : name = f.label → Gives .root name (.identity f)
  | part {name : String} : name = "section" → Gives .root name .part
  | besideParts {name : String} : name ∉ ["name", "address", "email", "phone", "section"] →
      Gives .root name .unrecognized
  | entry {name : String} : name = "entry" → Gives .part name .entry
  | listOfPart {name : String} : name = "list" → Gives .part name .list
  | besideEntries {name : String} : name ∉ ["list", "entry"] → Gives .part name .unrecognized
  | field {name : String} (f : EntryField) : name ∈ f.tags → Gives .entry name (.field f)
  | listOfEntry {name : String} : name = "list" → Gives .entry name .list
  | besideFields {name : String} :
      name ∉ ["organization", "location", "start_date", "date", "end_date", "list"] →
      Gives .entry name .unrecognized
  | item {name : String} : name = "item" → Gives .list name .item
  | stranger {name : String} : name ≠ "item" → Gives .list name .stranger
  | inLeaf {role : Role} {name : String} : role.Leaf → Gives role name .inText
  | inText {name : String} : Gives .inText name .inText
  | inUnrecognized {name : String} : Gives .unrecognized name .passed
  | inStranger {name : String} : Gives .stranger name .passed
  | passed {name : String} : Gives .passed name .passed

theorem gives_below (role : Role) (name : String) : role.Gives name (role.below name) := by
  cases role with
  | root =>
    show Gives _ _ (RootKind.ofName name).role
    cases h : RootKind.ofName name with
    | identity f => exact .identity f (RootKind.ofName_eq_identity.1 h)
    | part => exact .part (RootKind.ofName_eq_part.1 h)
    | unrecognized => exact .besideParts (RootKind.ofName_eq_unrecognized.1 h)
  | part =>
    show Gives _ _ (SectionKind.ofName name).role
    cases h : SectionKind.ofName name with
    | list => exact .listOfPart (SectionKind.ofName_eq_list.1 h)
    | entry => exact .entry (SectionKind.ofName_eq_entry.1 h)
    | unrecognized => exact .besideEntries (SectionKind.ofName_eq_unrecognized.1 h)
  | entry =>
    show Gives _ _ (EntryKind.ofName name).role
    cases h : EntryKind.ofName name with
    | field f => exact .field f (EntryKind.ofName_eq_field.1 h)
    | list => exact .listOfEntry (EntryKind.ofName_eq_list.1 h)
    | unrecognized => exact .besideFields (EntryKind.ofName_eq_unrecognized.1 h)
  | list =>
    show Gives _ _ (ListKind.ofName name).role
    cases h : ListKind.ofName name with
    | item => exact .item (ListKind.ofName_eq_item.1 h)
    | other => exact .stranger fun hname => by rw [ListKind.ofName_eq_item.2 hname] at h; cases h
  | identity f => exact .inLeaf (.identity f)
  | field f => exact .inLeaf (.field f)
  | item => exact .inLeaf .item
  | inText => exact .inText
  | stranger => exact .inStranger
  | unrecognized => exact .inUnrecognized
  | passed => exact .passed

/-- **A child has one role**, and the rules say which. -/
theorem below_eq_iff {role r : Role} {name : String} : role.below name = r ↔ role.Gives name r := by
  constructor
  · rintro rfl
    exact gives_below role name
  · intro h
    cases h with
    | identity f h => rw [below, RootKind.ofName_eq_identity.2 h, RootKind.role]
    | part h => rw [below, RootKind.ofName_eq_part.2 h, RootKind.role]
    | besideParts h => rw [below, RootKind.ofName_eq_unrecognized.2 h, RootKind.role]
    | entry h => rw [below, SectionKind.ofName_eq_entry.2 h, SectionKind.role]
    | listOfPart h => rw [below, SectionKind.ofName_eq_list.2 h, SectionKind.role]
    | besideEntries h => rw [below, SectionKind.ofName_eq_unrecognized.2 h, SectionKind.role]
    | field f h => rw [below, EntryKind.ofName_eq_field.2 h, EntryKind.role]
    | listOfEntry h => rw [below, EntryKind.ofName_eq_list.2 h, EntryKind.role]
    | besideFields h => rw [below, EntryKind.ofName_eq_unrecognized.2 h, EntryKind.role]
    | item h => rw [below, ListKind.ofName_eq_item.2 h, ListKind.role]
    | stranger h =>
      show (ListKind.ofName name).role = _
      cases hkind : ListKind.ofName name with
      | item => exact absurd (ListKind.ofName_eq_item.1 hkind) h
      | other => rfl
    | inLeaf h => cases h <;> rfl
    | inText => rfl
    | inUnrecognized => rfl
    | inStranger => rfl
    | passed => rfl

end Role

variable {e c d : Element} {p q : Path} {i : ℕ} {role r s : Role}

/-- An element stands somewhere in a tree with a role. -/
def Stands (root : Element) (p : Path) (c : Element) (role : Role) : Prop :=
  root.at? p = some c ∧ Role.root.along root p = some role

theorem along_cons :
    role.along e (i :: p) = some r ↔ ∃ c, e.children[i]? = some c ∧ (role.below c.name).along c p = some r := by
  rw [Role.along, Option.bind_eq_some_iff]

theorem isSome_along (role : Role) : (role.along e p).isSome = (e.at? p).isSome := by
  induction p generalizing e role with
  | nil => rfl
  | cons i p ih =>
    rw [Role.along, Element.at?]
    cases e.children[i]? with
    | none => rfl
    | some c => exact ih _

theorem along_append (hd : e.at? p = some d) (hr : role.along e p = some r) :
    role.along e (p ++ q) = r.along d q := by
  induction p generalizing e role with
  | nil =>
    cases hd
    cases hr
    rfl
  | cons i p ih =>
    obtain ⟨c, hc, hd⟩ := Option.bind_eq_some_iff.1 hd
    obtain ⟨c', hc', hr⟩ := along_cons.1 hr
    rw [hc] at hc'
    cases hc'
    rw [List.cons_append, Role.along, hc]
    exact ih hd hr

/-- **The last step of a path decides the role**, with the role of the parent. -/
theorem along_concat : role.along e (p ++ [i]) = some r ↔
    ∃ d s c, e.at? p = some d ∧ role.along e p = some s ∧ d.children[i]? = some c ∧ s.below c.name = r := by
  constructor
  · intro h
    have hparent : (e.at? p).isSome := by
      have hsome : (e.at? (p ++ [i])).isSome := by rw [← isSome_along role, h]; rfl
      obtain ⟨c, hc⟩ := Option.isSome_iff_exists.1 hsome
      obtain ⟨d, hd, -⟩ := at?_concat.1 hc
      rw [hd]
      rfl
    obtain ⟨d, hd⟩ := Option.isSome_iff_exists.1 hparent
    rw [← isSome_along role] at hparent
    obtain ⟨s, hs⟩ := Option.isSome_iff_exists.1 hparent
    rw [along_append hd hs] at h
    obtain ⟨c, hc, hr⟩ := along_cons.1 h
    exact ⟨d, s, c, hd, hs, hc, Option.some.inj hr⟩
  · rintro ⟨d, s, c, hd, hs, hc, rfl⟩
    rw [along_append hd hs]
    exact along_cons.2 ⟨c, hc, rfl⟩

/-- Below the root of a tree each element has a parent, and its role comes from there. -/
theorem stands_concat {root : Element} :
    Stands root (p ++ [i]) c role ↔
      ∃ d s, Stands root p d s ∧ d.children[i]? = some c ∧ s.below c.name = role := by
  unfold Stands
  rw [at?_concat, along_concat]
  constructor
  · rintro ⟨⟨d, hd, hc⟩, d', s, c', hd', hs, hc', hr⟩
    rw [hd] at hd'
    cases hd'
    rw [hc] at hc'
    cases hc'
    exact ⟨d, s, ⟨hd, hs⟩, hc, hr⟩
  · rintro ⟨d, s, ⟨hd, hs⟩, hc, hr⟩
    exact ⟨⟨d, hd, hc⟩, d, s, c, hd, hs, hc, hr⟩

/-! ## Down the tree -/

variable {root : Element} {c' : Element} {r' : Role}

theorem stands_self : Stands root [] root .root := ⟨rfl, rfl⟩

theorem Stands.unique (h : Stands root p c r) (h' : Stands root p c' r') : c = c' ∧ r = r' := by
  obtain ⟨hc, hr⟩ := h
  obtain ⟨hc', hr'⟩ := h'
  rw [hc] at hc'
  rw [hr] at hr'
  exact ⟨Option.some.inj hc', Option.some.inj hr'⟩

theorem exists_stands (hc : root.at? p = some c) : ∃ r, Stands root p c r := by
  have hsome : (Role.root.along root p).isSome := by rw [isSome_along, hc]; rfl
  obtain ⟨r, hr⟩ := Option.isSome_iff_exists.1 hsome
  exact ⟨r, hc, hr⟩

/-- What is below an element whose children all have a role that passes itself on has that role. -/
theorem along_of_sink (hs : ∀ name, s.below name = s) (h : ∀ name, role.below name = s) (hp : p ≠ [])
    (hr : role.along e p = some r) : r = s := by
  induction p generalizing e role with
  | nil => exact absurd rfl hp
  | cons i p ih =>
    obtain ⟨c, -, hr⟩ := along_cons.1 hr
    rw [h] at hr
    cases p with
    | nil => exact (Option.some.inj hr).symm
    | cons j p => exact ih hs (by simp) hr

theorem Stands.below_sink (hd : Stands root q d role) (hs : ∀ name, s.below name = s)
    (h : ∀ name, role.below name = s) (hq : q <+: p) (hne : q ≠ p) (hc : Stands root p c r) : r = s := by
  obtain ⟨t, rfl⟩ := hq
  have ht : t ≠ [] := by
    rintro rfl
    exact hne (List.append_nil q).symm
  have hr := hc.2
  rw [along_append hd.1 hd.2] at hr
  exact along_of_sink hs h ht hr

/-- **All below an element that means nothing is passed over.** -/
theorem Stands.in_unrecognized (hd : Stands root q d .unrecognized) (hq : q <+: p) (hne : q ≠ p)
    (hc : Stands root p c r) : r = .passed :=
  hd.below_sink (fun _ => rfl) (fun _ => rfl) hq hne hc

/-- A role other than the root's comes from an element above that does not have it. -/
theorem Stands.exists_above (hs : s ≠ .root) (hc : Stands root p c s) :
    ∃ q d r name, q <+: p ∧ q ≠ p ∧ Stands root q d r ∧ r ≠ s ∧ r.Gives name s := by
  induction p using List.reverseRecOn generalizing c with
  | nil =>
    obtain ⟨-, hr⟩ := hc
    exact absurd (Option.some.inj hr).symm hs
  | append_singleton p i ih =>
    obtain ⟨d, r, hd, -, hr⟩ := stands_concat.1 hc
    have hle : p <+: p ++ [i] := List.prefix_append _ _
    by_cases hrs : r = s
    · subst hrs
      obtain ⟨q, d', r', name, hq, -, hrest⟩ := ih hd
      refine ⟨q, d', r', name, hq.trans hle, ?_, hrest⟩
      rintro rfl
      have hlength := hq.length_le
      rw [List.length_append, List.length_singleton] at hlength
      omega
    · exact ⟨p, d, r, c.name, hle, by simp, hd, hrs, Role.below_eq_iff.1 hr⟩

theorem Stands.exists_leaf (hc : Stands root p c .inText) :
    ∃ q d r, q <+: p ∧ q ≠ p ∧ Stands root q d r ∧ r.Leaf := by
  obtain ⟨q, d, r, name, hq, hne, hd, hr, hgives⟩ := hc.exists_above (by decide)
  cases hgives with
  | inLeaf hleaf => exact ⟨q, d, r, hq, hne, hd, hleaf⟩
  | inText => exact absurd rfl hr

theorem Stands.exists_unread (hc : Stands root p c .passed) :
    ∃ q d, q <+: p ∧ q ≠ p ∧ (Stands root q d .unrecognized ∨ Stands root q d .stranger) := by
  obtain ⟨q, d, r, name, hq, hne, hd, hr, hgives⟩ := hc.exists_above (by decide)
  cases hgives with
  | inUnrecognized => exact ⟨q, d, hq, hne, Or.inl hd⟩
  | inStranger => exact ⟨q, d, hq, hne, Or.inr hd⟩
  | passed => exact absurd rfl hr

/-! ## The levels -/

theorem stands_root_iff : Stands root p c .root ↔ p = [] ∧ c = root := by
  constructor
  · intro h
    rcases List.eq_nil_or_concat p with rfl | ⟨q, i, rfl⟩
    · obtain ⟨hc, -⟩ := h
      exact ⟨rfl, (Option.some.inj hc).symm⟩
    · rw [List.concat_eq_append] at h
      obtain ⟨d, s, -, -, hgives⟩ := stands_concat.1 h
      cases Role.below_eq_iff.1 hgives
  · rintro ⟨rfl, rfl⟩
    exact ⟨rfl, rfl⟩

/-- An element with a role other than the root's has a parent, which gives it the role. -/
theorem Stands.parent (hr : r ≠ .root) (h : Stands root p c r) : ∃ q i d s, p = q ++ [i] ∧
    Stands root q d s ∧ d.children[i]? = some c ∧ s.Gives c.name r := by
  rcases List.eq_nil_or_concat p with rfl | ⟨q, i, rfl⟩
  · obtain ⟨-, hrole⟩ := h
    exact absurd (Option.some.inj hrole).symm hr
  · rw [List.concat_eq_append] at h
    obtain ⟨d, s, hd, hc, hgives⟩ := stands_concat.1 h
    exact ⟨q, i, d, s, List.concat_eq_append, hd, hc, Role.below_eq_iff.1 hgives⟩

theorem stands_part_iff : Stands root p c .part ↔
    ∃ i, p = [i] ∧ root.children[i]? = some c ∧ c.name = "section" := by
  constructor
  · intro h
    obtain ⟨q, i, d, s, rfl, hd, hc, hgives⟩ := h.parent (by decide)
    cases hgives with
    | part hname =>
      obtain ⟨rfl, rfl⟩ := stands_root_iff.1 hd
      exact ⟨i, rfl, hc, hname⟩
  · rintro ⟨i, rfl, hc, hname⟩
    exact stands_concat.2 ⟨root, .root, stands_self, hc, Role.below_eq_iff.2 (.part hname)⟩

theorem stands_entry_iff : Stands root p c .entry ↔
    ∃ i s j, p = [i, j] ∧ root.children[i]? = some s ∧ s.name = "section" ∧ s.children[j]? = some c ∧
      c.name = "entry" := by
  constructor
  · intro h
    obtain ⟨q, j, s, r, rfl, hs, hc, hgives⟩ := h.parent (by decide)
    cases hgives with
    | entry hname =>
      obtain ⟨i, rfl, hs, hsName⟩ := stands_part_iff.1 hs
      exact ⟨i, s, j, rfl, hs, hsName, hc, hname⟩
  · rintro ⟨i, s, j, rfl, hs, hsName, hc, hname⟩
    have hpart : Stands root [i] s .part := stands_part_iff.2 ⟨i, rfl, hs, hsName⟩
    exact stands_concat.2 ⟨s, .part, hpart, hc, Role.below_eq_iff.2 (.entry hname)⟩

/-- **The elements without a meaning where they stand are those that the schema notes.** -/
theorem stands_unrecognized_iff : Stands root p c .unrecognized ↔ Noted root p c .unrecognized := by
  rw [noted_unrecognized_iff]
  constructor
  · intro h
    obtain ⟨q, k, d, s, rfl, hd, hc, hgives⟩ := h.parent (by decide)
    cases hgives with
    | besideParts hname =>
      obtain ⟨rfl, rfl⟩ := stands_root_iff.1 hd
      exact Or.inl ⟨k, rfl, hc, hname⟩
    | besideEntries hname =>
      obtain ⟨i, rfl, hs, hsName⟩ := stands_part_iff.1 hd
      exact Or.inr (Or.inl ⟨i, d, k, rfl, hs, hsName, hc, hname⟩)
    | besideFields hname =>
      obtain ⟨i, s, j, rfl, hs, hsName, he, heName⟩ := stands_entry_iff.1 hd
      exact Or.inr (Or.inr ⟨i, s, j, d, k, rfl, hs, hsName, he, heName, hc, hname⟩)
  · rintro (⟨i, rfl, hc, hname⟩ | ⟨i, s, j, rfl, hs, hsName, hc, hname⟩ |
      ⟨i, s, j, e, k, rfl, hs, hsName, he, heName, hc, hname⟩)
    · exact stands_concat.2 ⟨root, .root, stands_self, hc, Role.below_eq_iff.2 (.besideParts hname)⟩
    · have hpart : Stands root [i] s .part := stands_part_iff.2 ⟨i, rfl, hs, hsName⟩
      exact stands_concat.2 ⟨s, .part, hpart, hc, Role.below_eq_iff.2 (.besideEntries hname)⟩
    · have hentry : Stands root [i, j] e .entry := stands_entry_iff.2 ⟨i, s, j, rfl, hs, hsName, he, heName⟩
      exact stands_concat.2 ⟨e, .entry, hentry, hc, Role.below_eq_iff.2 (.besideFields hname)⟩

/-! ## Accepted trees -/

theorem Conforms.list (h : Conforms root) (hl : Stands root p c .list) : ListConforms c := by
  obtain ⟨q, k, d, s, rfl, hd, hc, hgives⟩ := hl.parent (by decide)
  have hmem := List.mem_of_getElem? hc
  cases hgives with
  | listOfPart hname =>
    obtain ⟨i, rfl, hs, hsName⟩ := stands_part_iff.1 hd
    exact (h.sections d (List.mem_of_getElem? hs) hsName).lists c hmem hname
  | listOfEntry hname =>
    obtain ⟨i, s, j, rfl, hs, hsName, he, heName⟩ := stands_entry_iff.1 hd
    have hentry := (h.sections s (List.mem_of_getElem? hs) hsName).entries d (List.mem_of_getElem? he) heName
    exact hentry.lists c hmem hname

theorem Conforms.not_stranger (h : Conforms root) : ¬ Stands root p c .stranger := by
  intro hc
  obtain ⟨q, k, l, s, rfl, hl, hc, hgives⟩ := hc.parent (by decide)
  cases hgives with
  | stranger hname => exact hname (h.list hl c (List.mem_of_getElem? hc)).1

theorem Conforms.item (h : Conforms root) (hc : Stands root p c .item) : c.name = "item" ∧ c.children = [] := by
  obtain ⟨q, k, l, s, rfl, hl, hc, hgives⟩ := hc.parent (by decide)
  cases hgives with
  | item _ => exact h.list hl c (List.mem_of_getElem? hc)

theorem conforms_of_accepted {log : Log} {r : Resume} (h : ((readResume root).after log).1 = .ok r) :
    Conforms root := by
  rw [readResume_eq] at h
  split at h
  · rename_i hname
    rw [after_conclude_ok_iff] at h
    exact (conforms_iff root).2 ⟨hname, (harmless_findings_iff root).1 h.1⟩
  · cases h

theorem log_of_conforms (h : Conforms root) (log : Log) :
    ((readResume root).after log).2 = log ++ ((findings root).map Finding.diagnostic).toArray := by
  obtain ⟨hname, hnone⟩ := (conforms_iff root).1 h
  rw [readResume_eq, if_pos hname, after_conclude_of_harmless ((harmless_findings_iff root).2 hnone)]

end Vitae.Schema
