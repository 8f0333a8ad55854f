import Vitae.Proofs.Markup.Written
import Vitae.Resume.Basic

/-!
# Résumés as markup

A way to write a résumé down: present fields as elements with one text, titles as attributes,
lists and entries as elements, all in the order of the fields and all texts made of references.

* `Resume.markup`: the text. `Resume.tree`: the root element that is read from it.
* `Resume.Writable`: résumés that can be written so.
* `ofString_markup`: **the markup is read as the tree**, level by level.
-/

namespace Vitae

open Markup (Element IsPlainAttribute IsPlainName Writes fills_refer isLegal ofString_writeElement refer textNodes
  writeElement writes_element writes_flatMap writtenTag)

/-! ## The written form -/

/-- The tag that a text field of an entry is written with. -/
def EntryField.tag : EntryField → String
  | .organization => "organization"
  | .location => "location"
  | .startDate => "start_date"
  | .endDate => "end_date"

/-- The text fields of an entry in the order in which they are written. -/
def EntryField.all : List EntryField := [.organization, .location, .startDate, .endDate]

namespace Markup

/-- An element that holds one text. -/
def writeLeaf (tag text : String) : List Char := writeElement tag none (refer text.toList)

def leaf (tag text : String) : Element := ⟨writtenTag tag none, textNodes text⟩

/-- An element for each field that is present. -/
def writeFields (fields : List (String × Option String)) : List Char :=
  fields.flatMap fun f => f.2.toList.flatMap (writeLeaf f.1)

def fieldElements (fields : List (String × Option String)) : List Element :=
  fields.flatMap fun f => f.2.toList.map (leaf f.1)

/-- A list with an element for each item. -/
def writeList (items : List String) : List Char := writeElement "list" none (items.flatMap (writeLeaf "item"))

def listElement (items : List String) : Element :=
  ⟨writtenTag "list" none, (items.map (leaf "item")).map Element.node⟩

end Markup

open Markup (fieldElements leaf listElement writeFields writeLeaf writeList)

namespace Entry

def fields (e : Entry) : List (String × Option String) := EntryField.all.map fun f => (f.tag, e.field f)

def markup (e : Entry) : List Char :=
  writeElement "entry" (some ("title", e.title)) (writeFields e.fields ++ e.items.toList.flatMap writeList)

def elements (e : Entry) : List Element := fieldElements e.fields ++ e.items.toList.map listElement

def tree (e : Entry) : Element := ⟨writtenTag "entry" (some ("title", e.title)), e.elements.map Element.node⟩

end Entry

namespace SectionBody

def markup : SectionBody → List Char
  | .list items => writeList items
  | .entries run => run.flatMap Entry.markup

def elements : SectionBody → List Element
  | .list items => [listElement items]
  | .entries run => run.map Entry.tree

end SectionBody

namespace Section

def markup (s : Section) : List Char := writeElement "section" (some ("title", s.title)) s.body.markup

def tree (s : Section) : Element :=
  ⟨writtenTag "section" (some ("title", s.title)), s.body.elements.map Element.node⟩

end Section

namespace Resume

def fields (r : Resume) : List (String × Option String) := IdentityField.all.map fun f => (f.label, r.field f)

/-- A résumé as markup. -/
def markup (r : Resume) : String :=
  String.ofList (writeElement "resume" none (writeFields r.fields ++ r.sections.flatMap Section.markup))

def elements (r : Resume) : List Element := fieldElements r.fields ++ r.sections.map Section.tree

/-- A résumé as an element tree. -/
def tree (r : Resume) : Element := ⟨writtenTag "resume" none, r.elements.map Element.node⟩

end Resume

/-! ## What can be written -/

/-- A text of characters that a document may hold. -/
def IsLegalText (s : String) : Prop := ∀ c ∈ s.toList, isLegal c

instance (s : String) : Decidable (IsLegalText s) := decidable_of_iff (s.toList.all isLegal) List.all_eq_true

/-- Titles and items may be empty. -/
structure Entry.Writable (e : Entry) : Prop where
  title : IsLegalText e.title
  fields : ∀ f s, e.field f = some s → IsLegalText s ∧ s ≠ ""
  items : ∀ items, e.items = some items → ∀ s ∈ items, IsLegalText s

def SectionBody.Writable : SectionBody → Prop
  | .list items => ∀ s ∈ items, IsLegalText s
  | .entries run => ∀ e ∈ run, e.Writable

structure Section.Writable (s : Section) : Prop where
  title : IsLegalText s.title
  body : s.body.Writable

/-- All texts are legal, and no identity field or field of an entry is present but empty. -/
structure Resume.Writable (r : Resume) : Prop where
  fields : ∀ f s, r.field f = some s → IsLegalText s ∧ s ≠ ""
  sections : ∀ s ∈ r.sections, s.Writable

/-! ## Reading the markup -/

variable {tag s : String} {items : List String}

theorem writes_leaf (htag : IsPlainName tag) (hs : IsLegalText s) : Writes (writeLeaf tag s) [leaf tag s] :=
  writes_element htag nofun (fills_refer hs)

theorem writes_map {α : Type} {xs : List α} {write : α → List Char} {element : α → Element}
    (h : ∀ a ∈ xs, Writes (write a) [element a]) : Writes (xs.flatMap write) (xs.map element) := by
  rw [List.map_eq_flatMap]
  exact writes_flatMap h

theorem isPlainName_tag (f : EntryField) : IsPlainName f.tag := by
  cases f <;> decide

theorem isPlainName_label (f : IdentityField) : IsPlainName f.label := by
  cases f <;> decide

theorem writes_fields {F : Type} {fs : List F} {label : F → String} {value : F → Option String}
    (hlabel : ∀ f, IsPlainName (label f)) (h : ∀ f s, value f = some s → IsLegalText s ∧ s ≠ "") :
    Writes (writeFields (fs.map fun f => (label f, value f))) (fieldElements (fs.map fun f => (label f, value f))) := by
  refine writes_flatMap fun field hfield => writes_map fun s hs => ?_
  obtain ⟨f, -, rfl⟩ := List.mem_map.1 hfield
  exact writes_leaf (hlabel f) (h f s (Option.mem_toList.1 hs)).1

theorem writes_list (h : ∀ s ∈ items, IsLegalText s) : Writes (writeList items) [listElement items] := by
  refine writes_element (by decide) nofun (Writes.fills (writes_map fun s hs => ?_))
  exact writes_leaf (by decide) (h s hs)

/-- Titles are attributes that can be written. -/
theorem isPlainAttribute_title (h : IsLegalText s) : ∀ a ∈ some ("title", s), IsPlainAttribute a := by
  have htitle : IsPlainName "title" := by decide
  have hxmlns : "title" ≠ "xmlns" := by decide
  rintro a ⟨⟩
  exact ⟨htitle, hxmlns, h⟩

theorem writes_entry {e : Entry} (h : e.Writable) : Writes e.markup [e.tree] := by
  have hfields : Writes (writeFields e.fields) (fieldElements e.fields) := writes_fields isPlainName_tag h.fields
  have hitems : Writes (e.items.toList.flatMap writeList) (e.items.toList.map listElement) := by
    refine writes_map fun items hmem => ?_
    exact writes_list (h.items items (Option.mem_toList.1 hmem))
  exact writes_element (by decide) (isPlainAttribute_title h.title) (hfields.append hitems).fills

theorem writes_body {body : SectionBody} (h : body.Writable) : Writes body.markup body.elements := by
  cases body with
  | list items => exact writes_list h
  | entries run => exact writes_map fun e he => writes_entry (h e he)

theorem writes_section {s : Section} (h : s.Writable) : Writes s.markup [s.tree] :=
  writes_element (by decide) (isPlainAttribute_title h.title) (writes_body h.body).fills

/-- **The markup of a résumé is read as its tree.** -/
theorem ofString_markup {r : Resume} (h : r.Writable) : Element.ofString r.markup = .ok r.tree := by
  have hfields : Writes (writeFields r.fields) (fieldElements r.fields) := writes_fields isPlainName_label h.fields
  have hsections : Writes (r.sections.flatMap Section.markup) (r.sections.map Section.tree) :=
    writes_map fun s hs => writes_section (h.sections s hs)
  exact ofString_writeElement (by decide) nofun (hfields.append hsections).fills

end Vitae
