import Vitae.Schema.Reading

/-!
# The schema as a grammar

Which element trees are résumés and what each of them says, without the order in which
a reading looks at them.

* `Conforms`: the rules that a root and all below it keep.
* `resumeOf`: the résumé that a root holds. A field holds the text of the last element
  that sets it, a body is a list as soon as there is one.
-/

namespace Vitae

/-- The tags that set a text field of an entry. A single date is a start. -/
def EntryField.tags : EntryField → List String
  | .organization => ["organization"]
  | .location => ["location"]
  | .startDate => ["start_date", "date"]
  | .endDate => ["end_date"]

namespace Schema

open Markup (Element)

/-! ## Names at the four levels -/

theorem RootKind.ofName_eq_identity {name : String} {f : IdentityField} :
    RootKind.ofName name = .identity f ↔ name = f.label := by
  unfold RootKind.ofName
  cases f <;> split <;> simp_all [IdentityField.label]

theorem RootKind.ofName_eq_part {name : String} : RootKind.ofName name = .part ↔ name = "section" := by
  unfold RootKind.ofName
  split <;> simp_all

theorem RootKind.ofName_eq_unrecognized {name : String} :
    RootKind.ofName name = .unrecognized ↔
      name ∉ ["name", "address", "email", "phone", "section"] := by
  unfold RootKind.ofName
  split <;> simp_all

theorem SectionKind.ofName_eq_list {name : String} : SectionKind.ofName name = .list ↔ name = "list" := by
  unfold SectionKind.ofName
  split <;> simp_all

theorem SectionKind.ofName_eq_entry {name : String} :
    SectionKind.ofName name = .entry ↔ name = "entry" := by
  unfold SectionKind.ofName
  split <;> simp_all

theorem SectionKind.ofName_eq_unrecognized {name : String} :
    SectionKind.ofName name = .unrecognized ↔ name ∉ ["list", "entry"] := by
  unfold SectionKind.ofName
  split <;> simp_all

theorem EntryKind.ofName_eq_field {name : String} {f : EntryField} :
    EntryKind.ofName name = .field f ↔ name ∈ f.tags := by
  unfold EntryKind.ofName
  cases f <;> split <;> simp_all [EntryField.tags]

theorem EntryKind.ofName_eq_list {name : String} : EntryKind.ofName name = .list ↔ name = "list" := by
  unfold EntryKind.ofName
  split <;> simp_all

theorem EntryKind.ofName_eq_unrecognized {name : String} :
    EntryKind.ofName name = .unrecognized ↔
      name ∉ ["organization", "location", "start_date", "date", "end_date", "list"] := by
  unfold EntryKind.ofName
  split <;> simp_all

theorem ListKind.ofName_eq_item {name : String} : ListKind.ofName name = .item ↔ name = "item" := by
  unfold ListKind.ofName
  split <;> simp_all

/-! ## Trees that are résumés -/

/-- An element has an attribute named `title`, in whatever namespace. -/
def Titled (e : Element) : Prop := ∃ a ∈ e.tag.attributes, a.localName = "title"

instance (e : Element) : Decidable (Titled e) :=
  inferInstanceAs (Decidable (∃ a ∈ e.tag.attributes, a.localName = "title"))

/-- A list holds items only, and these hold no elements. -/
def ListConforms (l : Element) : Prop := ∀ c ∈ l.children, c.name = "item" ∧ c.children = []

/-- An entry has a title and at most one list. -/
structure EntryConforms (e : Element) : Prop where
  titled : Titled e
  oneList : (e.children.filter (·.name = "list")).length ≤ 1
  lists : ∀ l ∈ e.children, l.name = "list" → ListConforms l

/-- A section has a title, and a list in it is all that it holds. -/
structure SectionConforms (s : Element) : Prop where
  titled : Titled s
  alone : ∀ l ∈ s.children, l.name = "list" → s.children = [l]
  entries : ∀ e ∈ s.children, e.name = "entry" → EntryConforms e
  lists : ∀ l ∈ s.children, l.name = "list" → ListConforms l

/-- A root is named `resume`, and its sections keep the rules. -/
structure Conforms (root : Element) : Prop where
  named : root.name = "resume"
  sections : ∀ s ∈ root.children, s.name = "section" → SectionConforms s

/-! ## What a tree says -/

/-- The title of an element that has one. -/
def titleOf (e : Element) : String :=
  ((e.tag.attributes.find? (·.localName = "title")).map (·.value)).getD ""

/-- The text of the last of some elements that has one of the tags. -/
def lastText (tags : List String) (es : List Element) : Option String :=
  (es.filter (·.name ∈ tags)).getLast?.bind (·.text?)

/-- The items of a list. An item without text is an empty one. -/
def itemsOf (l : Element) : List String := l.children.map fun c => c.text?.getD ""

/-- An entry with a title and some children. -/
def entryOf (title : String) (es : List Element) : Entry where
  title := title
  organization := lastText ["organization"] es
  location := lastText ["location"] es
  startDate := lastText ["start_date", "date"] es
  endDate := lastText ["end_date"] es
  items := (es.find? (·.name = "list")).map itemsOf

/-- The body of a section with some children. -/
def bodyOf (es : List Element) : SectionBody :=
  match es.find? (·.name = "list") with
  | some l => .list (itemsOf l)
  | none => .entries ((es.filter (·.name = "entry")).map fun e => entryOf (titleOf e) e.children)

/-- A section. -/
def sectionOf (s : Element) : Section where
  title := titleOf s
  body := bodyOf s.children

/-- A résumé whose root has some children. -/
def resumeOf (es : List Element) : Resume where
  name := lastText ["name"] es
  address := lastText ["address"] es
  email := lastText ["email"] es
  phone := lastText ["phone"] es
  sections := (es.filter (·.name = "section")).map sectionOf

end Schema

end Vitae
