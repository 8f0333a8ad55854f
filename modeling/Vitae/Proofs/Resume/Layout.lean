import Vitae.Proofs.Json.Indentation
import Vitae.Resume.Format

/-!
# The layout of JSON résumés

The strings of a résumé have no part in how its JSON text is laid out: which lines there are, how
far each stands in, and what is on it besides the strings.

* `Resume.shape`: all of a résumé but its strings.
* `Json.LaidOut`: a text with given lines.
* `Resume.laidOut_render`: **résumés of one shape have the same lines.**
-/

namespace Vitae

open Json (Alike Piece outline alike_text alike_array alike_object)

open Text (cut)

/-! ## Shapes -/

/-- What is left of an optional string without its characters. -/
def Shape.present (value : Option String) : Option String := value.map fun _ => ""

/-- As many strings, with nothing in them. -/
def Shape.blanks (items : List String) : List String := items.map fun _ => ""

open Shape (present blanks)

/-- An entry in which every string is empty. -/
def Entry.shape (e : Entry) : Entry where
  title := ""
  organization := present e.organization
  location := present e.location
  startDate := present e.startDate
  endDate := present e.endDate
  items := e.items.map blanks

def SectionBody.shape : SectionBody → SectionBody
  | .list items => .list (blanks items)
  | .entries run => .entries (run.map Entry.shape)

def Section.shape (part : Section) : Section where
  title := ""
  body := part.body.shape

/-- A résumé in which every string is empty: which fields are present, which body each section has,
and how many sections, entries and items there are. -/
def Resume.shape (r : Resume) : Resume where
  name := present r.name
  address := present r.address
  email := present r.email
  phone := present r.phone
  sections := r.sections.map Section.shape

/-! ## A shape has the layout of what it is the shape of -/

/-- Fields with the same keys and with values of the same layout. -/
def FieldsAlike : List (String × Json) → List (String × Json) → Prop :=
  List.Forall₂ fun f g => f.1 = g.1 ∧ Alike f.2 g.2

theorem FieldsAlike.append {a a' b b' : List (String × Json)} (h : FieldsAlike a a') (hb : FieldsAlike b b') :
    FieldsAlike (a ++ b) (a' ++ b') :=
  List.rel_append h hb

theorem fieldsAlike_singleton (key : String) {j k : Json} (h : Alike j k) : FieldsAlike [(key, j)] [(key, k)] :=
  .cons ⟨rfl, h⟩ .nil

theorem fieldsAlike_optional (key : String) (value : Option String) :
    FieldsAlike (Json.optional key value) (Json.optional key (present value)) := by
  cases value with
  | none => exact .nil
  | some s => exact fieldsAlike_singleton key (alike_text s "")

/-- Members that are laid out as their shapes are make an array that is. -/
theorem alike_map {α : Type} {write : α → Json} {shape : α → α} (h : ∀ a, Alike (write a) (write (shape a)))
    (items : List α) : Alike (.array (items.map write)) (.array ((items.map shape).map write)) := by
  refine alike_array ?_
  rw [List.forall₂_map_left_iff, List.forall₂_map_right_iff, List.forall₂_map_right_iff]
  exact List.forall₂_same.2 fun a _ => h a

theorem alike_strings (items : List String) : Alike (Json.strings items) (Json.strings (blanks items)) :=
  alike_map (fun s => alike_text s "") items

theorem Entry.alike_shape (e : Entry) : Alike e.toJson e.shape.toJson := by
  have hlist : FieldsAlike (e.items.map fun items => ("list", Json.strings items)).toList
      (e.shape.items.map fun items => ("list", Json.strings items)).toList := by
    unfold Entry.shape
    cases e.items with
    | none => exact .nil
    | some items => exact fieldsAlike_singleton "list" (alike_strings items)
  have hfields := fieldsAlike_singleton "title" (alike_text e.title "")
    |>.append (fieldsAlike_optional "organization" e.organization)
    |>.append (fieldsAlike_optional "location" e.location)
    |>.append (fieldsAlike_optional "start_date" e.startDate)
    |>.append (fieldsAlike_optional "end_date" e.endDate)
  exact alike_object (hfields.append hlist)

theorem Section.alike_shape (part : Section) : Alike part.toJson part.shape.toJson := by
  refine alike_object (.cons ⟨rfl, alike_text part.title ""⟩ (.cons ?_ .nil))
  unfold Section.shape
  cases part.body with
  | list items => exact ⟨rfl, alike_strings items⟩
  | entries run => exact ⟨rfl, alike_map Entry.alike_shape run⟩

theorem Resume.field_shape (r : Resume) (f : IdentityField) : r.shape.field f = present (r.field f) := by
  cases f <;> rfl

theorem Resume.fieldsAlike_identity (r : Resume) :
    FieldsAlike (r.identity.flatMap fun p => Json.optional p.1.label p.2)
      (r.shape.identity.flatMap fun p => Json.optional p.1.label p.2) := by
  unfold Resume.identity
  induction IdentityField.all with
  | nil => exact .nil
  | cons f fields ih =>
    rw [List.map_cons, List.map_cons, List.flatMap_cons, List.flatMap_cons, r.field_shape]
    exact (fieldsAlike_optional f.label (r.field f)).append ih

/-- **The strings of a résumé have no part in its layout.** -/
theorem Resume.alike_shape (r : Resume) : Alike r.toJson r.shape.toJson := by
  have hsections := alike_map Section.alike_shape r.sections
  exact alike_object (r.fieldsAlike_identity.append (fieldsAlike_singleton "sections" hsections))

/-! ## Lines -/

/-- A text with these lines, each ended by a newline, once no string in it is looked into. It has
no other control character, and a brace is closed on its last line. -/
structure Json.LaidOut (text : String) (rows : List (List Piece)) : Prop where
  lines : (cut '\n' text.toList).map outline = (rows ++ [[]]).map some
  controls : ∀ c ∈ text.toList, c.toNat < 0x20 → c = '\n'
  closed : ∃ body, text.toList = body ++ ['}', '\n']

theorem Json.laidOut_pretty (fields : List (String × Json)) :
    LaidOut (pretty (.object fields)) (cut (.mark '\n') (layout 0 (.object fields))) where
  lines := by
    rw [map_outline_cut (outline_pretty _), Text.cut_append_cons]
    rfl
  controls := fun c hc => newline_of_outline (outline_pretty _) hc
  closed := by
    unfold pretty
    rw [String.toList_ofList]
    cases fields with
    | nil => exact ⟨['{'], rfl⟩
    | cons f fields => exact ⟨_, by rw [write, List.append_assoc]; rfl⟩

/-- **Résumés of one shape have the same lines**, whatever their strings are: the same number, each
equally far in, with the same keys, brackets and commas. -/
theorem Resume.laidOut_render (r r' : Resume) (h : r.shape = r'.shape) :
    ∃ rows, Json.Indented 0 rows ∧ Json.LaidOut (r.render .json) rows ∧ Json.LaidOut (r'.render .json) rows := by
  have hlayout : Json.layout 0 r.toJson = Json.layout 0 r'.toJson := by
    rw [r.alike_shape 0, h, ← r'.alike_shape 0]
  refine ⟨cut (.mark '\n') (Json.layout 0 r.toJson), Json.indented_layout r.toJson, Json.laidOut_pretty _, ?_⟩
  rw [hlayout]
  exact Json.laidOut_pretty _

/-! ### A résumé whose strings would break lines, close quotes and guard them -/

/-- A résumé of plain words. -/
def tidyResume : Resume where
  name := some "Somebody"
  sections := [
    { title := "Skills", body := .list ["Proofs", "Programs"] },
    { title := "Work", body := .entries [{ title := "Author", endDate := some "2020", items := some ["Notes"] }] }]

/-- A résumé of the same shape, of words that are full of what JSON is made of. -/
def unrulyResume : Resume where
  name := some "\"\n\x7d\n"
  sections := [
    { title := "\\", body := .list ["\\\"", "\x01\t[\r"] },
    { title := "", body := .entries [{ title := "a\": \x7b", endDate := some "\\\\\"", items := some ["],"] }] }]

theorem unrulyResume_laidOut : tidyResume.shape = unrulyResume.shape ∧ ∃ rows,
    Json.Indented 0 rows ∧ Json.LaidOut (tidyResume.render .json) rows ∧
      Json.LaidOut (unrulyResume.render .json) rows :=
  ⟨rfl, Resume.laidOut_render tidyResume unrulyResume rfl⟩

end Vitae
