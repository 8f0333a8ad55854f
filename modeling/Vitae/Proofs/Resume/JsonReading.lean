import Vitae.Proofs.Json.RoundTrip
import Vitae.Resume.Format

/-!
# Reading résumés from JSON

The inverse of the JSON rendering. A missing or null field is absent, a key that means nothing
is passed over, a key that is given twice is refused, and the body of a section is told by the
first of the keys `list` and `entries`.

* `Resume.ofJson?`: the résumé in a text.
* `ofJson?_render`: **the JSON rendering reads back as the résumé it was made from**, so no two
  résumés share one.
-/

namespace Vitae

open Json (Value)

namespace Json.Value

variable {α : Type}

/-- All that an object has under a key. -/
def under (key : String) (fields : List (String × Value)) : List Value :=
  (fields.filter (·.1 = key)).map (·.2)

/-- A field that has to be there. -/
def required? (read : Value → Option α) (key : String) (fields : List (String × Value)) : Option α :=
  match under key fields with
  | [v] => read v
  | _ => none

/-- A field that may be missing or null. -/
def optional? (read : Value → Option α) (key : String) (fields : List (String × Value)) :
    Option (Option α) :=
  match under key fields with
  | [] => some none
  | [.null] => some none
  | [v] => (read v).map some
  | _ => none

def text? : Value → Option String
  | .text s => some s
  | _ => none

/-- An array of what `read` reads. -/
def items? (read : Value → Option α) : Value → Option (List α)
  | .array items => items.mapM read
  | _ => none

end Json.Value

open Json.Value

/-- The entry that an object is. -/
def Entry.ofValue? : Value → Option Entry
  | .object fields => do
    return {
      title := ← required? text? "title" fields
      organization := ← optional? text? "organization" fields
      location := ← optional? text? "location" fields
      startDate := ← optional? text? "start_date" fields
      endDate := ← optional? text? "end_date" fields
      items := ← optional? (items? text?) "list" fields }
  | _ => none

/-- The body in the fields of a section: the first key that names one counts. -/
def SectionBody.ofFields? (fields : List (String × Value)) : Option SectionBody :=
  match fields.find? fun f => f.1 = "list" ∨ f.1 = "entries" with
  | some ("list", v) => (items? text? v).map .list
  | some (_, v) => (items? Entry.ofValue? v).map .entries
  | none => none

/-- The section that an object is. -/
def Section.ofValue? : Value → Option Section
  | .object fields => do
    return { title := ← required? text? "title" fields, body := ← SectionBody.ofFields? fields }
  | _ => none

/-- The résumé that an object is. -/
def Resume.ofValue? : Value → Option Resume
  | .object fields => do
    return {
      name := ← optional? text? "name" fields
      address := ← optional? text? "address" fields
      email := ← optional? text? "email" fields
      phone := ← optional? text? "phone" fields
      sections := ← required? (items? Section.ofValue?) "sections" fields }
  | _ => none

/-- The résumé that a JSON text is. -/
def Resume.ofJson? (text : String) : Option Resume := (Value.ofText? text).bind Resume.ofValue?

/-! ## Fields -/

section Fields

variable {α : Type} {read : Value → Option α} {key : String} {fields : List (String × Value)}

theorem under_append (key : String) (fields more : List (String × Value)) :
    under key (fields ++ more) = under key fields ++ under key more := by
  unfold under
  rw [List.filter_append, List.map_append]

theorem under_singleton (key k : String) (v : Value) : under key [(k, v)] = if k = key then [v] else [] := by
  unfold under
  split <;> simp_all

/-- A field that is written only where there is something to write. -/
theorem under_written {β : Type} (key k : String) (x : Option β) (write : β → Json) :
    under key (((x.map fun a => (k, write a)).toList).map fun f => (f.1, f.2.value)) =
      if k = key then (x.map fun a => (write a).value).toList else [] := by
  unfold under
  cases x with
  | none => simp
  | some a => split <;> simp_all

theorem required?_eq {v : Value} (h : under key fields = [v]) : required? read key fields = read v := by
  unfold required?
  rw [h]

/-- What is written where there is something reads back, and so does its absence. -/
theorem optional?_eq {x : Option α} {write : α → Json} (h : under key fields = (x.map fun a => (write a).value).toList)
    (hread : ∀ a, read (write a).value = some a) (hnull : ∀ a, (write a).value ≠ .null) :
    optional? read key fields = some x := by
  unfold optional?
  rw [h]
  cases x with
  | none => rfl
  | some a =>
    simp only [Option.map_some, Option.toList_some]
    split
    · rename_i heq
      cases heq
    · rename_i heq
      exact absurd (List.cons.inj heq).1 (hnull a)
    · rename_i heq
      rw [← (List.cons.inj heq).1, hread]
      rfl
    · rename_i hmany
      exact absurd rfl (hmany _)

theorem items?_map {write : α → Json} (hread : ∀ a, read (write a).value = some a) (xs : List α) :
    items? read (Json.array (xs.map write)).value = some xs := by
  rw [Json.value_array, List.map_map]
  unfold items?
  simp only
  induction xs with
  | nil => rfl
  | cons x xs ih =>
    rw [List.map_cons, List.mapM_cons, ih]
    simp only [Function.comp_apply]
    rw [hread]
    rfl

end Fields

theorem text?_text (s : String) : text? (Json.text s).value = some s := rfl

theorem text_ne_null (s : String) : (Json.text s).value ≠ .null := nofun

theorem items?_strings (items : List String) : items? text? (Json.strings items).value = some items :=
  items?_map text?_text items

theorem strings_ne_null (items : List String) : (Json.strings items).value ≠ .null := nofun

/-! ## Entries, sections, résumés -/

/-- What an entry has under a key. -/
theorem Entry.under_toJson (e : Entry) : ∃ fields, e.toJson.value = .object fields ∧ ∀ key,
    under key fields =
      (if "title" = key then [(Json.text e.title).value] else []) ++
      (if "organization" = key then (e.organization.map fun s => (Json.text s).value).toList else []) ++
      (if "location" = key then (e.location.map fun s => (Json.text s).value).toList else []) ++
      (if "start_date" = key then (e.startDate.map fun s => (Json.text s).value).toList else []) ++
      (if "end_date" = key then (e.endDate.map fun s => (Json.text s).value).toList else []) ++
      (if "list" = key then (e.items.map fun items => (Json.strings items).value).toList else []) := by
  refine ⟨_, Json.value_object _, ?_⟩
  intro key
  simp only [List.map_append, List.map_cons, List.map_nil, Json.optional, under_append, under_singleton,
    under_written]

theorem Entry.ofValue?_toJson (e : Entry) : Entry.ofValue? e.toJson.value = some e := by
  obtain ⟨fields, hvalue, hunder⟩ := e.under_toJson
  have htitle : required? text? "title" fields = some e.title :=
    required?_eq (v := (Json.text e.title).value) (by rw [hunder]; simp)
  have horganization : optional? text? "organization" fields = some e.organization :=
    optional?_eq (by rw [hunder]; simp) text?_text text_ne_null
  have hlocation : optional? text? "location" fields = some e.location :=
    optional?_eq (by rw [hunder]; simp) text?_text text_ne_null
  have hstart : optional? text? "start_date" fields = some e.startDate :=
    optional?_eq (by rw [hunder]; simp) text?_text text_ne_null
  have hend : optional? text? "end_date" fields = some e.endDate :=
    optional?_eq (by rw [hunder]; simp) text?_text text_ne_null
  have hitems : optional? (items? text?) "list" fields = some e.items :=
    optional?_eq (by rw [hunder]; simp) items?_strings strings_ne_null
  rw [hvalue]
  unfold Entry.ofValue?
  simp only
  rw [htitle, horganization, hlocation, hstart, hend, hitems]
  rfl

theorem SectionBody.ofFields?_toField (body : SectionBody) (title : Json) :
    SectionBody.ofFields? [("title", title.value), (body.toField.1, body.toField.2.value)] = some body := by
  cases body with
  | list items =>
    show (items? text? (Json.strings items).value).map SectionBody.list = _
    rw [items?_strings]
    rfl
  | entries run =>
    show (items? Entry.ofValue? (Json.array (run.map Entry.toJson)).value).map SectionBody.entries = _
    rw [items?_map Entry.ofValue?_toJson]
    rfl

theorem Section.ofValue?_toJson (s : Section) : Section.ofValue? s.toJson.value = some s := by
  have hkey : s.body.toField.1 ≠ "title" := by
    cases s.body <;> simp [SectionBody.toField]
  have htitle : required? text? "title"
      [("title", (Json.text s.title).value), (s.body.toField.1, s.body.toField.2.value)] = some s.title :=
    required?_eq (v := (Json.text s.title).value) (by simp [under, hkey])
  unfold Section.toJson
  rw [Json.value_object]
  unfold Section.ofValue?
  simp only [List.map_cons, List.map_nil]
  rw [htitle, SectionBody.ofFields?_toField]
  rfl

/-- What a résumé has under a key. -/
theorem Resume.under_toJson (r : Resume) : ∃ fields, r.toJson.value = .object fields ∧ ∀ key,
    under key fields =
      (if "name" = key then (r.name.map fun s => (Json.text s).value).toList else []) ++
      (if "address" = key then (r.address.map fun s => (Json.text s).value).toList else []) ++
      (if "email" = key then (r.email.map fun s => (Json.text s).value).toList else []) ++
      (if "phone" = key then (r.phone.map fun s => (Json.text s).value).toList else []) ++
      (if "sections" = key then [(Json.array (r.sections.map Section.toJson)).value] else []) := by
  refine ⟨_, Json.value_object _, ?_⟩
  intro key
  simp only [Resume.identity, IdentityField.all, IdentityField.label, Resume.field, List.map_append, List.map_cons,
    List.map_nil, List.flatMap_cons, List.flatMap_nil, List.append_nil, Json.optional, under_append,
    under_singleton, under_written]
  simp only [List.append_assoc]

theorem Resume.ofValue?_toJson (r : Resume) : Resume.ofValue? r.toJson.value = some r := by
  obtain ⟨fields, hvalue, hunder⟩ := r.under_toJson
  have hname : optional? text? "name" fields = some r.name :=
    optional?_eq (by rw [hunder]; simp) text?_text text_ne_null
  have haddress : optional? text? "address" fields = some r.address :=
    optional?_eq (by rw [hunder]; simp) text?_text text_ne_null
  have hemail : optional? text? "email" fields = some r.email :=
    optional?_eq (by rw [hunder]; simp) text?_text text_ne_null
  have hphone : optional? text? "phone" fields = some r.phone :=
    optional?_eq (by rw [hunder]; simp) text?_text text_ne_null
  have hsections : required? (items? Section.ofValue?) "sections" fields = some r.sections := by
    rw [required?_eq (v := (Json.array (r.sections.map Section.toJson)).value) (by rw [hunder]; simp)]
    exact items?_map Section.ofValue?_toJson r.sections
  rw [hvalue]
  unfold Resume.ofValue?
  simp only
  rw [hname, haddress, hemail, hphone, hsections]
  rfl

theorem Resume.ofJson?_json (r : Resume) : Resume.ofJson? r.json = some r := by
  unfold Resume.ofJson? Resume.json
  rw [Json.ofText?_pretty]
  exact r.ofValue?_toJson

/-- **The JSON rendering reads back as the résumé it was made from**, whatever its strings hold and
whichever of its fields are absent or empty. So no two résumés have the same rendering. -/
theorem Resume.ofJson?_render (r other : Resume) :
    Resume.ofJson? (r.render .json) = some r ∧ (r.render .json = other.render .json ↔ r = other) := by
  refine ⟨r.ofJson?_json, ?_⟩
  constructor
  · intro h
    have hread := congrArg Resume.ofJson? h
    have hr : Resume.ofJson? (r.render .json) = some r := r.ofJson?_json
    have hother : Resume.ofJson? (other.render .json) = some other := other.ofJson?_json
    rw [hr, hother] at hread
    exact Option.some.inj hread
  · rintro rfl
    rfl

end Vitae
