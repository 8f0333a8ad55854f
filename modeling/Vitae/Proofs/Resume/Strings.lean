import Vitae.Proofs.Resume.JsonReading
import Vitae.Proofs.Resume.Walk

/-!
# The strings of the two renderings

Which strings of a résumé are put out, and in which order. A JSON value has its strings in the
order in which they are written; plain text has those of its lines that are no layout.

* `Value.joinDates`: a JSON résumé in which the dates of each entry are one date line.
* `Line.Shows`: what is left out of a line that shows a string, and of one that shows none.
* `render_strings`: **the two renderings have the same strings in the same order**, once the
  dates are joined.
-/

namespace Vitae

open Json (Value)

namespace Json.Value

/-! ## The strings of a JSON value -/

mutual

/-- The strings of a value in the order in which they are written, keys apart. -/
def strings : Value → List String
  | .text s => [s]
  | .array items => itemStrings items
  | .object fields => fieldStrings fields
  | .null | .bool _ | .number _ => []

def itemStrings : List Value → List String
  | [] => []
  | item :: items => strings item ++ itemStrings items

def fieldStrings : List (String × Value) → List String
  | [] => []
  | (_, item) :: fields => strings item ++ fieldStrings fields

end

theorem strings_array (items : List Value) : (Value.array items).strings = items.flatMap strings := by
  rw [strings]
  induction items with
  | nil => rfl
  | cons item items ih => rw [itemStrings, ih, List.flatMap_cons]

theorem strings_object (fields : List (String × Value)) :
    (Value.object fields).strings = fields.flatMap fun f => f.2.strings := by
  rw [strings]
  induction fields with
  | nil => rfl
  | cons f fields ih => rw [fieldStrings, ih, List.flatMap_cons]

/-! ## Joining dates -/

/-- Changes each item of an array. -/
def mapItems (g : Value → Value) : Value → Value
  | .array items => .array (items.map g)
  | v => v

/-- Changes what an object has under a key. -/
def mapUnder (key : String) (g : Value → Value) : Value → Value
  | .object fields => .object (fields.map fun f => if f.1 = key then (f.1, g f.2) else f)
  | v => v

/-- What stands for a field of an entry once its dates are joined: the date line for the first of
the dates, nothing for the other, all else as it is. -/
def joinedField (dates : List (String × Value)) (started : Bool) (f : String × Value) : List (String × Value) :=
  if f.1 = "start_date" then dates
  else if f.1 = "end_date" then if started then [] else dates
  else [f]

/-- An entry with its date line, if it has one, in place of its dates. -/
def joinEntryDates : Value → Value
  | .object fields =>
    let dateLine := (Entry.ofValue? (.object fields)).bind Entry.dateRange
    let dates := dateLine.toList.map fun s => ("dates", .text s)
    .object (fields.flatMap (joinedField dates (fields.any (·.1 = "start_date"))))
  | v => v

/-- A résumé with a date line in place of the dates of each entry. -/
def joinDates (resume : Value) : Value :=
  resume.mapUnder "sections" (mapItems (mapUnder "entries" (mapItems joinEntryDates)))

end Json.Value

open Json.Value

/-! ## The strings of plain text -/

/-- What stands before an item. -/
def bulletMark : String := "  * "

/-- The string that a line shows: blank lines and rules show none, and a bullet shows what stands
after its mark. -/
def Line.string? (l : Line) : Option String :=
  match l with
  | .blank | .rule _ _ => none
  | .text _ => some l.content
  | .bullet _ => some (String.ofList (l.content.toList.drop bulletMark.length))

/-- A string is all that a line holds, or all that follows the mark of an item. A line without one is
blank or a rule. -/
def Line.Shows (l : Line) : Option String → Prop
  | some s => l.content = s ∨ l.content = bulletMark ++ s
  | none => l.content = "" ∨ ∃ mark ∈ ['=', '-'], ∃ n, l.content = String.ofList (List.replicate n mark)

theorem string?_bullet (item : String) : (Line.bullet item).string? = some item := by
  have hcontent : (Line.bullet item).content.toList = bulletMark.toList ++ item.toList := by
    unfold Line.content bulletMark
    rw [String.toList_append]
  unfold Line.string?
  simp only
  rw [hcontent, ← String.length_toList, List.drop_left, String.ofList_toList]

theorem filterMap_heading (title : String) (mark : Char) :
    (heading title mark).filterMap Line.string? = [title] := rfl

/-- The strings that are printed of an entry, its items apart. -/
theorem filterMap_details (e : Entry) : e.details.filterMap Line.string? =
    e.organization.toList ++ e.location.toList ++ e.dateRange.toList := by
  unfold Entry.details
  cases e.organization <;> cases e.location <;> cases e.dateRange <;> rfl

theorem shows_heading {title : String} {mark : Char} (hmark : mark ∈ ['=', '-']) :
    ∀ l ∈ heading title mark, l.Shows l.string? := by
  intro l hl
  simp only [heading, List.mem_cons, List.not_mem_nil, or_false] at hl
  rcases hl with rfl | rfl | rfl
  · exact Or.inl rfl
  · exact Or.inl rfl
  · exact Or.inr ⟨mark, hmark, title.length, rfl⟩

theorem shows_details (e : Entry) : ∀ l ∈ e.details, l.Shows l.string? := by
  intro l hl
  obtain ⟨field, -, hfield⟩ := List.mem_filterMap.1 hl
  obtain ⟨s, -, rfl⟩ := Option.map_eq_some_iff.1 hfield
  exact Or.inl rfl

/-- Each line that is printed at a call shows its string, if it has one, and is layout else. -/
theorem Call.shows_lines (call : Call) : ∀ l ∈ call.lines, l.Shows l.string? := by
  cases call with
  | identity _ value => exact List.forall_mem_singleton.2 (Or.inl rfl)
  | enterSection part => exact shows_heading (by decide)
  | enterEntry e => exact List.forall_mem_append.2 ⟨shows_heading (by decide), shows_details e⟩
  | item content =>
    refine List.forall_mem_singleton.2 ?_
    rw [string?_bullet]
    exact Or.inr rfl
  | leaveSection _ => exact List.forall_mem_nil _
  | leaveEntry _ => exact List.forall_mem_nil _

theorem Resume.shows_lines (r : Resume) : ∀ l ∈ r.lines, l.Shows l.string? := by
  intro l hl
  rw [Resume.lines_eq_visits] at hl
  obtain ⟨call, -, hcall⟩ := List.mem_flatMap.1 hl
  exact call.shows_lines l hcall

/-- The strings that are printed at a call. -/
def Call.strings : Call → List String
  | .identity _ value => [value]
  | .enterSection part => [part.title]
  | .enterEntry e => e.title :: (e.organization.toList ++ e.location.toList ++ e.dateRange.toList)
  | .item content => [content]
  | .leaveSection _ | .leaveEntry _ => []

theorem filterMap_lines (call : Call) : call.lines.filterMap Line.string? = call.strings := by
  cases call with
  | enterEntry e =>
    unfold Call.lines Call.strings
    rw [List.filterMap_append, filterMap_heading, filterMap_details]
    rfl
  | item content =>
    unfold Call.lines Call.strings
    rw [List.filterMap_cons_some (string?_bullet content), List.filterMap_nil]
  | _ => rfl

theorem Resume.strings_lines (r : Resume) : r.lines.filterMap Line.string? = r.visits.flatMap Call.strings := by
  rw [Resume.lines_eq_visits, List.filterMap_flatMap]
  exact congrArg (r.visits.flatMap ·) (funext filterMap_lines)

theorem flatMap_visitItems (items : List String) : (items.map Call.item).flatMap Call.strings = items := by
  rw [List.flatMap_map]
  exact List.flatMap_singleton' items

/-! ## Part by part -/

theorem strings_strings (items : List String) : (Json.strings items).value.strings = items := by
  unfold Json.strings
  rw [Json.value_array, strings_array, List.map_map, List.flatMap_map]
  exact List.flatMap_singleton' items

theorem strings_optional (key : String) (x : Option String) :
    ((Json.optional key x).map fun f => (f.1, f.2.value)).flatMap (fun f => f.2.strings) = x.toList := by
  cases x <;> rfl

/-- The fields of an entry around its dates. -/
theorem Entry.toJson_value (e : Entry) : ∃ front back : List (String × Value),
    e.toJson.value = .object (front ++ ((Json.optional "start_date" e.startDate ++
      Json.optional "end_date" e.endDate).map fun f => (f.1, f.2.value)) ++ back) ∧
    (∀ f ∈ front ++ back, f.1 ≠ "start_date" ∧ f.1 ≠ "end_date") ∧
    front.flatMap (fun f => f.2.strings) = e.title :: (e.organization.toList ++ e.location.toList) ∧
    back.flatMap (fun f => f.2.strings) = e.items.getD [] := by
  refine ⟨([("title", Json.text e.title)] ++ Json.optional "organization" e.organization ++
      Json.optional "location" e.location).map fun f => (f.1, f.2.value),
    (e.items.map fun items => ("list", Json.strings items)).toList.map fun f => (f.1, f.2.value), ?_, ?_, ?_, ?_⟩
  · unfold Entry.toJson
    rw [Json.value_object]
    simp only [List.map_append, List.append_assoc]
  · unfold Json.optional
    cases e.organization <;> cases e.location <;> cases e.items <;> simp
  · rw [List.map_append, List.map_append, List.flatMap_append, List.flatMap_append, strings_optional,
      strings_optional]
    rfl
  · cases e.items with
    | none => rfl
    | some items =>
      show (Json.strings items).value.strings ++ [] = items
      rw [List.append_nil, strings_strings]

/-- A field that is no date stays as it is. -/
theorem flatMap_joinedField {dates fields : List (String × Value)} {started : Bool}
    (h : ∀ f ∈ fields, f.1 ≠ "start_date" ∧ f.1 ≠ "end_date") :
    fields.flatMap (joinedField dates started) = fields := by
  induction fields with
  | nil => rfl
  | cons f fields ih =>
    obtain ⟨hf, hfields⟩ := List.forall_mem_cons.1 h
    rw [List.flatMap_cons, ih hfields]
    unfold joinedField
    rw [if_neg hf.1, if_neg hf.2]
    rfl

/-- The dates that are written become the date line, wherever the first of them stands. -/
theorem flatMap_joinedField_dates (e : Entry) {dates : List (String × Value)}
    (hdates : dates = e.dateRange.toList.map fun s => ("dates", .text s)) :
    ((Json.optional "start_date" e.startDate ++ Json.optional "end_date" e.endDate).map
      fun f => (f.1, f.2.value)).flatMap (joinedField dates e.startDate.isSome) = dates := by
  subst hdates
  unfold Entry.dateRange
  cases e.startDate <;> cases e.endDate <;> rfl

theorem any_startDate {front back : List (String × Value)} (e : Entry)
    (h : ∀ f ∈ front ++ back, f.1 ≠ "start_date" ∧ f.1 ≠ "end_date") :
    (front ++ ((Json.optional "start_date" e.startDate ++ Json.optional "end_date" e.endDate).map
      fun f => (f.1, f.2.value)) ++ back).any (·.1 = "start_date") = e.startDate.isSome := by
  have hfront : front.any (·.1 = "start_date") = false := by
    simpa using fun f hf => (h f (List.mem_append_left _ hf)).1
  have hback : back.any (·.1 = "start_date") = false := by
    simpa using fun f hf => (h f (List.mem_append_right _ hf)).1
  rw [List.any_append, List.any_append, hfront, hback]
  cases e.startDate <;> cases e.endDate <;> rfl

/-- **An entry shows the same strings in both renderings.** -/
theorem Entry.strings_joinEntryDates (e : Entry) :
    (joinEntryDates e.toJson.value).strings = e.visits.flatMap Call.strings := by
  have hread := e.ofValue?_toJson
  have hvisits : e.visits.flatMap Call.strings = e.title :: (e.organization.toList ++ e.location.toList ++
      e.dateRange.toList ++ e.items.getD []) := by
    unfold Entry.visits
    rw [List.flatMap_cons, List.flatMap_append, flatMap_visitItems]
    simp [Call.strings]
  have hdates : (e.dateRange.toList.map fun s => ("dates", Value.text s)).flatMap (fun f => f.2.strings) =
      e.dateRange.toList := by
    cases e.dateRange <;> rfl
  obtain ⟨front, back, hvalue, hother, hfront, hback⟩ := e.toJson_value
  have hothers := List.forall_mem_append.1 hother
  -- around the dates all fields stay, and the dates become what the calls show for them
  rw [hvalue] at hread ⊢
  unfold joinEntryDates
  simp only
  rw [hread, Option.bind_some, any_startDate e hother, List.flatMap_append, List.flatMap_append,
    flatMap_joinedField hothers.1, flatMap_joinedField hothers.2, flatMap_joinedField_dates e rfl,
    strings_object, List.flatMap_append, List.flatMap_append, hfront, hback, hdates, hvisits]
  simp only [List.cons_append, List.append_assoc]

/-- What is done to each item of an array shows in its strings. -/
theorem strings_mapItems {α : Type} {write : α → Json} {visits : α → List Call} {g : Value → Value}
    (h : ∀ a, (g (write a).value).strings = (visits a).flatMap Call.strings) (xs : List α) :
    ((Json.array (xs.map write)).value.mapItems g).strings = (xs.flatMap visits).flatMap Call.strings := by
  rw [Json.value_array]
  unfold mapItems
  simp only
  rw [strings_array, List.map_map, List.map_map, List.flatMap_map, List.flatMap_assoc]
  exact congrArg (xs.flatMap ·) (funext h)

/-- **A section shows the same strings in both renderings.** -/
theorem Section.strings_joinDates (s : Section) :
    (s.toJson.value.mapUnder "entries" (mapItems joinEntryDates)).strings = s.visits.flatMap Call.strings := by
  have hvisits : s.visits.flatMap Call.strings = s.title :: s.body.visits.flatMap Call.strings := by
    unfold Section.visits
    rw [List.flatMap_cons, List.flatMap_append]
    simp [Call.strings]
  unfold Section.toJson
  rw [Json.value_object]
  cases hbody : s.body with
  | list items =>
    -- a list is not under the key that holds entries
    show (Value.text s.title).strings ++ ((Json.strings items).value.strings ++ []) = _
    rw [hvisits, hbody, List.append_nil, strings_strings]
    unfold SectionBody.visits
    rw [flatMap_visitItems]
    rfl
  | entries run =>
    show (Value.text s.title).strings ++
      (((Json.array (run.map Entry.toJson)).value.mapItems joinEntryDates).strings ++ []) = _
    rw [hvisits, hbody, List.append_nil, strings_mapItems Entry.strings_joinEntryDates]
    rfl

/-- An identity field shows its value in both renderings, if it has one. -/
theorem strings_identity (r : Resume) :
    ((r.identity.flatMap fun present => Json.optional present.1.label present.2).map
      fun f => (f.1, f.2.value)).flatMap (fun f => f.2.strings) =
      (r.identity.flatMap fun present => visitField present.1 present.2).flatMap Call.strings := by
  rw [List.map_flatMap, List.flatMap_assoc, List.flatMap_assoc]
  refine congrArg (r.identity.flatMap ·) (funext ?_)
  rintro ⟨f, value⟩
  rw [strings_optional]
  cases value <;> rfl

/-- Under the last key of an object only the last value changes. -/
theorem mapUnder_last {key : String} {g : Value → Value} {fields : List (String × Value)} {v : Value}
    (h : ∀ f ∈ fields, f.1 ≠ key) :
    (Value.object (fields ++ [(key, v)])).mapUnder key g = .object (fields ++ [(key, g v)]) := by
  have hfields : (fields.map fun f => if f.1 = key then (f.1, g f.2) else f) = fields := by
    rw [List.map_congr_left fun f hf => if_neg (h f hf), List.map_id']
  unfold mapUnder
  simp only
  rw [List.map_append, hfields, List.map_singleton, if_pos rfl]

theorem Resume.identity_key_ne (r : Resume) : ∀ f ∈ (r.identity.flatMap fun present =>
    Json.optional present.1.label present.2).map fun f => (f.1, f.2.value), f.1 ≠ "sections" := by
  intro f hf
  obtain ⟨g, hg, rfl⟩ := List.mem_map.1 hf
  obtain ⟨⟨field, value⟩, -, hg⟩ := List.mem_flatMap.1 hg
  have hkey : g.1 = field.label := by
    cases value with
    | none => cases hg
    | some s => rw [List.mem_singleton.1 hg]
  rw [hkey]
  cases field <;> decide

/-- **A résumé shows the same strings in both renderings.** -/
theorem Resume.strings_joinDates (r : Resume) : r.toJson.value.joinDates.strings = r.visits.flatMap Call.strings := by
  have hsections := strings_mapItems Section.strings_joinDates r.sections
  unfold Resume.toJson joinDates
  rw [Json.value_object, List.map_append, List.map_singleton, mapUnder_last r.identity_key_ne, strings_object,
    List.flatMap_append, strings_identity]
  unfold Resume.visits
  rw [List.flatMap_append, ← hsections, List.flatMap_singleton]

/-- **The two renderings agree.** The plain text is its lines, each ended by a line feed; a line is a
string, or a string after the mark of an item, or a blank line or a rule of `=` or `-`, which show none.
The JSON rendering is a JSON value, and its strings, with a date line in place of the dates of each
entry, are one by one and in the same order the strings that the lines show. -/
theorem Resume.render_strings (r : Resume) :
    r.render .text = String.join (r.lines.map fun l => l.content ++ "\n") ∧
      (∀ l ∈ r.lines, l.Shows l.string?) ∧
      ∃ v, Value.ofText? (r.render .json) = some v ∧ v.joinDates.strings = r.lines.filterMap Line.string? := by
  refine ⟨congrArg String.join List.map_map, r.shows_lines, r.toJson.value, Json.ofText?_pretty r.toJson, ?_⟩
  rw [r.strings_joinDates, r.strings_lines]

end Vitae
