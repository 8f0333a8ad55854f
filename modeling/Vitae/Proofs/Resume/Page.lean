import Vitae.Proofs.Resume.Walk

/-!
# The page of a résumé

What a résumé looks like in plain text, said line by line from the résumé itself, with no walk
and no kinds of lines in between.

* `Resume.page`: the lines, level by level.
* `Resume.plainText_eq_page`: **plain text is the page, each line ended by a line feed.**
-/

namespace Vitae

/-! ## The page -/

/-- One mark for each character of a title. -/
def underline (mark : Char) (title : String) : String := String.ofList (title.toList.map fun _ => mark)

/-- The line of an item. -/
def bulletLine (item : String) : String := "  * " ++ item

/-- The line of two dates. The end calls for a dash, the start alone for none. -/
def dateLine (start stop : Option String) : List String :=
  match stop with
  | some stop => [start.getD "" ++ " -- " ++ stop]
  | none => start.toList

/-- The lines of an entry, the blank one above it first. -/
def Entry.page (e : Entry) : List String :=
  ["", e.title, underline '-' e.title] ++ e.organization.toList ++ e.location.toList ++
    dateLine e.startDate e.endDate ++ (e.items.getD []).map bulletLine

/-- The lines of what a section holds. -/
def SectionBody.page : SectionBody → List String
  | .list items => items.map bulletLine
  | .entries run => run.flatMap Entry.page

/-- The lines of a section, the blank one above it first. -/
def Section.page (part : Section) : List String :=
  ["", part.title, underline '=' part.title] ++ part.body.page

/-- The lines of a résumé: those identity fields that are present, then the sections. -/
def Resume.page (r : Resume) : List String :=
  r.name.toList ++ r.address.toList ++ r.email.toList ++ r.phone.toList ++ r.sections.flatMap Section.page

/-! ## What is printed at the calls of a walk -/

/-- What is printed at some calls. -/
def printed (calls : List Call) : List String := (calls.flatMap Call.lines).map Line.content

theorem printed_append (calls more : List Call) : printed (calls ++ more) = printed calls ++ printed more := by
  unfold printed
  rw [List.flatMap_append, List.map_append]

theorem printed_cons (call : Call) (calls : List Call) :
    printed (call :: calls) = call.lines.map Line.content ++ printed calls :=
  (printed_append [call] calls).trans (by simp only [printed, List.flatMap_singleton])

/-- What is printed at the calls of each part of something is printed part by part. -/
theorem printed_flatMap {α : Type} {visits : α → List Call} {page : α → List String}
    (h : ∀ a, printed (visits a) = page a) (parts : List α) :
    printed (parts.flatMap visits) = parts.flatMap page := by
  induction parts with
  | nil => rfl
  | cons a parts ih => rw [List.flatMap_cons, printed_append, h, ih, List.flatMap_cons]

theorem printed_items (items : List String) : printed (items.map .item) = items.map bulletLine := by
  have hitem : ∀ item, printed [.item item] = [bulletLine item] := fun _ => rfl
  have hitems := printed_flatMap hitem items
  rwa [← List.map_eq_flatMap, ← List.map_eq_flatMap] at hitems

theorem rule_content (mark : Char) (title : String) :
    (Line.rule mark title.length).content = underline mark title := by
  unfold Line.content underline
  rw [List.map_const', String.length_toList]

theorem heading_content (title : String) (mark : Char) :
    (heading title mark).map Line.content = ["", title, underline mark title] := by
  unfold heading
  rw [List.map_cons, List.map_cons, List.map_cons, rule_content]
  rfl

theorem toList_dateRange (e : Entry) : e.dateRange.toList = dateLine e.startDate e.endDate := by
  unfold Entry.dateRange dateLine
  cases e.startDate <;> cases e.endDate <;> rfl

/-- Of the details of an entry those are printed that are present. -/
theorem details_content (e : Entry) : e.details.map Line.content =
    e.organization.toList ++ e.location.toList ++ dateLine e.startDate e.endDate := by
  rw [← toList_dateRange]
  unfold Entry.details
  cases e.organization <;> cases e.location <;> cases e.dateRange <;> rfl

theorem printed_entry (e : Entry) : printed e.visits = e.page := by
  have henter : (Call.enterEntry e).lines.map Line.content = ["", e.title, underline '-' e.title] ++
      (e.organization.toList ++ e.location.toList ++ dateLine e.startDate e.endDate) := by
    unfold Call.lines
    rw [List.map_append, heading_content, details_content]
  have hleave : printed [.leaveEntry e] = [] := rfl
  unfold Entry.visits Entry.page
  rw [printed_cons, printed_append, henter, hleave, printed_items]
  simp only [List.append_assoc, List.append_nil]

theorem printed_body (body : SectionBody) : printed body.visits = body.page := by
  cases body with
  | list items => exact printed_items items
  | entries run => exact printed_flatMap printed_entry run

theorem printed_section (part : Section) : printed part.visits = part.page := by
  have henter : (Call.enterSection part).lines.map Line.content =
      ["", part.title, underline '=' part.title] := heading_content part.title '='
  have hleave : printed [.leaveSection part] = [] := rfl
  unfold Section.visits Section.page
  rw [printed_cons, printed_append, henter, hleave, printed_body, List.append_nil]

/-- A field that is present is printed as it is, also if it is empty; one that is absent is not. -/
theorem printed_field (f : IdentityField) (value : Option String) :
    printed (visitField f value) = value.toList := by
  cases value <;> rfl

theorem printed_identity (r : Resume) :
    printed (r.identity.flatMap fun present => visitField present.1 present.2) =
      r.name.toList ++ r.address.toList ++ r.email.toList ++ r.phone.toList := by
  have hfield : ∀ present : IdentityField × Option String,
      printed (visitField present.1 present.2) = present.2.toList := by
    intro present
    exact printed_field present.1 present.2
  rw [printed_flatMap hfield]
  unfold Resume.identity IdentityField.all
  simp only [List.map_cons, List.map_nil, List.flatMap_cons, List.flatMap_nil, List.append_nil,
    List.append_assoc]
  rfl

/-- **Plain text is the page**: its lines in order, each followed by one line feed. -/
theorem Resume.plainText_eq_page (r : Resume) :
    r.plainText = String.join (r.page.map fun line => line ++ "\n") := by
  have hlines : r.lines.map Line.content = r.page := by
    rw [Resume.lines_eq_visits]
    show printed r.visits = r.page
    unfold Resume.visits Resume.page
    rw [printed_append, printed_identity, printed_flatMap printed_section]
  unfold Resume.plainText Text.unlines
  rw [hlines]

/-- A title is underlined by its characters, not its bytes, and an empty name has a line. -/
example : ({ name := some "", sections := [{ title := "Café" }] } : Resume).page =
    ["", "", "Café", "===="] := by decide

end Vitae
