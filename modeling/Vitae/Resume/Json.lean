import Vitae.Json
import Vitae.Resume.Basic

/-!
# Résumés as JSON

Keys come in the fixed order of the fields. An absent field has no key; a section
has the key `list` or the key `entries`, which tells its two bodies apart even
when they are empty.

* `Resume.toJson`: the value of a résumé.
* `Resume.json`: its text.
-/

namespace Vitae

/-- The field of an optional string: none when it is absent. -/
def Json.optional (key : String) (value : Option String) : List (String × Json) :=
  (value.map fun s => (key, Json.text s)).toList

/-- A bullet list as an array of strings. -/
def Json.strings (items : List String) : Json := .array (items.map .text)

/-- An entry as an object. -/
def Entry.toJson (e : Entry) : Json :=
  .object <|
    [("title", .text e.title)]
      ++ Json.optional "organization" e.organization
      ++ Json.optional "location" e.location
      ++ Json.optional "start_date" e.startDate
      ++ Json.optional "end_date" e.endDate
      ++ (e.items.map fun items => ("list", Json.strings items)).toList

/-- The one field that holds what is in a section. -/
def SectionBody.toField : SectionBody → String × Json
  | .list items => ("list", Json.strings items)
  | .entries run => ("entries", .array (run.map Entry.toJson))

/-- A section as an object. -/
def Section.toJson (part : Section) : Json :=
  .object [("title", .text part.title), part.body.toField]

/-- A résumé as an object. -/
def Resume.toJson (r : Resume) : Json :=
  .object <|
    r.identity.flatMap (fun present => Json.optional present.1.label present.2)
      ++ [("sections", .array (r.sections.map Section.toJson))]

/-- A résumé as JSON text. -/
def Resume.json (r : Resume) : String := r.toJson.pretty

end Vitae
