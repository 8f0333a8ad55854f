/-!
# Résumés

The document that the rest of the library reads, walks and renders: identity
fields and titled sections, each section holding one bullet list or a run of
entries, never both.

* `Resume.field_setField`: reading a field back after it was set.
* `Resume.identity`: the four identity fields in the order all output keeps.
* `Entry.dateRange`: the one line that stands for both dates of an entry.
-/

namespace Vitae

/-- The fields that say whose résumé it is. -/
inductive IdentityField where
  | name | address | email | phone
  deriving DecidableEq

/-- The name of a field, as a tag in a document and as a key in JSON. -/
def IdentityField.label : IdentityField → String
  | .name => "name"
  | .address => "address"
  | .email => "email"
  | .phone => "phone"

/-- The identity fields in their fixed order. -/
def IdentityField.all : List IdentityField := [.name, .address, .email, .phone]

/-- The text fields of an entry, its title apart. -/
inductive EntryField where
  | organization | location | startDate | endDate
  deriving DecidableEq

/-- A dated part of a section: a job, a degree, a project. An absent list and an empty
one differ, as do an absent field and an empty one. -/
structure Entry where
  title : String
  organization : Option String := none
  location : Option String := none
  startDate : Option String := none
  endDate : Option String := none
  items : Option (List String) := none
  deriving DecidableEq

/-- A section holds one bullet list or a run of entries. -/
inductive SectionBody where
  | list (items : List String)
  | entries (entries : List Entry)
  deriving DecidableEq

/-- A titled part of a résumé. -/
structure Section where
  title : String
  body : SectionBody := .entries []
  deriving DecidableEq

/-- A résumé. -/
structure Resume where
  name : Option String := none
  address : Option String := none
  email : Option String := none
  phone : Option String := none
  sections : List Section := []
  deriving DecidableEq

namespace Entry

def field (e : Entry) : EntryField → Option String
  | .organization => e.organization
  | .location => e.location
  | .startDate => e.startDate
  | .endDate => e.endDate

/-- Overwrites a text field, also with nothing. -/
def setField (e : Entry) (value : Option String) : EntryField → Entry
  | .organization => { e with organization := value }
  | .location => { e with location := value }
  | .startDate => { e with startDate := value }
  | .endDate => { e with endDate := value }

theorem field_setField (e : Entry) (value : Option String) (f g : EntryField) :
    (e.setField value f).field g = if g = f then value else e.field g := by
  cases f <;> cases g <;> rfl

/-- The date line: both dates around a dash once there is an end, the start alone
otherwise. An end without a start keeps the dash, with nothing before it. -/
def dateRange (e : Entry) : Option String :=
  match e.startDate, e.endDate with
  -- the dash belongs to the end: it stands also where no start comes before it
  | start, some stop => some (start.getD "" ++ " -- " ++ stop)
  | some start, none => some start
  | none, none => none

end Entry

namespace Resume

def field (r : Resume) : IdentityField → Option String
  | .name => r.name
  | .address => r.address
  | .email => r.email
  | .phone => r.phone

/-- Overwrites an identity field, also with nothing. -/
def setField (r : Resume) (value : Option String) : IdentityField → Resume
  | .name => { r with name := value }
  | .address => { r with address := value }
  | .email => { r with email := value }
  | .phone => { r with phone := value }

theorem field_setField (r : Resume) (value : Option String) (f g : IdentityField) :
    (r.setField value f).field g = if g = f then value else r.field g := by
  cases f <;> cases g <;> rfl

/-- Every identity field with its value, in the fixed order. -/
def identity (r : Resume) : List (IdentityField × Option String) :=
  IdentityField.all.map fun f => (f, r.field f)

end Resume

end Vitae
