import Vitae.Resume.Basic

/-!
# Kinds of elements

What the name of an element means at each level of a résumé. The same name may mean
different things at different levels, and each level has a kind for all names that it
does not know.
-/

namespace Vitae.Schema

/-- The name of the root element. -/
def rootName : String := "resume"

/-- The attribute that titles a section or an entry. -/
def titleName : String := "title"

/-- Children of the root. A part is a section. -/
inductive RootKind where
  | identity (field : IdentityField)
  | part
  | unrecognized
  deriving DecidableEq

/-- Children of a section. -/
inductive SectionKind where
  | list
  | entry
  | unrecognized
  deriving DecidableEq

/-- Children of an entry. -/
inductive EntryKind where
  | field (field : EntryField)
  | list
  | unrecognized
  deriving DecidableEq

/-- Children of a list. -/
inductive ListKind where
  | item
  | other
  deriving DecidableEq

/-- The kind that a name has below the root. -/
def RootKind.ofName (name : String) : RootKind :=
  match name with
  | "name" => .identity .name
  | "address" => .identity .address
  | "email" => .identity .email
  | "phone" => .identity .phone
  | "section" => .part
  | _ => .unrecognized

/-- The kind that a name has in a section. -/
def SectionKind.ofName (name : String) : SectionKind :=
  match name with
  | "list" => .list
  | "entry" => .entry
  | _ => .unrecognized

/-- The kind that a name has in an entry. A single date is a start. -/
def EntryKind.ofName (name : String) : EntryKind :=
  match name with
  | "organization" => .field .organization
  | "location" => .field .location
  | "start_date" => .field .startDate
  | "date" => .field .startDate
  | "end_date" => .field .endDate
  | "list" => .list
  | _ => .unrecognized

/-- The kind that a name has in a list. -/
def ListKind.ofName (name : String) : ListKind :=
  match name with
  | "item" => .item
  | _ => .other

end Vitae.Schema
