import Vitae.Diagnostic

/-!
# Schema errors

Why a well-formed document is no résumé: the root has another name, or an element
breaks a rule of its level.

* `Error.message`: the wording, with the line of the element that broke the rule.
-/

namespace Vitae.Schema

/-- A rule that an element breaks. -/
inductive Violation where
  /-- A section or an entry without a title. -/
  | untitled
  /-- A list in a section that has another child element. -/
  | listNotAlone
  /-- A list in an entry that has one already. -/
  | secondList
  /-- An element in a list that is no item. -/
  | strangerInList
  /-- An item with an element in it. -/
  | elementInItem
  deriving DecidableEq

/-- The wording of a rule. -/
def Violation.text : Violation → String
  | .untitled => "section element must have a title attribute"
  | .listNotAlone => "section cannot contain a list element and other elements"
  | .secondList => "entry element can contain no more than 1 list element"
  | .strangerInList => "list elements can only contain elements of type item"
  | .elementInItem => "item elements cannot contain other elements"

/-- Why a document is no résumé. -/
inductive Error where
  | wrongRoot
  | broken (line : Nat) (rule : Violation)
  deriving DecidableEq

namespace Error

/-- The line of the element at fault. A wrong root has none. -/
def line? : Error → Option Nat
  | .wrongRoot => none
  | .broken line _ => some line

/-- The wording, its line apart. -/
def text : Error → String
  | .wrongRoot => "root element must be of type resume"
  | .broken _ rule => rule.text

/-- The wording. -/
def message (e : Error) : String := noteLine e.line? e.text

end Error

end Vitae.Schema
