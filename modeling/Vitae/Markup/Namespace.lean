import Vitae.Markup.Name
import Vitae.Markup.Tree

/-!
# Namespaces

Declarations on an element bind qualifiers to namespaces for it and for all below
it; the nearest declaration counts.

* `Draft.add`: takes one attribute of a tag, which may be a declaration.
* `Draft.tag`: the finished tag, in which every qualifier is replaced.
-/

namespace Vitae.Markup

/-- Declarations by qualifier, the one that counts first. The default namespace has
the empty qualifier. -/
abbrev Scope := List (String × String)

/-- The namespaces of the standard itself. -/
def standardNamespace (path : String) : String := "http:/" ++ "/www.w3.org/" ++ path

/-- The namespace of the qualifier `xml`, which is never declared otherwise. -/
def xmlNamespace : String := standardNamespace "XML/1998/namespace"

/-- The namespace of declarations, which is never declared. -/
def xmlnsNamespace : String := standardNamespace "2000/xmlns/"

/-- An attribute as it was written. -/
structure WrittenAttribute where
  name : QName
  value : String
  start : Position
  deriving DecidableEq

/-- What has been read of a tag: its declarations, and its other attributes in order. -/
structure Draft where
  declared : Scope := []
  attributes : List WrittenAttribute := []

namespace Draft

/-- Takes a declaration of a qualifier. That of `xml` repeats what is so anyway and is
not kept; a second one of any other is refused. -/
def declare (d : Draft) (qualifier uri : String) : Except Fault Draft :=
  if uri = xmlnsNamespace then .error .reservedUri
  else if qualifier = "xml" then if uri = xmlNamespace then .ok d else .error .wrongXmlUri
  else if uri = xmlNamespace then .error .misusedXmlUri
  else if (d.declared.lookup qualifier).isSome then .error (.duplicateNamespace qualifier)
  else .ok { d with declared := d.declared ++ [(qualifier, uri)] }

/-- Takes a declaration of the default namespace. Of several the first counts. -/
def declareDefault (d : Draft) (uri : String) : Except Fault Draft :=
  if uri = xmlNamespace then .error .misusedXmlUri
  else if uri = xmlnsNamespace then .error .reservedUri
  else .ok { d with declared := d.declared ++ [("", uri)] }

/-- Takes one attribute of a tag. -/
def add (d : Draft) (a : WrittenAttribute) : Except Error Draft :=
  if a.name.qualifier = "xmlns" then
    (d.declare a.name.localName a.value).mapError (.located a.start)
  else if a.name.localName = "xmlns" then
    (d.declareDefault a.value).mapError (.located a.start)
  else .ok { d with attributes := d.attributes ++ [a] }

end Draft

/-- The namespace of an attribute, given the declarations that count for it. Without a
qualifier it is in none. -/
def WrittenAttribute.namespace? (a : WrittenAttribute) (scope : Scope) :
    Except Error (Option String) :=
  if a.name.qualifier = "" then .ok none
  else if a.name.qualifier = "xml" then .ok (some xmlNamespace)
  else match scope.lookup a.name.qualifier with
    | some uri => .ok (some uri)
    | none => .error (.located a.start (.unknownQualifier a.name.qualifier))

/-- Finishes the attribute after those that are finished. Two attributes of one tag
differ in namespace or local name. -/
def WrittenAttribute.finish (scope : Scope) (done : List Attribute) (a : WrittenAttribute) :
    Except Error (List Attribute) := do
  let space ← a.namespace? scope
  if done.any fun b => b.space == space && b.localName == a.name.localName then
    throw (.located a.start (.duplicateAttribute a.name.localName))
  return done ++ [⟨space, a.name.localName, a.value⟩]

/-- The namespace of an element whose name begins at a position. -/
def QName.namespace? (n : QName) (start : Position) (scope : Scope) :
    Except Error (Option String) :=
  match scope.lookup n.qualifier with
  | some uri => .ok (some uri)
  | none =>
    if n.qualifier = "" then .ok none
    else .error (.located start (.unknownQualifier n.qualifier))

/-- The finished tag of an element on a line, whose name begins at a position. The
attributes come before the name. -/
def Draft.tag (d : Draft) (scope : Scope) (n : QName) (start : Position) (line : Nat) :
    Except Error Tag := do
  let attributes ← d.attributes.foldlM (WrittenAttribute.finish scope) []
  let space ← n.namespace? start scope
  return ⟨space, n.localName, attributes, line⟩

end Vitae.Markup
