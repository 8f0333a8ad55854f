/-!
# Element trees

A document as elements with attributes, text, comments and processing instructions.
Names are kept apart from the namespaces they are in; the prefixes that stood for
these are gone.

* `Element.children`: the elements directly below an element.
* `Element.subtree`: an element and all elements below it, in document order.
* `Element.text?`: the text an element begins with.
-/

namespace Vitae.Markup

/-- An attribute: its namespace, its local name and its value. -/
structure Attribute where
  space : Option String
  localName : String
  value : String
  deriving DecidableEq

/-- What a start tag says of an element. The line is that of its `<`. -/
structure Tag where
  space : Option String
  name : String
  attributes : List Attribute
  line : Nat
  deriving DecidableEq

/-- A node of a document. -/
inductive Node where
  | element (tag : Tag) (nodes : List Node)
  | text (content : String)
  | comment (content : String)
  | instruction (target content : String)

/-- An element: its tag and the nodes directly below it. -/
structure Element where
  tag : Tag
  nodes : List Node

/-- The element that a node is, if it is one. -/
def Node.element? : Node → Option Element
  | .element tag nodes => some ⟨tag, nodes⟩
  | _ => none

mutual

/-- The elements at and below a node, in document order. -/
def Node.subtree : Node → List Element
  | .element tag nodes => ⟨tag, nodes⟩ :: subtreeAll nodes
  | _ => []

/-- The elements at and below some nodes, in document order. -/
def subtreeAll : List Node → List Element
  | [] => []
  | node :: nodes => node.subtree ++ subtreeAll nodes

end

namespace Element

def name (e : Element) : String := e.tag.name

def line (e : Element) : Nat := e.tag.line

/-- The elements directly below an element. -/
def children (e : Element) : List Element := e.nodes.filterMap Node.element?

/-- An element and all elements below it, in document order. -/
def subtree (e : Element) : List Element := e :: subtreeAll e.nodes

/-- The text an element begins with, if it begins with text. -/
def text? (e : Element) : Option String :=
  match e.nodes with
  | .text content :: _ => some content
  | _ => none

/-- The value of the first attribute with a local name, whatever its namespace. -/
def attribute? (e : Element) (localName : String) : Option String :=
  (e.tag.attributes.find? (·.localName == localName)).map (·.value)

end Element

end Vitae.Markup
