import Vitae.Proofs.Markup.Path

/-!
# Edits at a path

Changing what stands at a path in a tree changes one child of each element on the way and
nothing beside it.

* `Element.changeAt`: the tree with the element at a path changed.
* `children_changeAt`: what the edit does to the children of the first element.
-/

namespace Vitae.Markup

/-- An element as a node of its parent. -/
def Element.node (e : Element) : Node := .element e.tag e.nodes

/-- Changes one of the elements among some nodes, counted from the first. -/
def changeChild (g : Element → Element) (i : ℕ) : List Node → List Node
  | [] => []
  | node :: nodes =>
    match node.element?, i with
    | none, i => node :: changeChild g i nodes
    | some e, 0 => (g e).node :: nodes
    | some _, i + 1 => node :: changeChild g i nodes

/-- Changes the element that a path leads to. -/
def Element.changeAt (g : Element → Element) : Path → Element → Element
  | [], e => g e
  | i :: p, e => { e with nodes := changeChild (changeAt g p) i e.nodes }

/-- Puts other nodes into an element. -/
def Element.refill (nodes : List Node) (e : Element) : Element := { e with nodes }

variable {g : Element → Element} {e : Element} {p : Path} {i : ℕ}

theorem element?_eq_some {node : Node} : node.element? = some e ↔ node = e.node := by
  unfold Element.node
  cases node with
  | element tag nodes =>
    simp only [Node.element?, Option.some.injEq, Node.element.injEq]
    constructor
    · rintro rfl
      exact ⟨rfl, rfl⟩
    · rintro ⟨rfl, rfl⟩
      rfl
  | text _ => simp [Node.element?]
  | comment _ => simp [Node.element?]
  | instruction _ _ => simp [Node.element?]

/-- The children of an element around one of them. -/
theorem children_append_cons (tag : Tag) (before after : List Node) (c : Element) :
    Element.children ⟨tag, before ++ c.node :: after⟩ =
      before.filterMap Node.element? ++ c :: after.filterMap Node.element? := by
  unfold Element.children
  rw [List.filterMap_append, List.filterMap_cons_some (element?_eq_some.2 rfl)]

theorem filterMap_changeChild (nodes : List Node) :
    (changeChild g i nodes).filterMap Node.element? = (nodes.filterMap Node.element?).modify i g := by
  induction nodes generalizing i with
  | nil => rw [changeChild, List.filterMap_nil, List.modify_nil]
  | cons node nodes ih =>
    unfold changeChild
    cases hnode : node.element? with
    | none =>
      simp only
      rw [List.filterMap_cons_none hnode, List.filterMap_cons_none hnode]
      exact ih
    | some d =>
      rw [List.filterMap_cons_some hnode]
      cases i with
      | zero =>
        simp only
        rw [List.filterMap_cons_some (element?_eq_some.2 rfl)]
        rfl
      | succ i =>
        simp only
        rw [List.filterMap_cons_some hnode, ih]
        rfl

/-- **An edit further down changes one child.** -/
theorem children_changeAt : (e.changeAt g (i :: p)).children = e.children.modify i (Element.changeAt g p) :=
  filterMap_changeChild e.nodes

/-- The children around the one on the way to an edit stay. -/
theorem exists_children_changeAt {d : Element} (hd : e.at? (i :: p) = some d) :
    ∃ before c after, e.children[i]? = some c ∧ e.children = before ++ c :: after ∧ c.at? p = some d ∧
      ∀ g, (e.changeAt g (i :: p)).children = before ++ c.changeAt g p :: after := by
  obtain ⟨c, hc, hd⟩ := Option.bind_eq_some_iff.1 hd
  obtain ⟨hi, rfl⟩ := List.getElem?_eq_some_iff.1 hc
  refine ⟨e.children.take i, e.children[i], e.children.drop (i + 1), hc, ?_, hd, ?_⟩
  · rw [List.getElem_cons_drop, List.take_append_drop]
  · intro g
    rw [children_changeAt, List.modify_eq_take_cons_drop hi]

theorem name_changeAt (hg : ∀ c, (g c).name = c.name) : (e.changeAt g p).name = e.name := by
  cases p with
  | nil => exact hg e
  | cons i p => rfl

/-- An edit further down leaves the text before it. -/
theorem text?_changeAt : (e.changeAt g (i :: p)).text? = e.text? := by
  obtain ⟨tag, nodes⟩ := e
  cases nodes with
  | nil => rfl
  | cons node nodes =>
    cases node with
    | element tag' below => cases i <;> rfl
    | text _ => rfl
    | comment _ => rfl
    | instruction _ _ => rfl

end Vitae.Markup
