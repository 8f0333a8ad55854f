import Mathlib.Data.List.Basic
import Vitae.Markup.Tree

/-!
# Paths and document order

A path says which child to take at each step down from an element. Paths are ordered as
lists are, which is document order: an element, then all below it, then the next one
beside it.

* `at?_append`, `at?_concat`: where a path in two parts leads.
* `mem_places`: the places of an element are the paths that lead somewhere in it.
* `places_pairwise`, `subtree_eq_places`: in the order of their paths they are the subtree.
-/

namespace Vitae.Markup

/-- Which child to take at each step down from an element. -/
abbrev Path := List ℕ

/-- The element that a path leads to. -/
def Element.at? (e : Element) : Path → Option Element
  | [] => some e
  | i :: p => e.children[i]?.bind fun c => c.at? p

section

variable {e c : Element} {p q : Path} {i : ℕ}

theorem at?_append : e.at? (p ++ q) = (e.at? p).bind fun c => c.at? q := by
  induction p generalizing e with
  | nil => rfl
  | cons i p ih =>
    rw [List.cons_append, Element.at?, Element.at?, Option.bind_assoc]
    congr 1
    funext c
    exact ih

theorem at?_concat : e.at? (p ++ [i]) = some c ↔ ∃ d, e.at? p = some d ∧ d.children[i]? = some c := by
  have hstep : ∀ d : Element, d.at? [i] = d.children[i]? := by
    intro d
    unfold Element.at?
    cases d.children[i]? <;> rfl
  rw [at?_append, Option.bind_eq_some_iff]
  simp only [hstep]

end

mutual

/-- The elements at and below a node, with the paths to them from the node. -/
def Node.places : Node → List (Path × Element)
  | .element tag nodes => ([], ⟨tag, nodes⟩) :: placesAll 0 nodes
  | _ => []

/-- The elements at and below some nodes, the first element of which is the child `i`. -/
def placesAll (i : ℕ) : List Node → List (Path × Element)
  | [] => []
  | node :: nodes =>
    node.places.map (fun x => (i :: x.1, x.2))
      ++ placesAll (if node.element?.isSome then i + 1 else i) nodes

end

/-- An element and all elements below it, with the paths to them. -/
def Element.places (e : Element) : List (Path × Element) := ([], e) :: placesAll 0 e.nodes

theorem cons_lt_cons {i j : ℕ} {p q : Path} : i :: p < j :: q ↔ i < j ∨ i = j ∧ p < q :=
  List.cons_lt_cons_iff

mutual

theorem Node.places_snd : ∀ node : Node, node.places.map (·.2) = node.subtree
  | .element tag nodes => by simp [Node.places, Node.subtree, placesAll_snd 0 nodes]
  | .text _ => rfl
  | .comment _ => rfl
  | .instruction _ _ => rfl

theorem placesAll_snd (i : ℕ) : ∀ nodes : List Node, (placesAll i nodes).map (·.2) = subtreeAll nodes
  | [] => rfl
  | node :: nodes => by
    rw [placesAll, subtreeAll, List.map_append, List.map_map, placesAll_snd _ nodes, ← node.places_snd]
    rfl

end

/-- An element with its subtree in document order. -/
theorem subtree_eq_places (e : Element) : e.subtree = e.places.map (·.2) := by
  unfold Element.subtree Element.places
  rw [List.map_cons, placesAll_snd]

/-- What lies below some nodes lies in one of the elements among them. -/
theorem mem_placesAll {x : Path × Element} : ∀ {nodes : List Node} {i : ℕ},
    x ∈ placesAll i nodes ↔ ∃ j q c, (nodes.filterMap Node.element?)[j]? = some c ∧
      (q, x.2) ∈ c.places ∧ x.1 = (i + j) :: q := by
  intro nodes
  induction nodes with
  | nil => intro i; simp [placesAll]
  | cons node nodes ih =>
    intro i
    rw [placesAll, List.mem_append, ih]
    cases node with
    | element tag below =>
      have hcons : (Node.element tag below :: nodes).filterMap Node.element? =
          ⟨tag, below⟩ :: nodes.filterMap Node.element? := rfl
      simp only [hcons, Node.element?, Option.isSome_some, if_true, List.mem_map]
      constructor
      · rintro (⟨⟨q, c⟩, hc, rfl⟩ | ⟨j, q, c, hj, hc, hx⟩)
        · exact ⟨0, q, ⟨tag, below⟩, rfl, hc, rfl⟩
        · exact ⟨j + 1, q, c, hj, hc, by rw [hx]; congr 1; omega⟩
      · rintro ⟨_ | j, q, c, hj, hc, hx⟩
        · simp only [List.getElem?_cons_zero, Option.some.injEq] at hj
          subst hj
          exact Or.inl ⟨(q, x.2), hc, Prod.ext hx.symm rfl⟩
        · exact Or.inr ⟨j, q, c, hj, hc, by rw [hx]; congr 1; omega⟩
    -- any other node has no places and is not counted
    | text _ => simp [Node.places, Node.element?, List.filterMap_cons]
    | comment _ => simp [Node.places, Node.element?, List.filterMap_cons]
    | instruction _ _ => simp [Node.places, Node.element?, List.filterMap_cons]

/-- **The places of an element are the paths that lead somewhere in it.** -/
theorem mem_places {p : Path} {c : Element} : ∀ {e : Element}, (p, c) ∈ e.places ↔ e.at? p = some c := by
  induction p with
  | nil =>
    intro e
    unfold Element.places Element.at?
    rw [List.mem_cons, mem_placesAll, Option.some.injEq]
    constructor
    · rintro (h | ⟨j, q, d, -, -, hx⟩)
      · exact (Prod.mk.inj h).2.symm
      · cases hx
    · rintro rfl
      exact Or.inl rfl
  | cons i p ih =>
    intro e
    unfold Element.places Element.at? Element.children
    rw [List.mem_cons, mem_placesAll]
    constructor
    · rintro (h | ⟨j, q, d, hj, hd, hx⟩)
      · cases h
      · obtain ⟨hi, rfl⟩ := List.cons.inj hx
        rw [Nat.zero_add] at hi
        subst hi
        rw [hj]
        exact ih.1 hd
    · intro h
      obtain ⟨d, hd, hc⟩ := Option.bind_eq_some_iff.1 h
      exact Or.inr ⟨i, p, d, hd, ih.2 hc, by rw [Nat.zero_add]⟩

mutual

theorem Node.places_pairwise : ∀ node : Node, node.places.Pairwise fun x y => x.1 < y.1
  | .element tag nodes => by
    unfold Node.places
    refine List.pairwise_cons.2 ⟨?_, placesAll_pairwise 0 nodes⟩
    intro x hx
    obtain ⟨j, q, c, -, -, h⟩ := mem_placesAll.1 hx
    rw [h]
    exact List.nil_lt_cons _ _
  | .text _ => List.Pairwise.nil
  | .comment _ => List.Pairwise.nil
  | .instruction _ _ => List.Pairwise.nil

theorem placesAll_pairwise (i : ℕ) : ∀ nodes : List Node, (placesAll i nodes).Pairwise fun x y => x.1 < y.1
  | [] => List.Pairwise.nil
  | node :: nodes => by
    unfold placesAll
    refine List.pairwise_append.2 ⟨?_, placesAll_pairwise _ nodes, ?_⟩
    · rw [List.pairwise_map]
      exact node.places_pairwise.imp fun h => cons_lt_cons.2 (Or.inr ⟨rfl, h⟩)
    · intro x hx y hy
      obtain ⟨z, hz, rfl⟩ := List.mem_map.1 hx
      obtain ⟨j, q, c, -, -, h⟩ := mem_placesAll.1 hy
      -- a node with places is an element, so the count has moved on
      have hsome : node.element?.isSome := by
        cases node with
        | element _ _ => rfl
        | _ => simp [Node.places] at hz
      rw [if_pos hsome] at h
      rw [h]
      exact cons_lt_cons.2 (Or.inl (by omega))

end

/-- **The order of paths is document order**: the subtree of an element goes through its places
in the order of their paths. -/
theorem places_pairwise (e : Element) : e.places.Pairwise fun x y => x.1 < y.1 :=
  Node.places_pairwise (.element e.tag e.nodes)

end Vitae.Markup
