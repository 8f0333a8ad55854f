import Vitae.Proofs.Markup.Edit
import Vitae.Proofs.Markup.Path

/-!
# One element more

A tree into which one element is put: among the nodes of some element in it, before, between
or after the children that are there.

* `OneMore`: such trees, with the path to the element that takes the new one in and the place
  of the new one among its children.
* `slide`: where each of the other elements stands afterwards.
* `OneMore.at?_slide`, `OneMore.at?_new`: **every element is where it is said to be.**
-/

namespace Vitae.Markup

/-- The second tree is the first with one element more: `x`, as the child `k` of the element at
the path. -/
inductive OneMore (x : Element) : Element → Path → ℕ → Element → Prop
  | here (tag : Tag) (before after : List Node) :
      OneMore x ⟨tag, before ++ after⟩ [] (before.filterMap Node.element?).length ⟨tag, before ++ x.node :: after⟩
  | inside (tag : Tag) (before after : List Node) {c c' : Element} {p : Path} {k : ℕ} : OneMore x c p k c' →
      OneMore x ⟨tag, before ++ c.node :: after⟩ ((before.filterMap Node.element?).length :: p) k
        ⟨tag, before ++ c'.node :: after⟩

/-- Where an element stands after one more was put in as the child `k` of the element at `p`: those
beside the new one that come after it, and all below them, have moved on by one. -/
def slide : Path → ℕ → Path → Path
  | _, _, [] => []
  | [], k, j :: q => (if k ≤ j then j + 1 else j) :: q
  | i :: p, k, j :: q => if i = j then j :: slide p k q else j :: q

variable {x e e' c : Element} {p q : Path} {k i j : ℕ} {as bs : List Element}

theorem slide_nil (p : Path) (k : ℕ) : slide p k [] = [] := by
  cases p <;> rfl

theorem slide_here_of_lt (h : j < k) : slide [] k (j :: q) = j :: q := by
  rw [slide, if_neg (by omega)]

theorem slide_here_of_le (h : k ≤ j) : slide [] k (j :: q) = (j + 1) :: q := by
  rw [slide, if_pos h]

theorem slide_inside : slide (i :: p) k (i :: q) = i :: slide p k q := by
  rw [slide, if_pos rfl]

theorem slide_beside (h : i ≠ j) : slide (i :: p) k (j :: q) = j :: q := by
  rw [slide, if_neg h]

theorem children_append (tag : Tag) (before after : List Node) : Element.children ⟨tag, before ++ after⟩ =
    before.filterMap Node.element? ++ after.filterMap Node.element? := by
  unfold Element.children
  rw [List.filterMap_append]

/-- Where a child is that comes after some nodes. -/
theorem getElem?_children (tag : Tag) (before after : List Node) (c : Element) :
    (Element.children ⟨tag, before ++ c.node :: after⟩)[(before.filterMap Node.element?).length]? = some c := by
  rw [children_append_cons, List.getElem?_append_right (Nat.le_refl _), Nat.sub_self]
  rfl

theorem OneMore.tag_eq (h : OneMore x e p k e') : e'.tag = e.tag := by
  cases h <;> rfl

theorem OneMore.name_eq (h : OneMore x e p k e') : e'.name = e.name := congrArg Tag.name h.tag_eq

/-- The new element is where it was put. -/
theorem OneMore.at?_new (h : OneMore x e p k e') : e'.at? (p ++ [k]) = some x := by
  induction h with
  | here tag before after =>
    rw [List.nil_append, Element.at?, getElem?_children]
    rfl
  | inside tag before after _ ih =>
    rw [List.cons_append, Element.at?, getElem?_children]
    exact ih

/-- The children after a new one have moved on by one. -/
theorem getElem?_after (h : as.length ≤ j) : (as ++ x :: bs)[j + 1]? = (as ++ bs)[j]? := by
  rw [List.getElem?_append_right (by omega), List.getElem?_append_right h]
  have hindex : j + 1 - as.length = (j - as.length) + 1 := by omega
  rw [hindex, List.getElem?_cons_succ]

/-- The children beside a changed one are as they were. -/
theorem getElem?_beside {c' : Element} (h : as.length ≠ j) : (as ++ c' :: bs)[j]? = (as ++ c :: bs)[j]? := by
  rcases Nat.lt_or_gt_of_ne h with hlt | hgt
  · have hindex : j - as.length = (j - as.length - 1) + 1 := by omega
    rw [List.getElem?_append_right (by omega), List.getElem?_append_right (by omega), hindex,
      List.getElem?_cons_succ, List.getElem?_cons_succ]
  · rw [List.getElem?_append_left hgt, List.getElem?_append_left hgt]

/-- **Every other element is where it slid to**, and only those around the new one have changed. -/
theorem OneMore.at?_slide (h : OneMore x e p k e') (hc : e.at? q = some c) :
    ∃ c', e'.at? (slide p k q) = some c' ∧ c'.tag = c.tag ∧ (¬ q <+: p → c' = c) := by
  induction h generalizing q with
  | here tag before after =>
    cases q with
    | nil =>
      cases hc
      rw [slide_nil]
      exact ⟨_, rfl, rfl, fun hne => absurd List.nil_prefix hne⟩
    | cons j q =>
      rw [Element.at?, children_append] at hc
      refine ⟨c, ?_, rfl, fun _ => rfl⟩
      -- the path goes through a child before the new one or through one that has moved on
      rcases Nat.lt_or_ge j (before.filterMap Node.element?).length with hj | hj
      · rw [slide_here_of_lt hj, Element.at?, children_append_cons, List.getElem?_append_left hj]
        rwa [List.getElem?_append_left hj] at hc
      · rw [slide_here_of_le hj, Element.at?, children_append_cons, getElem?_after hj]
        exact hc
  | @inside tag before after d d' p k h ih =>
    cases q with
    | nil =>
      cases hc
      rw [slide_nil]
      exact ⟨_, rfl, rfl, fun hne => absurd List.nil_prefix hne⟩
    | cons j q =>
      rw [Element.at?] at hc
      -- the path goes on towards the new element or leaves its way here
      by_cases hj : (before.filterMap Node.element?).length = j
      · subst hj
        rw [getElem?_children] at hc
        obtain ⟨c', hc', htag, hsame⟩ := ih hc
        refine ⟨c', ?_, htag, fun hne => hsame fun hq => hne (List.cons_prefix_cons.2 ⟨rfl, hq⟩)⟩
        rw [slide_inside, Element.at?, getElem?_children]
        exact hc'
      · refine ⟨c, ?_, rfl, fun _ => rfl⟩
        rw [slide_beside hj, Element.at?, children_append_cons, getElem?_beside hj, ← children_append_cons tag]
        exact hc

end Vitae.Markup
