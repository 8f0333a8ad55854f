import Mathlib.Data.List.Perm.Subperm
import Vitae.Proofs.Markup.Edit
import Vitae.Proofs.Schema.Acceptance

/-!
# What is left of a tree

No rule asks for an element to be there or to come before another, so what keeps the rules keeps
them when children are taken out or put in another order, anywhere in the tree.

* `Thinned`: what is left of an element after that.
* `Conforms.thinned`: **what is left of a tree that conforms conforms.**
-/

namespace Vitae.Schema

open Markup (Element Path exists_children_changeAt)

/-- What is left of an element: somewhere in it children were taken out or put in another order. -/
inductive Thinned : Element → Element → Prop
  | here {e e' : Element} : e'.tag = e.tag → e'.children.Subperm e.children → Thinned e e'
  | inside {e e' c c' : Element} {before after : List Element} : e'.tag = e.tag →
      e.children = before ++ c :: after → e'.children = before ++ c' :: after → Thinned c c' → Thinned e e'

variable {root root' e e' c' d l l' s s' : Element} {p : Path} {g : Element → Element}

theorem Thinned.refl (e : Element) : Thinned e e := .here rfl (List.Subperm.refl _)

theorem Thinned.tag_eq (h : Thinned e e') : e'.tag = e.tag := by
  cases h <;> assumption

theorem Thinned.name_eq (h : Thinned e e') : e'.name = e.name := congrArg Markup.Tag.name h.tag_eq

theorem Thinned.titled (h : Thinned e e') (htitled : Titled e) : Titled e' := by
  unfold Titled
  rw [h.tag_eq]
  exact htitled

theorem Thinned.length_le (h : Thinned e e') : e'.children.length ≤ e.children.length := by
  cases h with
  | here _ hchildren => exact hchildren.length_le
  | inside _ hbefore hafter _ =>
    refine Nat.le_of_eq ?_
    rw [hbefore, hafter, List.length_append, List.length_append, List.length_cons, List.length_cons]

/-- A child that is left is what is left of a child. -/
theorem Thinned.mem (h : Thinned e e') (hc : c' ∈ e'.children) : ∃ c ∈ e.children, Thinned c c' := by
  cases h with
  | here _ hchildren => exact ⟨c', hchildren.subset hc, .refl c'⟩
  | @inside _ _ c d before after _ hbefore hafter h =>
    rw [hbefore]
    rw [hafter, List.mem_append, List.mem_cons] at hc
    rcases hc with hc | rfl | hc
    · exact ⟨c', List.mem_append_left _ hc, .refl c'⟩
    · exact ⟨c, List.mem_append_right _ List.mem_cons_self, h⟩
    · exact ⟨c', List.mem_append_right _ (List.mem_cons_of_mem _ hc), .refl c'⟩

/-- Of the children with some name no more are left than there were. -/
theorem Thinned.countP_le (h : Thinned e e') (P : String → Bool) :
    e'.children.countP (P ·.name) ≤ e.children.countP (P ·.name) := by
  cases h with
  | here _ hchildren => exact hchildren.countP_le _
  | inside _ hbefore hafter h =>
    refine Nat.le_of_eq ?_
    rw [hbefore, hafter, List.countP_append, List.countP_append, List.countP_cons, List.countP_cons, h.name_eq]

/-! ## The rules, level by level -/

theorem ListConforms.thinned (h : Thinned l l') (hl : ListConforms l) : ListConforms l' := by
  intro c' hc'
  obtain ⟨c, hc, hthinned⟩ := h.mem hc'
  obtain ⟨hname, hbelow⟩ := hl c hc
  have hlength := hthinned.length_le
  rw [hbelow, List.length_nil, Nat.le_zero, List.length_eq_zero_iff] at hlength
  exact ⟨hthinned.name_eq.trans hname, hlength⟩

theorem EntryConforms.thinned (h : Thinned e e') (he : EntryConforms e) : EntryConforms e' := by
  refine ⟨h.titled he.titled, ?_, ?_⟩
  · have hcount := h.countP_le fun name => name = "list"
    rw [List.countP_eq_length_filter, List.countP_eq_length_filter] at hcount
    exact Nat.le_trans hcount he.oneList
  · intro l' hl' hname
    obtain ⟨l, hl, hthinned⟩ := h.mem hl'
    exact (he.lists l hl (hthinned.name_eq.symm.trans hname)).thinned hthinned

theorem SectionConforms.thinned (h : Thinned s s') (hs : SectionConforms s) : SectionConforms s' := by
  refine ⟨h.titled hs.titled, ?_, ?_, ?_⟩
  · -- where a list is left it was the only child, so no other can be left
    intro l' hl' hname
    obtain ⟨l, hl, hthinned⟩ := h.mem hl'
    have hlength := h.length_le
    rw [hs.alone l hl (hthinned.name_eq.symm.trans hname), List.length_singleton] at hlength
    have hone : s'.children.length = 1 := Nat.le_antisymm hlength (List.length_pos_of_mem hl')
    obtain ⟨only, honly⟩ := List.length_eq_one_iff.1 hone
    rw [honly, List.mem_singleton] at hl'
    rw [honly, hl']
  · intro e' he' hname
    obtain ⟨e, he, hthinned⟩ := h.mem he'
    exact (hs.entries e he (hthinned.name_eq.symm.trans hname)).thinned hthinned
  · intro l' hl' hname
    obtain ⟨l, hl, hthinned⟩ := h.mem hl'
    exact (hs.lists l hl (hthinned.name_eq.symm.trans hname)).thinned hthinned

/-- **What is left of a tree that conforms conforms.** -/
theorem Conforms.thinned (h : Thinned root root') (hroot : Conforms root) : Conforms root' := by
  refine ⟨h.name_eq.trans hroot.named, ?_⟩
  intro s' hs' hname
  obtain ⟨s, hs, hthinned⟩ := h.mem hs'
  exact (hroot.sections s hs (hthinned.name_eq.symm.trans hname)).thinned hthinned

/-! ## Edits that thin -/

theorem thinned_changeAt (hd : e.at? p = some d) (h : Thinned d (g d)) : Thinned e (e.changeAt g p) := by
  induction p generalizing e with
  | nil =>
    cases hd
    exact h
  | cons i p ih =>
    obtain ⟨before, c, after, -, hchildren, hc, hchanged⟩ := exists_children_changeAt hd
    exact .inside rfl hchildren (hchanged g) (ih hc)

/-- An edit that only puts in what an undoing of it would take out. -/
theorem changeAt_thinned (hd : e.at? p = some d) (h : Thinned (g d) d) : Thinned (e.changeAt g p) e := by
  induction p generalizing e with
  | nil =>
    cases hd
    exact h
  | cons i p ih =>
    obtain ⟨before, c, after, -, hchildren, hc, hchanged⟩ := exists_children_changeAt hd
    exact .inside rfl (hchanged g) hchildren (ih hc)

end Vitae.Schema
