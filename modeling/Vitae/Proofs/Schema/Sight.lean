import Mathlib.Data.List.Forall2
import Vitae.Proofs.Markup.Edit
import Vitae.Proofs.Schema.Role

/-!
# What a reading looks at

Of an element a reading looks at what its role calls for: of a field at the text, of an item
also whether elements are in it, of a section or an entry at title and children. Elements that
agree in this are read alike.

* `Alike`: elements that a reading cannot tell apart in a role.
* `readResume_alike`: **roots that are alike are read alike**, to the same result and the
  same log.
* `alike_changeAt`, `readResume_changeAt`: an edit that leaves an element alike leaves the
  tree around it alike, so it makes no difference.
-/

namespace Vitae.Schema

open Markup (Element Node Path children_changeAt element?_eq_some name_changeAt text?_changeAt)

/-- The roles of elements that are read child by child. -/
inductive Role.Inner : Role → Prop
  | root : Inner .root
  | part : Inner .part
  | entry : Inner .entry
  | list : Inner .list

/-- Two elements agree in what is looked at of an element itself in a role. -/
def Agree : Role → Element → Element → Prop
  | .root, e, e' => e.name = e'.name
  | .part, e, e' | .entry, e, e' => e.line = e'.line ∧ e.attribute? titleName = e'.attribute? titleName
  | .list, e, e' | .stranger, e, e' => e.line = e'.line
  | .identity _, e, e' | .field _, e, e' => e.text? = e'.text?
  | .item, e, e' => e.line = e'.line ∧ e.text?.getD "" = e'.text?.getD "" ∧
      e.children.isEmpty = e'.children.isEmpty
  | .unrecognized, e, e' => e.line = e'.line ∧ e.name = e'.name
  | .inText, _, _ | .passed, _, _ => True

/-- Two elements that a reading cannot tell apart in a role: they agree, and so do their
children where these are read. -/
inductive Alike : Role → Element → Element → Prop
  | mk {role : Role} {e e' : Element} : Agree role e e' →
      (role.Inner → e.children.length = e'.children.length) →
      (role.Inner → ∀ (i : ℕ) (c c' : Element), e.children[i]? = some c → e'.children[i]? = some c' →
        role.below c.name = role.below c'.name) →
      (role.Inner → ∀ (i : ℕ) (c c' : Element), e.children[i]? = some c → e'.children[i]? = some c' →
        Alike (role.below c.name) c c') →
      Alike role e e'

/-- Two children of elements in a role that a reading cannot tell apart. -/
def AlikeChild (role : Role) (c c' : Element) : Prop :=
  role.below c.name = role.below c'.name ∧ Alike (role.below c.name) c c'

variable {e e' c c' : Element} {p : Path} {role r : Role} {es es' : List Element}

theorem Alike.agree (h : Alike role e e') : Agree role e e' := by
  cases h with
  | mk hagree _ _ _ => exact hagree

theorem Alike.children (hrole : role.Inner) (h : Alike role e e') :
    List.Forall₂ (AlikeChild role) e.children e'.children := by
  cases h with
  | mk _ hlength hnames halike =>
    refine List.forall₂_iff_get.2 ⟨hlength hrole, ?_⟩
    intro i hi hi'
    have hc : e.children[i]? = some (e.children.get ⟨i, hi⟩) := List.getElem?_eq_getElem hi
    have hc' : e'.children[i]? = some (e'.children.get ⟨i, hi'⟩) := List.getElem?_eq_getElem hi'
    exact ⟨hnames hrole i _ _ hc hc', halike hrole i _ _ hc hc'⟩

/-! ## Reading elements that are alike -/

section

variable {m : Type → Type} [Monad m] {σ β : Type} {R : Element → Element → Prop}

theorem foldlM_congr_of_forall₂ {step : σ → Element → m σ} (hes : List.Forall₂ R es es')
    (h : ∀ s c c', R c c' → step s c = step s c') (s : σ) : es.foldlM step s = es'.foldlM step s := by
  induction hes generalizing s with
  | nil => rfl
  | cons hc _ ih =>
    rw [List.foldlM_cons, List.foldlM_cons, h s _ _ hc]
    exact congrArg _ (funext ih)

theorem mapM_congr_of_forall₂ [LawfulMonad m] {read : Element → m β} (hes : List.Forall₂ R es es')
    (h : ∀ c c', R c c' → read c = read c') : es.mapM read = es'.mapM read := by
  induction hes with
  | nil => rfl
  | cons hc _ ih => rw [List.mapM_cons, List.mapM_cons, h _ _ hc, ih]

end

theorem EntryKind.role_injective : Function.Injective EntryKind.role := by
  intro k k' h
  cases k <;> cases k' <;> first | rfl | cases h <;> rfl

theorem SectionKind.role_injective : Function.Injective SectionKind.role := by
  intro k k' h
  cases k <;> cases k' <;> first | rfl | cases h

theorem RootKind.role_injective : Function.Injective RootKind.role := by
  intro k k' h
  cases k <;> cases k' <;> first | rfl | cases h <;> rfl

theorem ListKind.role_injective : Function.Injective ListKind.role := by
  intro k k' h
  cases k <;> cases k' <;> first | rfl | cases h

theorem readTitle_congr (hline : e.line = e'.line) (htitle : e.attribute? titleName = e'.attribute? titleName) :
    readTitle e = readTitle e' := by
  unfold readTitle broken
  rw [htitle, hline]

theorem reportElement_congr (h : Alike .unrecognized e e') : reportElement e = reportElement e' := by
  obtain ⟨hline, hname⟩ := h.agree
  unfold reportElement
  rw [hline, hname]

theorem readItem_congr (h : AlikeChild .list c c') : readItem c = readItem c' := by
  obtain ⟨hrole, halike⟩ := h
  have hkind : ListKind.ofName c.name = ListKind.ofName c'.name := ListKind.role_injective hrole
  have hagree := halike.agree
  unfold readItem broken
  rw [← hkind]
  cases hc : ListKind.ofName c.name with
  | other =>
    have hline : c.line = c'.line := by rwa [Role.below, hc] at hagree
    simp only
    rw [hline]
  | item =>
    rw [Role.below, hc] at hagree
    obtain ⟨hline, htext, hempty⟩ := hagree
    simp only
    rw [hline, htext, hempty]

theorem readList_congr (h : Alike .list e e') : readList e = readList e' :=
  mapM_congr_of_forall₂ (h.children .list) fun _ _ => readItem_congr

theorem readEntryChild_congr (entry : Entry) (h : AlikeChild .entry c c') :
    readEntryChild entry c = readEntryChild entry c' := by
  obtain ⟨hrole, halike⟩ := h
  have hkind : EntryKind.ofName c.name = EntryKind.ofName c'.name := EntryKind.role_injective hrole
  unfold readEntryChild
  rw [← hkind]
  cases hc : EntryKind.ofName c.name with
  | field f =>
    have htext : c.text? = c'.text? := by
      have hagree := halike.agree
      rwa [Role.below, hc] at hagree
    simp only
    rw [htext]
  | list =>
    rw [Role.below, hc] at halike
    have hline : c.line = c'.line := halike.agree
    unfold broken
    simp only
    rw [hline, readList_congr halike]
  | unrecognized =>
    rw [Role.below, hc] at halike
    simp only
    rw [reportElement_congr halike]

theorem readEntry_congr (h : Alike .entry e e') : readEntry e = readEntry e' := by
  obtain ⟨hline, htitle⟩ := h.agree
  unfold readEntry
  rw [readTitle_congr hline htitle]
  exact congrArg _ (funext fun _ => foldlM_congr_of_forall₂ (h.children .entry)
    (fun entry _ _ => readEntryChild_congr entry) _)

theorem readSectionChild_congr (h : AlikeChild .part c c') : readSectionChild c = readSectionChild c' := by
  obtain ⟨hrole, halike⟩ := h
  have hkind : SectionKind.ofName c.name = SectionKind.ofName c'.name := SectionKind.role_injective hrole
  unfold readSectionChild
  rw [← hkind]
  cases hc : SectionKind.ofName c.name with
  | list =>
    rw [Role.below, hc] at halike
    have hline : c.line = c'.line := halike.agree
    unfold broken
    simp only
    rw [hline]
  | entry =>
    rw [Role.below, hc] at halike
    simp only
    rw [readEntry_congr halike]
  | unrecognized =>
    rw [Role.below, hc] at halike
    simp only
    rw [reportElement_congr halike]

theorem readBody_congr (h : List.Forall₂ (AlikeChild .part) es es') : readBody es = readBody es' := by
  cases h with
  | nil => rfl
  | @cons c c' _ _ hc hrest =>
    cases hrest with
    | nil =>
      obtain ⟨hrole, halike⟩ := hc
      have hkind : SectionKind.ofName c.name = SectionKind.ofName c'.name := SectionKind.role_injective hrole
      unfold readBody
      simp only
      rw [← hkind, readSectionChild_congr ⟨hrole, halike⟩]
      by_cases hlist : SectionKind.ofName c.name = .list
      · rw [Role.below, hlist] at halike
        rw [if_pos hlist, if_pos hlist, readList_congr halike]
      · rw [if_neg hlist, if_neg hlist]
    | cons hd hrest =>
      unfold readBody
      simp only
      rw [mapM_congr_of_forall₂ (.cons hc (.cons hd hrest)) fun _ _ => readSectionChild_congr]

theorem readSection_congr (h : Alike .part e e') : readSection e = readSection e' := by
  obtain ⟨hline, htitle⟩ := h.agree
  unfold readSection
  rw [readTitle_congr hline htitle, readBody_congr (h.children .part)]

theorem readRootChild_congr (resume : Resume) (h : AlikeChild .root c c') :
    readRootChild resume c = readRootChild resume c' := by
  obtain ⟨hrole, halike⟩ := h
  have hkind : RootKind.ofName c.name = RootKind.ofName c'.name := RootKind.role_injective hrole
  unfold readRootChild
  rw [← hkind]
  cases hc : RootKind.ofName c.name with
  | identity f =>
    have htext : c.text? = c'.text? := by
      have hagree := halike.agree
      rwa [Role.below, hc] at hagree
    simp only
    rw [htext]
  | part =>
    rw [Role.below, hc] at halike
    simp only
    rw [readSection_congr halike]
  | unrecognized =>
    rw [Role.below, hc] at halike
    simp only
    rw [reportElement_congr halike]

/-- **Roots that are alike are read alike**: to the same result, with the same log. -/
theorem readResume_alike (h : Alike .root e e') : readResume e = readResume e' := by
  have hname : e.name = e'.name := h.agree
  unfold readResume
  rw [hname, foldlM_congr_of_forall₂ (h.children .root) fun resume _ _ => readRootChild_congr resume]

/-! ## Edits -/

theorem Agree.refl (role : Role) (e : Element) : Agree role e e := by
  cases role <;> first | exact ⟨rfl, rfl, rfl⟩ | exact ⟨rfl, rfl⟩ | exact rfl | trivial

theorem sizeOf_lt_of_mem_children (h : c ∈ e.children) : sizeOf c < sizeOf e := by
  obtain ⟨node, hnode, hc⟩ := List.mem_filterMap.1 h
  rw [element?_eq_some] at hc
  subst hc
  have hlt := List.sizeOf_lt_of_mem hnode
  obtain ⟨tag, nodes⟩ := e
  obtain ⟨tag', below⟩ := c
  simp only [Element.node, Node.element.sizeOf_spec, Element.mk.sizeOf_spec] at hlt ⊢
  omega

theorem Alike.refl (role : Role) (e : Element) : Alike role e e := by
  refine .mk (Agree.refl role e) (fun _ => rfl) ?_ ?_
  · intro _ i c c' hc hc'
    rw [hc] at hc'
    cases hc'
    rfl
  · intro _ i c c' hc hc'
    rw [hc] at hc'
    cases hc'
    have := sizeOf_lt_of_mem_children (List.mem_of_getElem? hc)
    exact Alike.refl _ c
termination_by sizeOf e

theorem agree_changeAt {g : Element → Element} {i : ℕ} (role : Role) :
    Agree role e (e.changeAt g (i :: p)) := by
  have htext : e.text? = (e.changeAt g (i :: p)).text? := text?_changeAt.symm
  have hempty : e.children.isEmpty = (e.changeAt g (i :: p)).children.isEmpty := by
    rw [children_changeAt]
    cases e.children <;> cases i <;> rfl
  cases role with
  | item => exact ⟨rfl, congrArg (·.getD "") htext, hempty⟩
  | identity f => exact htext
  | field f => exact htext
  | _ => first | exact ⟨rfl, rfl⟩ | exact rfl | trivial

/-- **An edit that leaves an element alike leaves the tree around it alike.** -/
theorem alike_changeAt {g : Element → Element} (hg : ∀ c, (g c).name = c.name) (hc : e.at? p = some c)
    (hr : role.along e p = some r) (h : Alike r c (g c)) : Alike role e (e.changeAt g p) := by
  induction p generalizing e role with
  | nil =>
    cases hc
    cases hr
    exact h
  | cons i p ih =>
    obtain ⟨d, hd, hc⟩ := Option.bind_eq_some_iff.1 hc
    obtain ⟨d', hd', hr⟩ := along_cons.1 hr
    rw [hd] at hd'
    cases hd'
    have hchildren : ∀ (j : ℕ) (a a' : Element), e.children[j]? = some a →
        (e.changeAt g (i :: p)).children[j]? = some a' → a' = if i = j then a.changeAt g p else a := by
      intro j a a' ha ha'
      rw [children_changeAt, List.getElem?_modify, ha] at ha'
      exact (Option.some.inj ha').symm
    refine .mk (agree_changeAt role) ?_ ?_ ?_
    · intro _
      rw [children_changeAt, List.length_modify]
    · intro _ j a a' ha ha'
      rw [hchildren j a a' ha ha']
      split
      · rw [name_changeAt hg]
      · rfl
    · intro _ j a a' ha ha'
      rw [hchildren j a a' ha ha']
      split
      · rename_i hij
        subst hij
        rw [hd] at ha
        cases ha
        exact ih hc hr
      · exact Alike.refl _ _

/-- **An edit that leaves an element alike makes no difference.** -/
theorem readResume_changeAt {root : Element} {g : Element → Element} (hg : ∀ c, (g c).name = c.name)
    (hc : Stands root p c r) (h : Alike r c (g c)) : readResume (root.changeAt g p) = readResume root :=
  (readResume_alike (alike_changeAt hg hc.1 hc.2 h)).symm

end Vitae.Schema
