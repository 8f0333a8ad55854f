import Mathlib.Data.List.Forall2
import Vitae.Proofs.Markup.OneMore
import Vitae.Proofs.Schema.Pruning
import Vitae.Proofs.Schema.Sight

/-!
# One element without a meaning more

A tree into which one element is put that means nothing where it comes to stand. Its findings are
those of the tree before, each where its element slid to, and one more for the new element. Once
it is pruned it is the tree before.

* `Gains`: lists of findings the second of which has one more for a new element.
* `findings_oneMore`: **the findings gain one.**
* `prune_oneMore`: **pruning takes the new element out again.**
-/

namespace Vitae.Schema

open Markup (Element Node OneMore Path Tag children_append children_append_cons element?_eq_some
  getElem?_children slide slide_nil slide_beside slide_here_of_le slide_here_of_lt slide_inside)

/-! ## Findings that gain one -/

/-- A finding and the same finding after the child `k` was put into the element at `p`. -/
structure Finding.Slid (p : Path) (k : ℕ) (f g : Finding) : Prop where
  path : g.path = slide p k f.path
  tag : g.element.tag = f.element.tag
  note : g.note = f.note

/-- The second findings are the first, each where its element slid to, and one more: the element
`x`, put into the element at `p` as the child `k`, means nothing there. -/
def Gains (p : Path) (k : ℕ) (x : Element) (fs gs : List Finding) : Prop :=
  ∃ before after before' after' : List Finding, fs = before ++ after ∧
    gs = before' ++ ⟨p ++ [k], x, .unrecognized⟩ :: after' ∧
    List.Forall₂ (Finding.Slid p k) before before' ∧ List.Forall₂ (Finding.Slid p k) after after'

variable {x e e' c d root root' : Element} {p : Path} {role : Role} {k i n n' : ℕ} {as bs es : List Element}
  {fs gs own own' : List Finding} {judge judge' : ℕ → Element → List Finding}

/-- The findings about children that are counted from `n` on. -/
def overFrom (judge : ℕ → Element → List Finding) (n : ℕ) (es : List Element) : List Finding :=
  (es.zipIdx n).flatMap fun y => (judge y.2 y.1).map (.under y.2)

theorem overChildren_eq_overFrom (judge : ℕ → Element → List Finding) (es : List Element) :
    overChildren judge es = overFrom judge 0 es := rfl

theorem overFrom_cons (judge : ℕ → Element → List Finding) (n : ℕ) (c : Element) (es : List Element) :
    overFrom judge n (c :: es) = (judge n c).map (.under n) ++ overFrom judge (n + 1) es := rfl

theorem overFrom_append (judge : ℕ → Element → List Finding) (n : ℕ) (as bs : List Element) :
    overFrom judge n (as ++ bs) = overFrom judge n as ++ overFrom judge (n + as.length) bs := by
  unfold overFrom
  rw [List.zipIdx_append, List.flatMap_append]

/-- Findings about children are related if they are child by child. -/
theorem forall₂_overFrom {R : Finding → Finding → Prop}
    (h : ∀ i c, es[i]? = some c →
      List.Forall₂ R ((judge (n + i) c).map (.under (n + i))) ((judge' (n' + i) c).map (.under (n' + i)))) :
    List.Forall₂ R (overFrom judge n es) (overFrom judge' n' es) := by
  induction es generalizing n n' with
  | nil => exact .nil
  | cons c es ih =>
    rw [overFrom_cons, overFrom_cons]
    refine List.rel_append (h 0 c rfl) (ih ?_)
    intro i d hd
    have hnext := h (i + 1) d hd
    rwa [← Nat.add_assoc, ← Nat.add_assoc, Nat.add_right_comm n i 1, Nat.add_right_comm n' i 1] at hnext

/-- Findings that keep to the same child, wherever it slid to. -/
theorem forall₂_under {R : Finding → Finding → Prop} {i j : ℕ} (h : ∀ f : Finding, R (f.under i) (f.under j))
    (fs : List Finding) : List.Forall₂ R (fs.map (.under i)) (fs.map (.under j)) := by
  rw [List.forall₂_map_left_iff, List.forall₂_map_right_iff]
  exact List.forall₂_same.2 fun f _ => h f

/-- **The findings of an element that takes the new one in.** -/
theorem gains_here (hown : List.Forall₂ (Finding.Slid [] as.length) own own')
    (hbefore : ∀ i c, as[i]? = some c → judge' i c = judge i c)
    (hx : judge' as.length x = [.on x .unrecognized])
    (hafter : ∀ i c, bs[i]? = some c → judge' (as.length + i + 1) c = judge (as.length + i) c) :
    Gains [] as.length x (own ++ overChildren judge (as ++ bs)) (own' ++ overChildren judge' (as ++ x :: bs)) := by
  refine ⟨own ++ overFrom judge 0 as, overFrom judge as.length bs, own' ++ overFrom judge' 0 as,
    overFrom judge' (as.length + 1) bs, ?_, ?_, ?_, ?_⟩
  · rw [overChildren_eq_overFrom, overFrom_append, Nat.zero_add, List.append_assoc]
  · rw [overChildren_eq_overFrom, overFrom_append, Nat.zero_add, overFrom_cons, hx, List.append_assoc]
    rfl
  · refine List.rel_append hown (forall₂_overFrom ?_)
    intro i c hc
    obtain ⟨hi, -⟩ := List.getElem?_eq_some_iff.1 hc
    rw [Nat.zero_add, hbefore i c hc]
    exact forall₂_under (fun f => ⟨(slide_here_of_lt hi).symm, rfl, rfl⟩) _
  · refine forall₂_overFrom ?_
    intro i c hc
    rw [Nat.add_right_comm, hafter i c hc]
    exact forall₂_under (fun f => ⟨(slide_here_of_le (Nat.le_add_right _ _)).symm, rfl, rfl⟩) _

/-- **The findings of an element further up**: those of the child that leads to the new element
gain one, those of the others stay. -/
theorem gains_inside {judge : Element → List Finding} {c c' : Element}
    (hown : List.Forall₂ (Finding.Slid (as.length :: p) k) own own') (h : Gains p k x (judge c) (judge c')) :
    Gains (as.length :: p) k x (own ++ overChildren (fun _ => judge) (as ++ c :: bs))
      (own' ++ overChildren (fun _ => judge) (as ++ c' :: bs)) := by
  obtain ⟨before, after, before', after', hfs, hgs, hbefore, hafter⟩ := h
  have hbeside : ∀ i, as.length ≠ i → ∀ f : Finding, Finding.Slid (as.length :: p) k (f.under i) (f.under i) :=
    fun i hi f => ⟨(slide_beside hi).symm, rfl, rfl⟩
  have hbelow : ∀ {fs gs : List Finding}, List.Forall₂ (Finding.Slid p k) fs gs →
      List.Forall₂ (Finding.Slid (as.length :: p) k) (fs.map (.under as.length)) (gs.map (.under as.length)) := by
    intro fs gs hfg
    rw [List.forall₂_map_left_iff, List.forall₂_map_right_iff]
    refine hfg.imp fun f g hslid => ⟨?_, hslid.tag, hslid.note⟩
    show as.length :: g.path = slide (as.length :: p) k (as.length :: f.path)
    rw [slide_inside, hslid.path]
  have has : List.Forall₂ (Finding.Slid (as.length :: p) k) (overFrom (fun _ => judge) 0 as)
      (overFrom (fun _ => judge) 0 as) := by
    refine forall₂_overFrom ?_
    intro i d hd
    obtain ⟨hi, -⟩ := List.getElem?_eq_some_iff.1 hd
    exact forall₂_under (hbeside _ (by omega)) _
  have hbs : List.Forall₂ (Finding.Slid (as.length :: p) k) (overFrom (fun _ => judge) (as.length + 1) bs)
      (overFrom (fun _ => judge) (as.length + 1) bs) := by
    refine forall₂_overFrom ?_
    intro i d _
    exact forall₂_under (hbeside _ (by omega)) _
  refine ⟨own ++ (overFrom (fun _ => judge) 0 as ++ before.map (.under as.length)),
    after.map (.under as.length) ++ overFrom (fun _ => judge) (as.length + 1) bs,
    own' ++ (overFrom (fun _ => judge) 0 as ++ before'.map (.under as.length)),
    after'.map (.under as.length) ++ overFrom (fun _ => judge) (as.length + 1) bs, ?_, ?_, ?_, ?_⟩
  · rw [overChildren_eq_overFrom, overFrom_append, Nat.zero_add, overFrom_cons, hfs, List.map_append]
    simp only [List.append_assoc]
  · rw [overChildren_eq_overFrom, overFrom_append, Nat.zero_add, overFrom_cons, hgs, List.map_append, List.map_cons]
    simp only [List.append_assoc, List.cons_append]
    rfl
  · exact List.rel_append hown (List.rel_append has (hbelow hbefore))
  · exact List.rel_append (hbelow hafter) hbs

/-! ## Level by level -/

/-- An element of this role takes in what means nothing to it, whatever it holds but for a list in a
section, which has to stand alone. -/
inductive Role.Hosts : Role → Element → Prop
  | root {e : Element} : Hosts .root e
  | part {s : Element} : (∀ l ∈ s.children, l.name ≠ "list") → Hosts .part s
  | entry {e : Element} : Hosts .entry e

/-- The title is looked for in the tag. -/
theorem slid_judgeTitle (p : Path) (k : ℕ) (tag : Tag) (nodes nodes' : List Node) :
    List.Forall₂ (Finding.Slid p k) (judgeTitle ⟨tag, nodes⟩) (judgeTitle ⟨tag, nodes'⟩) := by
  by_cases h : Titled ⟨tag, nodes⟩
  · have h' : Titled ⟨tag, nodes'⟩ := h
    unfold judgeTitle
    rw [if_pos h, if_pos h']
    exact .nil
  · have h' : ¬ Titled ⟨tag, nodes'⟩ := h
    unfold judgeTitle
    rw [if_neg h, if_neg h']
    exact .cons ⟨(slide_nil p k).symm, rfl, rfl⟩ .nil

/-- Of the children before a child of an entry it only matters whether there is a list. -/
theorem judgeEntryChild_congr {before before' : List Element} (c : Element)
    (h : before'.any (·.name = "list") = before.any (·.name = "list")) :
    judgeEntryChild before' c = judgeEntryChild before c := by
  unfold judgeEntryChild
  rw [h]

theorem gains_judgeEntry (h : OneMore x e [] k e') (hx : Role.entry.below x.name = .unrecognized) :
    Gains [] k x (judgeEntry e) (judgeEntry e') := by
  have hkind : EntryKind.ofName x.name = .unrecognized := EntryKind.role_injective hx
  have hlist : ¬ x.name = "list" := by
    intro hname
    rw [EntryKind.ofName_eq_list.2 hname] at hkind
    cases hkind
  cases h with
  | here tag before after =>
    unfold judgeEntry
    rw [children_append, children_append_cons]
    refine gains_here (slid_judgeTitle _ _ _ _ _) ?_ ?_ ?_
    · intro i c hc
      obtain ⟨hi, -⟩ := List.getElem?_eq_some_iff.1 hc
      rw [List.take_append_of_le_length (Nat.le_of_lt hi), List.take_append_of_le_length (Nat.le_of_lt hi)]
    · unfold judgeEntryChild
      rw [hkind]
    · intro i c _
      -- of the children before it the new one is no list
      refine judgeEntryChild_congr c ?_
      rw [Nat.add_assoc, List.take_length_add_append, List.take_length_add_append, List.take_succ_cons,
        List.any_append, List.any_append, List.any_cons]
      simp [hlist]

/-- The number of children of a section only matters to a list. -/
theorem judgeSectionChild_congr {n n' : ℕ} {c : Element} (h : c.name ≠ "list") :
    judgeSectionChild n' c = judgeSectionChild n c := by
  unfold judgeSectionChild
  cases hkind : SectionKind.ofName c.name with
  | list => exact absurd (SectionKind.ofName_eq_list.1 hkind) h
  | entry => rfl
  | unrecognized => rfl

theorem gains_judgeSection (h : OneMore x e [] k e') (hlist : ∀ l ∈ e.children, l.name ≠ "list")
    (hx : Role.part.below x.name = .unrecognized) : Gains [] k x (judgeSection e) (judgeSection e') := by
  have hkind : SectionKind.ofName x.name = .unrecognized := SectionKind.role_injective hx
  cases h with
  | here tag before after =>
    unfold judgeSection
    rw [children_append] at hlist ⊢
    rw [children_append_cons]
    refine gains_here (slid_judgeTitle _ _ _ _ _) ?_ ?_ ?_
    · intro i c hc
      exact judgeSectionChild_congr (hlist c (List.mem_append_left _ (List.mem_of_getElem? hc)))
    · unfold judgeSectionChild
      rw [hkind]
    · intro i c hc
      exact judgeSectionChild_congr (hlist c (List.mem_append_right _ (List.mem_of_getElem? hc)))

/-- A section gains a finding if the entry does that takes the new element in. -/
theorem gains_judgeSection_of_entry (h : OneMore x e (i :: p) k e') (hc : e.children[i]? = some c)
    (hname : c.name = "entry") (hgains : ∀ c', OneMore x c p k c' → Gains p k x (judgeEntry c) (judgeEntry c')) :
    Gains (i :: p) k x (judgeSection e) (judgeSection e') := by
  cases h with
  | @inside tag before after _ c' _ _ h =>
    rw [getElem?_children] at hc
    cases hc
    have hname' : c'.name = "entry" := h.name_eq.trans hname
    have hjudge : ∀ n, Gains p k x (judgeSectionChild n c) (judgeSectionChild n c') := by
      intro n
      unfold judgeSectionChild
      rw [SectionKind.ofName_eq_entry.2 hname, SectionKind.ofName_eq_entry.2 hname']
      exact hgains c' h
    unfold judgeSection
    rw [children_append_cons, children_append_cons, List.length_append, List.length_append, List.length_cons,
      List.length_cons]
    exact gains_inside (slid_judgeTitle _ _ _ _ _) (hjudge _)

theorem gains_findings (h : OneMore x e [] k e') (hx : Role.root.below x.name = .unrecognized) :
    Gains [] k x (findings e) (findings e') := by
  have hkind : RootKind.ofName x.name = .unrecognized := RootKind.role_injective hx
  cases h with
  | here tag before after =>
    unfold findings
    rw [children_append, children_append_cons]
    have hjudge : judgeRootChild x = [.on x .unrecognized] := by
      unfold judgeRootChild
      rw [hkind]
    have hown : List.Forall₂ (Finding.Slid [] (before.filterMap Node.element?).length) [] [] := .nil
    show Gains _ _ _ ([] ++ overChildren (fun _ => judgeRootChild) _) ([] ++ overChildren (fun _ => judgeRootChild) _)
    exact gains_here hown (fun _ _ _ => rfl) hjudge fun _ _ _ => rfl

/-- A root gains a finding if the section does that the new element is put into. -/
theorem gains_findings_of_section (h : OneMore x e (i :: p) k e') (hc : e.children[i]? = some c)
    (hname : c.name = "section")
    (hgains : ∀ c', OneMore x c p k c' → Gains p k x (judgeSection c) (judgeSection c')) :
    Gains (i :: p) k x (findings e) (findings e') := by
  cases h with
  | @inside tag before after _ c' _ _ h =>
    rw [getElem?_children] at hc
    cases hc
    have hname' : c'.name = "section" := h.name_eq.trans hname
    have hjudge : Gains p k x (judgeRootChild c) (judgeRootChild c') := by
      unfold judgeRootChild
      rw [RootKind.ofName_eq_part.2 hname, RootKind.ofName_eq_part.2 hname']
      exact hgains c' h
    unfold findings
    rw [children_append_cons, children_append_cons]
    have hown : List.Forall₂ (Finding.Slid ((before.filterMap Node.element?).length :: p) k) [] [] := .nil
    exact gains_inside hown hjudge

/-- **The findings gain one**, for the new element, and are otherwise those of before. -/
theorem findings_oneMore (h : OneMore x root p k root') (hd : Stands root p d role) (hhosts : role.Hosts d)
    (hx : role.below x.name = .unrecognized) : Gains p k x (findings root) (findings root') := by
  cases hhosts with
  | root =>
    obtain ⟨rfl, rfl⟩ := stands_root_iff.1 hd
    exact gains_findings h hx
  | part hlist =>
    obtain ⟨i, rfl, hs, hname⟩ := stands_part_iff.1 hd
    exact gains_findings_of_section h hs hname fun s' hs' => gains_judgeSection hs' hlist hx
  | entry =>
    obtain ⟨i, s, j, rfl, hs, hname, he, heName⟩ := stands_entry_iff.1 hd
    refine gains_findings_of_section h hs hname fun s' hs' => ?_
    exact gains_judgeSection_of_entry hs' he heName fun e' he' => gains_judgeEntry he' hx

/-! ## What is left after pruning -/

/-- A child that is not kept leaves nothing. -/
theorem sift_here {keep : Element → Option Element} (h : OneMore x e [] k e') (hx : keep x = none) :
    e'.sift keep = e.sift keep := by
  cases h with
  | here tag before after =>
    have hnode : Node.sift keep x.node = none := by
      unfold Node.sift
      rw [element?_eq_some.2 rfl]
      simp [hx]
    unfold Element.sift
    rw [List.filterMap_append, List.filterMap_append, List.filterMap_cons_none hnode]

/-- A child of which the same is kept leaves the same. -/
theorem sift_inside {keep : Element → Option Element} (h : OneMore x e (i :: p) k e')
    (hc : e.children[i]? = some c) (hkeep : ∀ c', OneMore x c p k c' → keep c' = keep c) :
    e'.sift keep = e.sift keep := by
  cases h with
  | @inside tag before after _ c' _ _ h =>
    rw [getElem?_children] at hc
    cases hc
    have hnode : Node.sift keep c'.node = Node.sift keep c.node := by
      unfold Node.sift
      rw [element?_eq_some.2 rfl, element?_eq_some.2 rfl]
      simp only
      rw [hkeep c' h]
    unfold Element.sift
    rw [List.filterMap_append, List.filterMap_append, List.filterMap_cons, List.filterMap_cons, hnode]

theorem keepBelowRoot_congr {s s' : Element} (hname : s'.name = s.name) (hs : s.name = "section")
    (h : pruneSection s' = pruneSection s) : keepBelowRoot s' = keepBelowRoot s := by
  unfold keepBelowRoot
  rw [hname, RootKind.ofName_eq_part.2 hs]
  simp only
  rw [h]

theorem keepInSection_congr (hname : e'.name = e.name) (he : e.name = "entry") (h : pruneEntry e' = pruneEntry e) :
    keepInSection e' = keepInSection e := by
  unfold keepInSection
  rw [hname, SectionKind.ofName_eq_entry.2 he]
  simp only
  rw [h]

/-- **Pruning takes the new element out again.** -/
theorem prune_oneMore (h : OneMore x root p k root') (hd : Stands root p d role) (hhosts : role.Hosts d)
    (hx : role.below x.name = .unrecognized) : prune root' = prune root := by
  cases hhosts with
  | root =>
    have hkind : RootKind.ofName x.name = .unrecognized := RootKind.role_injective hx
    obtain ⟨rfl, rfl⟩ := stands_root_iff.1 hd
    refine sift_here h ?_
    unfold keepBelowRoot
    rw [hkind]
  | part _ =>
    have hkind : SectionKind.ofName x.name = .unrecognized := SectionKind.role_injective hx
    obtain ⟨i, rfl, hs, hname⟩ := stands_part_iff.1 hd
    refine sift_inside h hs fun s' hs' => keepBelowRoot_congr hs'.name_eq hname (sift_here hs' ?_)
    unfold keepInSection
    rw [hkind]
  | entry =>
    have hkind : EntryKind.ofName x.name = .unrecognized := EntryKind.role_injective hx
    obtain ⟨i, s, j, rfl, hs, hname, he, heName⟩ := stands_entry_iff.1 hd
    refine sift_inside h hs fun s' hs' => keepBelowRoot_congr hs'.name_eq hname ?_
    refine sift_inside hs' he fun e' he' => keepInSection_congr he'.name_eq heName (sift_here he' ?_)
    unfold keepInEntry
    rw [hkind]

end Vitae.Schema
