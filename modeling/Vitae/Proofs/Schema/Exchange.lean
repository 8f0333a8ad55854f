import Vitae.Proofs.Schema.Heredity
import Vitae.Proofs.Schema.Role

/-!
# Neighbours that change places

What a tree says depends on the order of its children only within a kind, so two neighbours of
different kinds may change places. What is reported is then reported in another order at most.

* `reports`: what is logged of findings that break no rule.
* `Same`: elements that say the same in a role, with the same reports in some order.
* `readResume_orderFree`: **the schema is free of order and hereditary.**
-/

namespace Vitae.Schema

open Markup (Attribute Element Node Path exists_children_changeAt)

variable {root e e' b c c' d s s' : Element} {p : Path} {before after es es' : List Element}
  {fs gs : List Finding} {role : Role}

/-! ## Reports -/

/-- What is logged of those findings that break no rule. -/
def reports (fs : List Finding) : List Diagnostic := (fs.filter (·.Harmless)).map Finding.diagnostic

theorem reports_append (fs gs : List Finding) : reports (fs ++ gs) = reports fs ++ reports gs := by
  unfold reports
  rw [List.filter_append, List.map_append]

theorem reports_of_harmless (h : ∀ f ∈ fs, f.Harmless) : reports fs = fs.map Finding.diagnostic := by
  unfold reports
  rw [List.filter_eq_self.2 fun f hf => decide_eq_true (h f hf)]

/-- Paths play no part in what is logged. -/
theorem reports_under (i : ℕ) (fs : List Finding) : reports (fs.map (.under i)) = reports fs := by
  unfold reports
  rw [List.filter_map, List.map_map]
  rfl

/-- What is logged of children is logged child by child, wherever they stand. -/
theorem reports_overChildren {judge : ℕ → Element → List Finding} {report : Element → List Diagnostic}
    (h : ∀ i c, reports (judge i c) = report c) (es : List Element) :
    reports (overChildren judge es) = es.flatMap report := by
  have key : ∀ (es : List Element) (i : ℕ),
      reports ((es.zipIdx i).flatMap fun x => (judge x.2 x.1).map (.under x.2)) = es.flatMap report := by
    intro es
    induction es with
    | nil => intro i; rfl
    | cons c es ih =>
      intro i
      rw [List.zipIdx_cons, List.flatMap_cons, reports_append, reports_under, h, ih, List.flatMap_cons]
  exact key es 0

theorem reports_judgeTitle (e : Element) : reports (judgeTitle e) = [] := by
  rcases judgeTitle_eq e with h | h <;> rw [h] <;> rfl

theorem reports_judgeList (l : Element) : reports (judgeList l) = [] := by
  have hitem : ∀ (i : ℕ) (c : Element), reports (judgeItem c) = [] := by
    intro _ c
    unfold judgeItem
    split_ifs <;> rfl
  unfold judgeList
  rw [reports_overChildren hitem]
  exact List.flatMap_eq_nil_iff.2 fun _ _ => rfl

/-- What is logged of a child of an entry. -/
def reportsInEntry (c : Element) : List Diagnostic := reports (judgeEntryChild [] c)

/-- What is logged of a child of a section and all below it. -/
def reportsInSection (c : Element) : List Diagnostic := reports (judgeSectionChild 1 c)

/-- What is logged of a child of the root and all below it. -/
def reportsBelowRoot (c : Element) : List Diagnostic := reports (judgeRootChild c)

theorem reports_judgeEntryChild (before : List Element) (c : Element) :
    reports (judgeEntryChild before c) = reportsInEntry c := by
  unfold reportsInEntry judgeEntryChild
  cases EntryKind.ofName c.name with
  | list =>
    simp only
    rw [reports_append, reports_append, reports_judgeList]
    split_ifs <;> rfl
  | _ => rfl

theorem reports_judgeSectionChild (n : ℕ) (c : Element) :
    reports (judgeSectionChild n c) = reportsInSection c := by
  unfold reportsInSection judgeSectionChild
  cases SectionKind.ofName c.name with
  | list =>
    simp only
    rw [reports_append, reports_append, reports_judgeList]
    split_ifs <;> rfl
  | _ => rfl

theorem reports_judgeEntry (e : Element) : reports (judgeEntry e) = e.children.flatMap reportsInEntry := by
  unfold judgeEntry
  rw [reports_append, reports_judgeTitle, List.nil_append]
  exact reports_overChildren (fun i c => reports_judgeEntryChild _ c) e.children

theorem reports_judgeSection (s : Element) :
    reports (judgeSection s) = s.children.flatMap reportsInSection := by
  unfold judgeSection
  rw [reports_append, reports_judgeTitle, List.nil_append]
  exact reports_overChildren (fun _ c => reports_judgeSectionChild _ c) s.children

theorem reports_findings (root : Element) :
    reports (findings root) = root.children.flatMap reportsBelowRoot := by
  have hchild : ∀ (_ : ℕ) (c : Element), reports (judgeRootChild c) = reportsBelowRoot c := fun _ _ => rfl
  exact reports_overChildren hchild root.children

/-- A child with the same reports in some order leaves those of its parent the same in some order. -/
theorem flatMap_perm_replace {report : Element → List Diagnostic} (h : (report c').Perm (report c))
    (before after : List Element) :
    ((before ++ c' :: after).flatMap report).Perm ((before ++ c :: after).flatMap report) := by
  rw [List.flatMap_append, List.flatMap_append, List.flatMap_cons, List.flatMap_cons]
  exact (h.append_right _).append_left _

/-- Neighbours that change places leave the reports the same in some order. -/
theorem flatMap_perm_swap (report : Element → List Diagnostic) (b c : Element) (before after : List Element) :
    ((before ++ c :: b :: after).flatMap report).Perm ((before ++ b :: c :: after).flatMap report) :=
  List.Perm.flatMap_right report ((List.Perm.swap b c after).append_left before)

/-! ## What is said -/

/-- A child that is not looked for may be replaced by one of the same name. -/
theorem filter_replace {P : String → Bool} (hname : c'.name = c.name) (hP : P c.name = false)
    (before after : List Element) :
    (before ++ c' :: after).filter (P ·.name) = (before ++ c :: after).filter (P ·.name) := by
  rw [List.filter_append, List.filter_append, List.filter_cons_of_neg (by simp [hname, hP]),
    List.filter_cons_of_neg (by simp [hP])]

/-- Of two neighbours with different roles at most one is looked for, so their order does not matter. -/
theorem filter_swap {P : String → Bool} {r : Role} (hkinds : role.below b.name ≠ role.below c.name)
    (hP : ∀ name, P name = true → role.below name = r) (before after : List Element) :
    (before ++ c :: b :: after).filter (P ·.name) = (before ++ b :: c :: after).filter (P ·.name) := by
  have hboth : ¬ (P b.name = true ∧ P c.name = true) := fun h => hkinds ((hP _ h.1).trans (hP _ h.2).symm)
  rw [List.filter_append, List.filter_append]
  by_cases hb : P b.name = true <;> by_cases hc : P c.name = true <;> simp_all

theorem lastText_congr {tags : List String}
    (h : es'.filter (fun c => decide (c.name ∈ tags)) = es.filter (fun c => decide (c.name ∈ tags))) :
    lastText tags es' = lastText tags es := by
  unfold lastText
  rw [h]

theorem find?_congr {name : String} (h : es'.filter (·.name = name) = es.filter (·.name = name)) :
    es'.find? (·.name = name) = es.find? (·.name = name) := by
  rw [← List.head?_filter, ← List.head?_filter, h]

/-- An entry says what its children of each kind say. -/
theorem entryOf_congr (title : String)
    (hfields : ∀ f : EntryField, es'.filter (fun c => decide (c.name ∈ f.tags)) =
      es.filter (fun c => decide (c.name ∈ f.tags)))
    (hlist : es'.filter (·.name = "list") = es.filter (·.name = "list")) :
    entryOf title es' = entryOf title es := by
  have htext : ∀ f : EntryField, lastText f.tags es' = lastText f.tags es := fun f => lastText_congr (hfields f)
  have horganization := htext .organization
  have hlocation := htext .location
  have hstart := htext .startDate
  have hend := htext .endDate
  simp only [EntryField.tags] at horganization hlocation hstart hend
  unfold entryOf
  rw [horganization, hlocation, hstart, hend, find?_congr hlist]

theorem bodyOf_congr (hlist : es'.filter (·.name = "list") = es.filter (·.name = "list"))
    (hentries : (es'.filter (·.name = "entry")).map (fun e => entryOf (titleOf e) e.children) =
      (es.filter (·.name = "entry")).map fun e => entryOf (titleOf e) e.children) :
    bodyOf es' = bodyOf es := by
  unfold bodyOf
  rw [find?_congr hlist, hentries]

theorem resumeOf_congr
    (hfields : ∀ f : IdentityField, es'.filter (fun c => decide (c.name ∈ [f.label])) =
      es.filter (fun c => decide (c.name ∈ [f.label])))
    (hsections : (es'.filter (·.name = "section")).map sectionOf = (es.filter (·.name = "section")).map sectionOf) :
    resumeOf es' = resumeOf es := by
  have htext : ∀ f : IdentityField, lastText [f.label] es' = lastText [f.label] es := fun f => lastText_congr (hfields f)
  have hname := htext .name
  have haddress := htext .address
  have hemail := htext .email
  have hphone := htext .phone
  simp only [IdentityField.label] at hname haddress hemail hphone
  unfold resumeOf
  rw [hname, haddress, hemail, hphone, hsections]

/-! ## Level by level -/

/-- Elements with the same tag that say the same, with the same reports in some order. -/
structure Same {α : Type} (say : Element → α) (report : Element → List Diagnostic) (e e' : Element) : Prop where
  tag : e'.tag = e.tag
  said : say e' = say e
  reported : (report e').Perm (report e)

/-- What an entry says. -/
def entrySaid (e : Element) : Entry := entryOf (titleOf e) e.children

def SameEntry : Element → Element → Prop := Same entrySaid fun e => reports (judgeEntry e)

def SameSection : Element → Element → Prop := Same sectionOf fun s => reports (judgeSection s)

def SameRoot : Element → Element → Prop := Same (fun root => resumeOf root.children) fun root => reports (findings root)

theorem titleOf_congr (h : e'.tag = e.tag) : titleOf e' = titleOf e := by
  unfold titleOf
  rw [h]

section

variable (htag : e'.tag = e.tag) (hbefore : e.children = before ++ b :: c :: after)
  (hafter : e'.children = before ++ c :: b :: after)
include htag hbefore hafter

theorem sameEntry_swap (hkinds : Role.entry.below b.name ≠ Role.entry.below c.name) : SameEntry e e' := by
  refine ⟨htag, ?_, ?_⟩
  · unfold entrySaid
    rw [titleOf_congr htag, hbefore, hafter]
    refine entryOf_congr _ ?_ ?_
    · intro f
      refine filter_swap (P := fun name => name ∈ f.tags) (r := .field f) hkinds ?_ before after
      intro name hname
      exact Role.below_eq_iff.2 (.field f (of_decide_eq_true hname))
    · refine filter_swap (P := fun name => name = "list") (r := .list) hkinds ?_ before after
      intro name hname
      exact Role.below_eq_iff.2 (.listOfEntry (of_decide_eq_true hname))
  · simp only [reports_judgeEntry]
    rw [hbefore, hafter]
    exact flatMap_perm_swap reportsInEntry b c before after

theorem sameSection_swap (hkinds : Role.part.below b.name ≠ Role.part.below c.name) : SameSection e e' := by
  refine ⟨htag, ?_, ?_⟩
  · unfold sectionOf
    rw [titleOf_congr htag, hbefore, hafter, bodyOf_congr]
    · refine filter_swap (P := fun name => name = "list") (r := .list) hkinds ?_ before after
      intro name hname
      exact Role.below_eq_iff.2 (.listOfPart (of_decide_eq_true hname))
    · rw [filter_swap (P := fun name => name = "entry") (r := .entry) hkinds ?_ before after]
      intro name hname
      exact Role.below_eq_iff.2 (.entry (of_decide_eq_true hname))
  · simp only [reports_judgeSection]
    rw [hbefore, hafter]
    exact flatMap_perm_swap reportsInSection b c before after

theorem sameRoot_swap (hkinds : Role.root.below b.name ≠ Role.root.below c.name) : SameRoot e e' := by
  refine ⟨htag, ?_, ?_⟩
  · rw [hbefore, hafter]
    refine resumeOf_congr ?_ ?_
    · intro f
      refine filter_swap (P := fun name => name ∈ [f.label]) (r := .identity f) hkinds ?_ before after
      intro name hname
      exact Role.below_eq_iff.2 (.identity f (List.mem_singleton.1 (of_decide_eq_true hname)))
    · rw [filter_swap (P := fun name => name = "section") (r := .part) hkinds ?_ before after]
      intro name hname
      exact Role.below_eq_iff.2 (.part (of_decide_eq_true hname))
  · simp only [reports_findings]
    rw [hbefore, hafter]
    exact flatMap_perm_swap reportsBelowRoot b c before after

end

section

variable (htag : e'.tag = e.tag) (hbefore : e.children = before ++ c :: after)
  (hafter : e'.children = before ++ c' :: after)
include htag hbefore hafter

/-- A section says the same if an entry in it does. -/
theorem sameSection_of_entry (hname : c.name = "entry") (h : SameEntry c c') : SameSection e e' := by
  have hname' : c'.name = c.name := congrArg Markup.Tag.name h.tag
  have hreport : (reportsInSection c').Perm (reportsInSection c) := by
    unfold reportsInSection judgeSectionChild
    rw [hname', SectionKind.ofName_eq_entry.2 hname]
    exact h.reported
  refine ⟨htag, ?_, ?_⟩
  · unfold sectionOf
    rw [titleOf_congr htag, hbefore, hafter, bodyOf_congr]
    · exact filter_replace (P := fun name => name = "list") hname' (by simp [hname]) before after
    · have hsaid : entryOf (titleOf c') c'.children = entryOf (titleOf c) c.children := h.said
      rw [List.filter_append, List.filter_append, List.filter_cons_of_pos (by simp [hname', hname]),
        List.filter_cons_of_pos (by simp [hname])]
      simp only [List.map_append, List.map_cons]
      rw [hsaid]
  · simp only [reports_judgeSection]
    rw [hbefore, hafter]
    exact flatMap_perm_replace hreport before after

/-- A root says the same if a section in it does. -/
theorem sameRoot_of_section (hname : c.name = "section") (h : SameSection c c') : SameRoot e e' := by
  have hname' : c'.name = c.name := congrArg Markup.Tag.name h.tag
  have hreport : (reportsBelowRoot c').Perm (reportsBelowRoot c) := by
    unfold reportsBelowRoot judgeRootChild
    rw [hname', RootKind.ofName_eq_part.2 hname]
    exact h.reported
  refine ⟨htag, ?_, ?_⟩
  · rw [hbefore, hafter]
    refine resumeOf_congr ?_ ?_
    · intro f
      have hother : decide (c.name ∈ [f.label]) = false := by cases f <;> simp [hname, IdentityField.label]
      exact filter_replace (P := fun name => name ∈ [f.label]) hname' hother before after
    · rw [List.filter_append, List.filter_append, List.filter_cons_of_pos (by simp [hname', hname]),
        List.filter_cons_of_pos (by simp [hname])]
      simp only [List.map_append, List.map_cons]
      rw [h.said]
  · simp only [reports_findings]
    rw [hbefore, hafter]
    exact flatMap_perm_replace hreport before after

end

/-! ## Edits -/

/-- A root is read as a résumé. -/
def Accepted (root : Element) (log : Log) : Prop := ∃ r, ((readResume root).after log).1 = .ok r

/-- A tree that conforms is read as what it says, and what means nothing in it is logged. -/
theorem after_of_conforms (h : Conforms root) (log : Log) : (readResume root).after log =
    (.ok (resumeOf root.children), log ++ (reports (findings root)).toArray) := by
  obtain ⟨hname, hnone⟩ := (conforms_iff root).1 h
  have hharmless := (harmless_findings_iff root).2 hnone
  rw [readResume_eq, if_pos hname, after_conclude_of_harmless hharmless, reports_of_harmless hharmless]

theorem accepted_iff {log : Log} : Accepted root log ↔ Conforms root := by
  constructor
  · rintro ⟨r, hok⟩
    exact conforms_of_accepted hok
  · intro hconforms
    exact ⟨_, congrArg Prod.fst (after_of_conforms hconforms log)⟩

/-- **Two neighbours with different roles change places**, and their root says the same. -/
theorem sameRoot_changeAt {nodes : List Node} (hconforms : Conforms root) (hd : Stands root p d role)
    (hbefore : d.children = before ++ b :: c :: after)
    (hafter : nodes.filterMap Node.element? = before ++ c :: b :: after)
    (hkinds : role.below b.name ≠ role.below c.name) : SameRoot root (root.changeAt (Element.refill nodes) p) := by
  have hswapped : (d.refill nodes).children = before ++ c :: b :: after := hafter
  cases role with
  | root =>
    obtain ⟨rfl, rfl⟩ := stands_root_iff.1 hd
    exact sameRoot_swap rfl hbefore hswapped hkinds
  | part =>
    obtain ⟨i, rfl, -, hname⟩ := stands_part_iff.1 hd
    obtain ⟨_, s, _, -, hchildren, hs, hchanged⟩ := exists_children_changeAt hd.1
    cases hs
    exact sameRoot_of_section rfl hchildren (hchanged _) hname (sameSection_swap rfl hbefore hswapped hkinds)
  | entry =>
    obtain ⟨i, s, j, rfl, hs, hsName, -, hname⟩ := stands_entry_iff.1 hd
    obtain ⟨_, s', _, hs', hchildren, he, hchanged⟩ := exists_children_changeAt hd.1
    rw [hs] at hs'
    cases hs'
    obtain ⟨_, e, _, -, hentries, he, hchangedEntry⟩ := exists_children_changeAt he
    cases he
    have hentry : SameEntry d (d.refill nodes) := sameEntry_swap rfl hbefore hswapped hkinds
    have hsection : SameSection s (s.changeAt (Element.refill nodes) [j]) :=
      sameSection_of_entry rfl hentries (hchangedEntry _) hname hentry
    exact sameRoot_of_section rfl hchildren (hchanged _) hsName hsection
  | list =>
    -- in a list that conforms all children are items
    have hitem : ∀ e ∈ d.children, Role.list.below e.name = .item := fun e he =>
      Role.below_eq_iff.2 (.item (hconforms.list hd e he).1)
    rw [hbefore] at hitem
    exact absurd ((hitem b (by simp)).trans (hitem c (by simp)).symm) hkinds
  -- all children have the same role
  | _ => exact absurd rfl hkinds

/-- **The schema is free of order and hereditary.** Putting the children of any element in another
order changes nothing of whether a tree is accepted. Taking a child with all below it out of any element
of an accepted tree leaves the tree accepted. And where two neighbours among the children of an element
of an accepted tree are of different kinds there, the tree is read as the same résumé once they have
changed places, and the same is logged in some order. What else an element holds besides its children may
change with them. -/
theorem readResume_orderFree (root : Element) (log : Log) :
    (∀ p d nodes, root.at? p = some d → (nodes.filterMap Node.element?).Perm d.children →
      (Accepted (root.changeAt (Element.refill nodes) p) log ↔ Accepted root log)) ∧
    (Accepted root log → ∀ p d nodes before x after, root.at? p = some d → d.children = before ++ x :: after →
      nodes.filterMap Node.element? = before ++ after → Accepted (root.changeAt (Element.refill nodes) p) log) ∧
    (∀ r, ((readResume root).after log).1 = .ok r → ∀ p d role nodes before b c after,
      Stands root p d role → d.children = before ++ b :: c :: after →
      nodes.filterMap Node.element? = before ++ c :: b :: after → role.below b.name ≠ role.below c.name →
      ∃ found found' : List Diagnostic, (readResume root).after log = (.ok r, log ++ found.toArray) ∧
        (readResume (root.changeAt (Element.refill nodes) p)).after log = (.ok r, log ++ found'.toArray) ∧
        found'.Perm found) := by
  refine ⟨?_, ?_, ?_⟩
  · intro p d nodes hd hperm
    rw [accepted_iff, accepted_iff]
    constructor
    · exact Conforms.thinned (changeAt_thinned hd (.here rfl hperm.symm.subperm))
    · exact Conforms.thinned (thinned_changeAt hd (.here rfl hperm.subperm))
  · intro haccepted p d nodes before x after hd hbefore hafter
    rw [accepted_iff] at haccepted ⊢
    have hfewer : (d.refill nodes).children.Subperm d.children := by
      show (nodes.filterMap Node.element?).Subperm d.children
      rw [hbefore, hafter]
      exact ((List.sublist_cons_self x after).append_left before).subperm
    exact haccepted.thinned (thinned_changeAt hd (.here rfl hfewer))
  · intro r hok p d role nodes before b c after hd hbefore hafter hkinds
    have hconforms := conforms_of_accepted hok
    rw [after_of_conforms hconforms] at hok
    cases hok
    have hsame := sameRoot_changeAt hconforms hd hbefore hafter hkinds
    have hconforms' : Conforms (root.changeAt (Element.refill nodes) p) := by
      refine hconforms.thinned (thinned_changeAt hd.1 (.here rfl ?_))
      show (nodes.filterMap Node.element?).Subperm d.children
      rw [hbefore, hafter]
      exact ((List.Perm.swap b c after).append_left before).subperm
    refine ⟨reports (findings root), reports (findings (root.changeAt (Element.refill nodes) p)), ?_, ?_, hsame.reported⟩
    · exact after_of_conforms hconforms log
    · rw [after_of_conforms hconforms', hsame.said]

/-- A section with some children, the only one of its root. -/
def evening (children : List Element) : Element where
  tag := ⟨none, "resume", [], 1⟩
  nodes := [.element ⟨none, "section", [⟨none, "title", "Evening"⟩], 2⟩ (children.map Element.node)]

/-- Music means nothing in a section. -/
def music : Element where
  tag := ⟨none, "music", [], 3⟩
  nodes := []

/-- An entry that may lack a title. -/
def talk (attributes : List Attribute) (line : ℕ) : Element where
  tag := ⟨none, "entry", attributes, line⟩
  nodes := []

/-- An evening of music and a talk is accepted in either order, and without the music. The talk is the
same after the music and before it. -/
theorem evening_orderFree :
    Accepted (evening [talk [⟨none, "title", "Talk"⟩] 4, music]) #[] ∧
      Accepted (evening [talk [⟨none, "title", "Talk"⟩] 4]) #[] ∧
      ∃ found : List Diagnostic, (readResume (evening [talk [⟨none, "title", "Talk"⟩] 4, music])).after #[] =
          (.ok { sections := [{ title := "Evening", body := .entries [{ title := "Talk" }] }] }, #[] ++ found.toArray) ∧
        found.Perm [⟨3, "music"⟩] := by
  have hread : (readResume (evening [music, talk [⟨none, "title", "Talk"⟩] 4])).after #[] =
      (.ok { sections := [{ title := "Evening", body := .entries [{ title := "Talk" }] }] }, #[⟨3, "music"⟩]) := rfl
  have hok := congrArg Prod.fst hread
  obtain ⟨horder, hheredity, hswap⟩ := readResume_orderFree (evening [music, talk [⟨none, "title", "Talk"⟩] 4]) #[]
  have hstands : Stands (evening [music, talk [⟨none, "title", "Talk"⟩] 4]) [0]
      ⟨⟨none, "section", [⟨none, "title", "Evening"⟩], 2⟩, [music.node, (talk [⟨none, "title", "Talk"⟩] 4).node]⟩
      .part := ⟨rfl, rfl⟩
  obtain ⟨found, found', hfound, hfound', hperm⟩ := hswap _ hok [0] _ .part
    [(talk [⟨none, "title", "Talk"⟩] 4).node, music.node] [] music _ [] hstands rfl rfl (by decide)
  have hsame : found = [⟨3, "music"⟩] := by
    rw [hread] at hfound
    simpa using (congrArg Prod.snd hfound).symm
  refine ⟨(horder [0] _ [(talk [⟨none, "title", "Talk"⟩] 4).node, music.node] hstands.1 ?_).2 ⟨_, hok⟩, ?_, ?_⟩
  · exact List.Perm.swap _ _ _
  · exact hheredity ⟨_, hok⟩ [0] _ [(talk [⟨none, "title", "Talk"⟩] 4).node] [] music [_] hstands.1 rfl rfl
  · rw [← hsame]
    exact ⟨found', hfound', hperm⟩

/-- Which rule is found broken first does depend on the order. -/
example : ((readResume (evening [talk [] 3, talk [] 4])).after #[]).1 = .error (.broken 3 .untitled) ∧
    ((readResume (evening [talk [] 4, talk [] 3])).after #[]).1 = .error (.broken 4 .untitled) := ⟨rfl, rfl⟩

end Vitae.Schema
