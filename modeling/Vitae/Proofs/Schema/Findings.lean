import Vitae.Proofs.Markup.Path
import Vitae.Proofs.Schema.Grammar

/-!
# Findings in document order

Every element that the schema has something to say about, with the path to it: the
elements that mean nothing where they stand and the elements that break a rule.

* `Noted`: the findings of a tree as a relation, one constructor per rule.
* `findings`: the same findings as a list (`mem_findings`), in document order and each
  once (`findings_pairwise`).
-/

namespace Vitae.Schema

open Markup (Element Path cons_lt_cons)

/-- What the schema has to say about an element. -/
inductive Note where
  | unrecognized
  | breaks (rule : Violation)
  deriving DecidableEq

/-! ## The relation -/

/-- What is to be said of the items of a list. -/
inductive NotedInList (l : Element) : Path → Element → Note → Prop
  | stranger {i : ℕ} {c : Element} : l.children[i]? = some c → c.name ≠ "item" →
      NotedInList l [i] c (.breaks .strangerInList)
  | crowded {i : ℕ} {c : Element} : l.children[i]? = some c → c.name = "item" → c.children ≠ [] →
      NotedInList l [i] c (.breaks .elementInItem)

/-- What is to be said of an entry and all below it. -/
inductive NotedInEntry (e : Element) : Path → Element → Note → Prop
  | untitled : ¬ Titled e → NotedInEntry e [] e (.breaks .untitled)
  | secondList {i j : ℕ} {first l : Element} : e.children[i]? = some first → first.name = "list" → i < j →
      e.children[j]? = some l → l.name = "list" → NotedInEntry e [j] l (.breaks .secondList)
  | inList {i : ℕ} {l c : Element} {p : Path} {n : Note} : e.children[i]? = some l → l.name = "list" →
      NotedInList l p c n → NotedInEntry e (i :: p) c n
  | unrecognized {i : ℕ} {c : Element} : e.children[i]? = some c →
      c.name ∉ ["organization", "location", "start_date", "date", "end_date", "list"] →
      NotedInEntry e [i] c .unrecognized

/-- What is to be said of a section and all below it. -/
inductive NotedInSection (s : Element) : Path → Element → Note → Prop
  | untitled : ¬ Titled s → NotedInSection s [] s (.breaks .untitled)
  | listNotAlone {i : ℕ} {l : Element} : s.children[i]? = some l → l.name = "list" →
      s.children.length ≠ 1 → NotedInSection s [i] l (.breaks .listNotAlone)
  | inList {i : ℕ} {l c : Element} {p : Path} {n : Note} : s.children[i]? = some l → l.name = "list" →
      NotedInList l p c n → NotedInSection s (i :: p) c n
  | inEntry {i : ℕ} {e c : Element} {p : Path} {n : Note} : s.children[i]? = some e → e.name = "entry" →
      NotedInEntry e p c n → NotedInSection s (i :: p) c n
  | unrecognized {i : ℕ} {c : Element} : s.children[i]? = some c → c.name ∉ ["list", "entry"] →
      NotedInSection s [i] c .unrecognized

/-- What is to be said of a root and all below it. -/
inductive Noted (root : Element) : Path → Element → Note → Prop
  | inSection {i : ℕ} {s c : Element} {p : Path} {n : Note} : root.children[i]? = some s →
      s.name = "section" → NotedInSection s p c n → Noted root (i :: p) c n
  | unrecognized {i : ℕ} {c : Element} : root.children[i]? = some c →
      c.name ∉ ["name", "address", "email", "phone", "section"] → Noted root [i] c .unrecognized

/-! ## The list -/

/-- A note, the element it is about and the path to it. -/
structure Finding where
  path : Path
  element : Element
  note : Note

namespace Finding

/-- A note about an element itself. -/
def on (e : Element) (n : Note) : Finding := ⟨[], e, n⟩

/-- A finding at or below the child `i`, seen from its parent. -/
def under (i : ℕ) (f : Finding) : Finding := { f with path := i :: f.path }

end Finding

/-- The findings about some children and all below them, one child after the other. -/
def overChildren (judge : ℕ → Element → List Finding) (es : List Element) : List Finding :=
  es.zipIdx.flatMap fun x => (judge x.2 x.1).map (.under x.2)

/-- The findings about a child of a list. -/
def judgeItem (c : Element) : List Finding :=
  if c.name ≠ "item" then [.on c (.breaks .strangerInList)]
  else if c.children.isEmpty then []
  else [.on c (.breaks .elementInItem)]

/-- The findings below a list. -/
def judgeList (l : Element) : List Finding := overChildren (fun _ => judgeItem) l.children

/-- The finding about an element that needs a title. -/
def judgeTitle (e : Element) : List Finding :=
  if Titled e then [] else [.on e (.breaks .untitled)]

/-- The findings about a child of an entry and all below it, from the children before it. -/
def judgeEntryChild (before : List Element) (c : Element) : List Finding :=
  match EntryKind.ofName c.name with
  | .field _ => []
  | .list =>
    (if before.any (·.name = "list") then [.on c (.breaks .secondList)] else []) ++ judgeList c
  | .unrecognized => [.on c .unrecognized]

/-- The findings about an entry and all below it. -/
def judgeEntry (e : Element) : List Finding :=
  judgeTitle e ++ overChildren (fun i => judgeEntryChild (e.children.take i)) e.children

/-- The findings about one of `n` children of a section and all below it. -/
def judgeSectionChild (n : ℕ) (c : Element) : List Finding :=
  match SectionKind.ofName c.name with
  | .list => (if n = 1 then [] else [.on c (.breaks .listNotAlone)]) ++ judgeList c
  | .entry => judgeEntry c
  | .unrecognized => [.on c .unrecognized]

/-- The findings about a section and all below it. -/
def judgeSection (s : Element) : List Finding :=
  judgeTitle s ++ overChildren (fun _ => judgeSectionChild s.children.length) s.children

/-- The findings about a child of the root and all below it. -/
def judgeRootChild (c : Element) : List Finding :=
  match RootKind.ofName c.name with
  | .identity _ => []
  | .part => judgeSection c
  | .unrecognized => [.on c .unrecognized]

/-- The findings about all below a root. -/
def findings (root : Element) : List Finding := overChildren (fun _ => judgeRootChild) root.children

/-! ## The list holds what the relation says -/

theorem mem_overChildren {judge : ℕ → Element → List Finding} {es : List Element} {f : Finding} :
    f ∈ overChildren judge es ↔ ∃ i c g, es[i]? = some c ∧ g ∈ judge i c ∧ g.under i = f := by
  simp only [overChildren, List.mem_flatMap, List.mem_map, Prod.exists, List.mem_zipIdx_iff_getElem?]
  constructor
  · rintro ⟨c, i, hc, g, hg, rfl⟩
    exact ⟨i, c, g, hc, hg, rfl⟩
  · rintro ⟨i, c, g, hc, hg, rfl⟩
    exact ⟨c, i, hc, g, hg, rfl⟩

section

variable {p : Path} {c : Element} {n : Note}

theorem mem_on {d : Element} {m : Note} : ⟨p, c, n⟩ ∈ [Finding.on d m] ↔ p = [] ∧ c = d ∧ n = m := by
  rw [List.mem_singleton, Finding.on, Finding.mk.injEq]

theorem mem_judgeTitle {e : Element} :
    ⟨p, c, n⟩ ∈ judgeTitle e ↔ ¬ Titled e ∧ p = [] ∧ c = e ∧ n = .breaks .untitled := by
  unfold judgeTitle
  by_cases h : Titled e
  · simp [h]
  · rw [if_neg h, mem_on]
    simp [h]

theorem mem_judgeItem {d : Element} :
    ⟨p, c, n⟩ ∈ judgeItem d ↔
      (d.name ≠ "item" ∧ p = [] ∧ c = d ∧ n = .breaks .strangerInList) ∨
      (d.name = "item" ∧ d.children ≠ [] ∧ p = [] ∧ c = d ∧ n = .breaks .elementInItem) := by
  unfold judgeItem
  by_cases hname : d.name = "item"
  · rw [if_neg (not_not.2 hname)]
    by_cases hbelow : d.children = []
    · simp [hname, hbelow]
    · rw [if_neg (by simpa using hbelow), mem_on]
      simp [hname, hbelow]
  · rw [if_pos hname, mem_on]
    simp [hname]

theorem mem_judgeList {l : Element} : ⟨p, c, n⟩ ∈ judgeList l ↔ NotedInList l p c n := by
  rw [judgeList, mem_overChildren]
  constructor
  · rintro ⟨i, d, ⟨q, _, _⟩, hd, hg, hf⟩
    cases hf
    rcases mem_judgeItem.1 hg with ⟨hname, rfl, rfl, rfl⟩ | ⟨hname, hbelow, rfl, rfl, rfl⟩
    · exact .stranger hd hname
    · exact .crowded hd hname hbelow
  · intro h
    cases h with
    | stranger hc hname =>
      exact ⟨_, c, .on c _, hc, mem_judgeItem.2 (Or.inl ⟨hname, rfl, rfl, rfl⟩), rfl⟩
    | crowded hc hname hbelow =>
      exact ⟨_, c, .on c _, hc, mem_judgeItem.2 (Or.inr ⟨hname, hbelow, rfl, rfl, rfl⟩), rfl⟩

/-- A list comes second if one of the children before it is a list. -/
theorem any_take_iff {es : List Element} {j : ℕ} :
    (es.take j).any (·.name = "list") ↔ ∃ i first, i < j ∧ es[i]? = some first ∧ first.name = "list" := by
  simp only [List.any_eq_true, decide_eq_true_eq, List.mem_take_iff_getElem, List.getElem?_eq_some_iff]
  constructor
  · rintro ⟨_, ⟨i, hi, rfl⟩, hname⟩
    exact ⟨i, _, by omega, ⟨by omega, rfl⟩, hname⟩
  · rintro ⟨i, first, hij, ⟨hi, hfirst⟩, hname⟩
    exact ⟨first, ⟨i, by omega, hfirst⟩, hname⟩

theorem mem_judgeEntryChild {before : List Element} {d : Element} :
    ⟨p, c, n⟩ ∈ judgeEntryChild before d ↔
      (d.name = "list" ∧ before.any (·.name = "list") ∧ p = [] ∧ c = d ∧ n = .breaks .secondList) ∨
      (d.name = "list" ∧ NotedInList d p c n) ∨
      (d.name ∉ ["organization", "location", "start_date", "date", "end_date", "list"] ∧
        p = [] ∧ c = d ∧ n = .unrecognized) := by
  -- names become the kinds that the definition splits on
  rw [← EntryKind.ofName_eq_list, ← EntryKind.ofName_eq_unrecognized]
  unfold judgeEntryChild
  cases EntryKind.ofName d.name with
  | field f => simp
  | list =>
    simp only [List.mem_append, mem_judgeList]
    by_cases hbefore : before.any (·.name = "list")
    · rw [if_pos hbefore, mem_on]
      simp [hbefore]
    · rw [if_neg hbefore]
      simp [hbefore]
  | unrecognized =>
    simp only [mem_on]
    simp

theorem mem_judgeEntry {e : Element} : ⟨p, c, n⟩ ∈ judgeEntry e ↔ NotedInEntry e p c n := by
  rw [judgeEntry, List.mem_append, mem_judgeTitle, mem_overChildren]
  constructor
  · rintro (⟨h, rfl, rfl, rfl⟩ | ⟨i, d, ⟨q, _, _⟩, hd, hg, hf⟩)
    · exact .untitled h
    cases hf
    rcases mem_judgeEntryChild.1 hg with ⟨hname, hbefore, rfl, rfl, rfl⟩ | ⟨hname, hbelow⟩ |
      ⟨hname, rfl, rfl, rfl⟩
    · obtain ⟨j, first, hj, hfirst, hlist⟩ := any_take_iff.1 hbefore
      exact .secondList hfirst hlist hj hd hname
    · exact .inList hd hname hbelow
    · exact .unrecognized hd hname
  · intro h
    cases h with
    | untitled h => exact Or.inl ⟨h, rfl, rfl, rfl⟩
    | secondList hfirst hlist hij hc hname =>
      have hbefore := any_take_iff.2 ⟨_, _, hij, hfirst, hlist⟩
      refine Or.inr ⟨_, c, .on c _, hc, mem_judgeEntryChild.2 ?_, rfl⟩
      exact Or.inl ⟨hname, hbefore, rfl, rfl, rfl⟩
    | inList hl hname hbelow =>
      refine Or.inr ⟨_, _, ⟨_, c, n⟩, hl, mem_judgeEntryChild.2 ?_, rfl⟩
      exact Or.inr (Or.inl ⟨hname, hbelow⟩)
    | unrecognized hc hname =>
      refine Or.inr ⟨_, c, .on c _, hc, mem_judgeEntryChild.2 ?_, rfl⟩
      exact Or.inr (Or.inr ⟨hname, rfl, rfl, rfl⟩)

theorem mem_judgeSectionChild {k : ℕ} {d : Element} :
    ⟨p, c, n⟩ ∈ judgeSectionChild k d ↔
      (d.name = "list" ∧ k ≠ 1 ∧ p = [] ∧ c = d ∧ n = .breaks .listNotAlone) ∨
      (d.name = "list" ∧ NotedInList d p c n) ∨ (d.name = "entry" ∧ NotedInEntry d p c n) ∨
      (d.name ∉ ["list", "entry"] ∧ p = [] ∧ c = d ∧ n = .unrecognized) := by
  rw [← SectionKind.ofName_eq_list, ← SectionKind.ofName_eq_entry, ← SectionKind.ofName_eq_unrecognized]
  unfold judgeSectionChild
  cases SectionKind.ofName d.name with
  | list =>
    simp only [List.mem_append, mem_judgeList]
    by_cases hcount : k = 1
    · rw [if_pos hcount]
      simp [hcount]
    · rw [if_neg hcount, mem_on]
      simp [hcount]
  | entry =>
    simp only [mem_judgeEntry]
    simp
  | unrecognized =>
    simp only [mem_on]
    simp

theorem mem_judgeSection {s : Element} : ⟨p, c, n⟩ ∈ judgeSection s ↔ NotedInSection s p c n := by
  rw [judgeSection, List.mem_append, mem_judgeTitle, mem_overChildren]
  constructor
  · rintro (⟨h, rfl, rfl, rfl⟩ | ⟨i, d, ⟨q, _, _⟩, hd, hg, hf⟩)
    · exact .untitled h
    cases hf
    rcases mem_judgeSectionChild.1 hg with ⟨hname, hcount, rfl, rfl, rfl⟩ | ⟨hname, hbelow⟩ |
      ⟨hname, hbelow⟩ | ⟨hname, rfl, rfl, rfl⟩
    · exact .listNotAlone hd hname hcount
    · exact .inList hd hname hbelow
    · exact .inEntry hd hname hbelow
    · exact .unrecognized hd hname
  · intro h
    cases h with
    | untitled h => exact Or.inl ⟨h, rfl, rfl, rfl⟩
    | listNotAlone hc hname hcount =>
      refine Or.inr ⟨_, c, .on c _, hc, mem_judgeSectionChild.2 ?_, rfl⟩
      exact Or.inl ⟨hname, hcount, rfl, rfl, rfl⟩
    | inList hl hname hbelow =>
      refine Or.inr ⟨_, _, ⟨_, c, n⟩, hl, mem_judgeSectionChild.2 ?_, rfl⟩
      exact Or.inr (Or.inl ⟨hname, hbelow⟩)
    | inEntry he hname hbelow =>
      refine Or.inr ⟨_, _, ⟨_, c, n⟩, he, mem_judgeSectionChild.2 ?_, rfl⟩
      exact Or.inr (Or.inr (Or.inl ⟨hname, hbelow⟩))
    | unrecognized hc hname =>
      refine Or.inr ⟨_, c, .on c _, hc, mem_judgeSectionChild.2 ?_, rfl⟩
      exact Or.inr (Or.inr (Or.inr ⟨hname, rfl, rfl, rfl⟩))

theorem mem_judgeRootChild {d : Element} :
    ⟨p, c, n⟩ ∈ judgeRootChild d ↔
      (d.name = "section" ∧ NotedInSection d p c n) ∨
      (d.name ∉ ["name", "address", "email", "phone", "section"] ∧ p = [] ∧ c = d ∧ n = .unrecognized) := by
  rw [← RootKind.ofName_eq_part, ← RootKind.ofName_eq_unrecognized]
  unfold judgeRootChild
  cases RootKind.ofName d.name with
  | identity f => simp
  | part =>
    simp only [mem_judgeSection]
    simp
  | unrecognized =>
    simp only [mem_on]
    simp

/-- **The findings are what is to be said of a root.** -/
theorem mem_findings {root : Element} : ⟨p, c, n⟩ ∈ findings root ↔ Noted root p c n := by
  rw [findings, mem_overChildren]
  constructor
  · rintro ⟨i, d, ⟨q, _, _⟩, hd, hg, hf⟩
    cases hf
    rcases mem_judgeRootChild.1 hg with ⟨hname, hbelow⟩ | ⟨hname, rfl, rfl, rfl⟩
    · exact .inSection hd hname hbelow
    · exact .unrecognized hd hname
  · intro h
    cases h with
    | inSection hs hname hbelow =>
      exact ⟨_, _, ⟨_, c, n⟩, hs, mem_judgeRootChild.2 (Or.inl ⟨hname, hbelow⟩), rfl⟩
    | unrecognized hc hname =>
      exact ⟨_, c, .on c _, hc, mem_judgeRootChild.2 (Or.inr ⟨hname, rfl, rfl, rfl⟩), rfl⟩

end

/-! ## The list is in document order -/

/-- Earlier in document order. -/
def Finding.Before (f g : Finding) : Prop := f.path < g.path

/-- Findings of children in document order make findings of their parent in document order. -/
theorem overChildren_pairwise {judge : ℕ → Element → List Finding} {es : List Element}
    (h : ∀ i c, (judge i c).Pairwise Finding.Before) : (overChildren judge es).Pairwise Finding.Before := by
  unfold overChildren
  refine List.pairwise_flatMap.2 ⟨?_, ?_⟩
  · rintro ⟨c, i⟩ -
    rw [List.pairwise_map]
    exact (h i c).imp fun hfg => cons_lt_cons.2 (Or.inr ⟨rfl, hfg⟩)
  · have hidx : (es.zipIdx.map (·.2)).Pairwise (· < ·) := by
      rw [List.zipIdx_map_snd]
      exact List.pairwise_lt_range'
    refine (List.pairwise_map.1 hidx).imp ?_
    rintro ⟨c, i⟩ ⟨d, j⟩ hij f hf g hg
    obtain ⟨f, -, rfl⟩ := List.mem_map.1 hf
    obtain ⟨g, -, rfl⟩ := List.mem_map.1 hg
    exact cons_lt_cons.2 (Or.inl hij)

/-- A note about an element itself comes before those about what is below it. -/
theorem on_append_pairwise {e : Element} {n : Note} {own : List Finding} (hown : own = [] ∨ own = [.on e n])
    {judge : ℕ → Element → List Finding} {es : List Element}
    (h : ∀ i c, (judge i c).Pairwise Finding.Before) :
    (own ++ overChildren judge es).Pairwise Finding.Before := by
  have hbelow : (overChildren judge es).Pairwise Finding.Before := overChildren_pairwise h
  rcases hown with rfl | rfl
  · exact hbelow
  · refine List.pairwise_cons.2 ⟨?_, hbelow⟩
    intro f hf
    obtain ⟨i, c, g, -, -, rfl⟩ := mem_overChildren.1 hf
    exact List.nil_lt_cons _ _

theorem judgeTitle_eq (e : Element) : judgeTitle e = [] ∨ judgeTitle e = [.on e (.breaks .untitled)] := by
  unfold judgeTitle
  split
  · exact Or.inl rfl
  · exact Or.inr rfl

theorem judgeItem_pairwise (c : Element) : (judgeItem c).Pairwise Finding.Before := by
  unfold judgeItem
  split
  · exact List.pairwise_singleton _ _
  · split
    · exact List.Pairwise.nil
    · exact List.pairwise_singleton _ _

theorem judgeEntryChild_pairwise (before : List Element) (c : Element) :
    (judgeEntryChild before c).Pairwise Finding.Before := by
  unfold judgeEntryChild
  split
  · exact List.Pairwise.nil
  · refine on_append_pairwise (e := c) (n := .breaks .secondList) ?_ fun _ => judgeItem_pairwise
    split
    · exact Or.inr rfl
    · exact Or.inl rfl
  · exact List.pairwise_singleton _ _

theorem judgeEntry_pairwise (e : Element) : (judgeEntry e).Pairwise Finding.Before :=
  on_append_pairwise (judgeTitle_eq e) fun _ => judgeEntryChild_pairwise _

theorem judgeSectionChild_pairwise (n : ℕ) (c : Element) :
    (judgeSectionChild n c).Pairwise Finding.Before := by
  unfold judgeSectionChild
  split
  · refine on_append_pairwise (e := c) (n := .breaks .listNotAlone) ?_ fun _ => judgeItem_pairwise
    split
    · exact Or.inl rfl
    · exact Or.inr rfl
  · exact judgeEntry_pairwise c
  · exact List.pairwise_singleton _ _

theorem judgeSection_pairwise (s : Element) : (judgeSection s).Pairwise Finding.Before :=
  on_append_pairwise (judgeTitle_eq s) fun _ => judgeSectionChild_pairwise _

/-- **The findings are in document order**, each once. -/
theorem findings_pairwise (root : Element) : (findings root).Pairwise Finding.Before := by
  refine overChildren_pairwise fun _ c => ?_
  unfold judgeRootChild
  split
  · exact List.Pairwise.nil
  · exact judgeSection_pairwise c
  · exact List.pairwise_singleton _ _

end Vitae.Schema
