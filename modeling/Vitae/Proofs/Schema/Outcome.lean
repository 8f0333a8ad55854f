import Vitae.Proofs.Schema.Levels

/-!
# What is reported

A rejected root is rejected for the first element in document order that breaks a rule,
whatever else is wrong with it, and the log has the elements before it that mean nothing.

* `readResume_error_iff`: **the first broken rule wins.**
* `readResume_log`: **exact diagnostics**, on success and at every point of failure.
-/

namespace Vitae.Schema

open Markup (Element Path)

variable {root : Element}

/-- The first element in document order that breaks a rule. -/
def FirstBroken (root : Element) (p : Path) (c : Element) (rule : Violation) : Prop :=
  Noted root p c (.breaks rule) ∧ ∀ q d rule', Noted root q d (.breaks rule') → q = p ∨ p < q

/-- Findings before and after one of them come before and after it in the document. -/
theorem findings_split {before after : List Finding} {f : Finding} (h : findings root = before ++ f :: after) :
    (∀ g ∈ before, g.path < f.path) ∧ ∀ g ∈ after, f.path < g.path := by
  have hpairwise := findings_pairwise root
  rw [h] at hpairwise
  obtain ⟨-, hafter, hbefore⟩ := List.pairwise_append.1 hpairwise
  exact ⟨fun g hg => hbefore g hg f List.mem_cons_self, (List.pairwise_cons.1 hafter).1⟩

/-- The first broken rule among the findings is the first in the document. -/
theorem firstBroken_iff {p : Path} {c : Element} {rule : Violation} :
    FirstBroken root p c rule ↔ ∃ before after, findings root = before ++ ⟨p, c, .breaks rule⟩ :: after ∧
      ∀ g ∈ before, g.Harmless := by
  constructor
  · rintro ⟨hnote, hfirst⟩
    obtain ⟨before, after, h⟩ := List.append_of_mem (mem_findings.2 hnote)
    refine ⟨before, after, h, ?_⟩
    rintro ⟨q, d, n⟩ hg
    cases n with
    | unrecognized => rfl
    | breaks rule' =>
      -- a broken rule before the first would be both before and after it
      have hlt := (findings_split h).1 _ hg
      have hmem : ⟨q, d, .breaks rule'⟩ ∈ findings root := by
        rw [h]
        exact List.mem_append_left _ hg
      rcases hfirst q d rule' (mem_findings.1 hmem) with rfl | hgt
      · exact absurd hlt (List.lt_irrefl _)
      · exact absurd hgt (List.lt_asymm hlt)
  · rintro ⟨before, after, h, hbefore⟩
    refine ⟨mem_findings.1 ?_, ?_⟩
    · rw [h]
      exact List.mem_append_right _ List.mem_cons_self
    · intro q d rule' hnote
      have hmem := mem_findings.2 hnote
      rw [h] at hmem
      rcases List.mem_append.1 hmem with hg | hg
      · have hharmless := hbefore _ hg
        cases hharmless
      · rcases List.mem_cons.1 hg with hg | hg
        · cases hg
          exact Or.inl rfl
        · exact Or.inr ((findings_split h).2 _ hg)

/-- **The first broken rule wins.** A root with another name is refused without a line and without
a look below it. Any other is refused exactly for the first element in document order that breaks
a rule, with its line and with the wording of that rule. -/
theorem readResume_error_iff (root : Element) (log : Log) (err : Error) :
    ((readResume root).after log).1 = .error err ↔
      (root.name ≠ "resume" ∧ err = .wrongRoot ∧ err.line? = none) ∨
      (root.name = "resume" ∧ ∃ p c rule, FirstBroken root p c rule ∧ err = .broken c.line rule ∧
        err.line? = some c.line ∧ err.text = rule.text) := by
  rw [readResume_eq]
  split
  · rename_i hname
    rw [after_conclude_error_iff]
    constructor
    · rintro ⟨before, ⟨p, c, n⟩, after, rule, h, hbefore, hf, rfl⟩
      simp only at hf
      subst hf
      exact Or.inr ⟨hname, p, c, rule, firstBroken_iff.2 ⟨before, after, h, hbefore⟩, rfl, rfl, rfl⟩
    · rintro (⟨hne, -⟩ | ⟨-, p, c, rule, hfirst, rfl, -⟩)
      · exact absurd hname hne
      · obtain ⟨before, after, h, hbefore⟩ := firstBroken_iff.1 hfirst
        exact ⟨before, _, after, rule, h, hbefore, rfl, rfl⟩
  · rename_i hname
    rw [Logged.after_throw]
    constructor
    · intro h
      cases h
      exact Or.inl ⟨hname, rfl, rfl⟩
    · rintro (⟨-, rfl, -⟩ | ⟨h, -⟩)
      · rfl
      · exact absurd h hname

/-- A root whose first section has its only title in a namespace and whose second has none. -/
def titledThenUntitled : Element where
  tag := ⟨none, "resume", [], 1⟩
  nodes := [.element ⟨none, "section", [⟨some "urn:x", "title", "A"⟩], 2⟩ [], .element ⟨none, "section", [], 3⟩ []]

/-- A title in a namespace is a title: the first section without any other is not at fault. -/
theorem titledThenUntitled_rejected :
    ((readResume titledThenUntitled).after #[]).1 = .error (.broken 3 .untitled) ∧
      ∃ s ∈ titledThenUntitled.children, s.name = "section" ∧ s.line = 2 ∧
        ∀ a ∈ s.tag.attributes, ¬ (a.space = none ∧ a.localName = "title") := by
  refine ⟨rfl, _, List.mem_cons_self, rfl, rfl, ?_⟩
  decide

/-! ## The log -/

/-- Where elements that mean nothing can stand: below the root, a section or an entry. -/
theorem noted_unrecognized_iff {p : Path} {c : Element} :
    Noted root p c .unrecognized ↔
      (∃ i, p = [i] ∧ root.children[i]? = some c ∧
        c.name ∉ ["name", "address", "email", "phone", "section"]) ∨
      (∃ i s j, p = [i, j] ∧ root.children[i]? = some s ∧ s.name = "section" ∧ s.children[j]? = some c ∧
        c.name ∉ ["list", "entry"]) ∨
      (∃ i s j e k, p = [i, j, k] ∧ root.children[i]? = some s ∧ s.name = "section" ∧
        s.children[j]? = some e ∧ e.name = "entry" ∧ e.children[k]? = some c ∧
        c.name ∉ ["organization", "location", "start_date", "date", "end_date", "list"]) := by
  constructor
  · intro h
    cases h with
    | unrecognized hc hname => exact Or.inl ⟨_, rfl, hc, hname⟩
    | inSection hs hsName hbelow =>
      cases hbelow with
      | unrecognized hc hname => exact Or.inr (Or.inl ⟨_, _, _, rfl, hs, hsName, hc, hname⟩)
      | inList _ _ hitem => cases hitem
      | inEntry he heName hdeeper =>
        cases hdeeper with
        | inList _ _ hitem => cases hitem
        | unrecognized hc hname =>
          exact Or.inr (Or.inr ⟨_, _, _, _, _, rfl, hs, hsName, he, heName, hc, hname⟩)
  · rintro (⟨i, rfl, hc, hname⟩ | ⟨i, s, j, rfl, hs, hsName, hc, hname⟩ |
      ⟨i, s, j, e, k, rfl, hs, hsName, he, heName, hc, hname⟩)
    · exact .unrecognized hc hname
    · exact .inSection hs hsName (.unrecognized hc hname)
    · exact .inSection hs hsName (.inEntry he heName (.unrecognized hc hname))

/-- A place below which nothing is reported: a list, or an element that means nothing. -/
def Closed (root : Element) (p : Path) : Prop :=
  ∃ c, root.at? p = some c ∧ (c.name = "list" ∨ Noted root p c .unrecognized)

/-- A place is open where an element stands that is no list and has a meaning there. -/
theorem not_closed {p : Path} {c : Element} (hc : root.at? p = some c) (hlist : c.name ≠ "list")
    (hnote : ¬ Noted root p c .unrecognized) : ¬ Closed root p := by
  rintro ⟨d, hd, h⟩
  rw [hc] at hd
  cases hd
  rcases h with h | h
  · exact hlist h
  · exact hnote h

theorem not_closed_root (hname : root.name = "resume") : ¬ Closed root [] := by
  refine not_closed rfl (by rw [hname]; decide) ?_
  intro hnote
  cases hnote

theorem not_closed_section {i : ℕ} {s : Element} (hs : root.children[i]? = some s) (hsName : s.name = "section") :
    ¬ Closed root [i] := by
  refine not_closed (c := s) (by simp [Element.at?, hs]) (by rw [hsName]; decide) ?_
  intro hnote
  cases hnote with
  | unrecognized _ hname => exact hname (by simp [hsName])
  | inSection _ _ hbelow => cases hbelow

theorem not_closed_entry {i j : ℕ} {s e : Element} (hs : root.children[i]? = some s)
    (he : s.children[j]? = some e) (heName : e.name = "entry") : ¬ Closed root [i, j] := by
  refine not_closed (c := e) (by simp [Element.at?, hs, he]) (by rw [heName]; decide) ?_
  intro hnote
  cases hnote with
  | inSection hs' _ hbelow =>
    cases hbelow with
    | unrecognized _ hname => exact hname (by simp [heName])
    | inList _ _ hitem => cases hitem
    | inEntry _ _ hdeeper => cases hdeeper

/-- An element that means nothing stands where its path leads, and no list and no other such
element is above it. -/
theorem noted_unrecognized_place {p : Path} {c : Element} (hroot : root.name = "resume")
    (h : Noted root p c .unrecognized) :
    root.at? p = some c ∧ ∀ q, Closed root q → q <+: p → q = p := by
  rcases noted_unrecognized_iff.1 h with ⟨i, rfl, hc, -⟩ | ⟨i, s, j, rfl, hs, hsName, hc, -⟩ |
    ⟨i, s, j, e, k, rfl, hs, hsName, he, heName, hc, -⟩
  · refine ⟨by simp [Element.at?, hc], ?_⟩
    intro q hq hprefix
    simp only [List.prefix_cons_iff, List.prefix_nil] at hprefix
    rcases hprefix with rfl | ⟨_, rfl, rfl⟩
    · exact absurd hq (not_closed_root hroot)
    · rfl
  · refine ⟨by simp [Element.at?, hs, hc], ?_⟩
    intro q hq hprefix
    simp only [List.prefix_cons_iff, List.prefix_nil] at hprefix
    rcases hprefix with rfl | ⟨_, rfl, rfl | ⟨_, rfl, rfl⟩⟩
    · exact absurd hq (not_closed_root hroot)
    · exact absurd hq (not_closed_section hs hsName)
    · rfl
  · refine ⟨by simp [Element.at?, hs, he, hc], ?_⟩
    intro q hq hprefix
    simp only [List.prefix_cons_iff, List.prefix_nil] at hprefix
    rcases hprefix with rfl | ⟨_, rfl, rfl | ⟨_, rfl, rfl | ⟨_, rfl, rfl⟩⟩⟩
    · exact absurd hq (not_closed_root hroot)
    · exact absurd hq (not_closed_section hs hsName)
    · exact absurd hq (not_closed_entry hs he heName)
    · rfl

/-- The elements that a reading with some outcome is to report: all that mean nothing, if nothing breaks
a rule, or those of them before the element at fault. A root is refused as a whole only for its name. -/
def Reported (root : Element) (found : List (Path × Element)) : Except Error Resume → Prop
  | .ok _ => (∀ p c rule, ¬ Noted root p c (.breaks rule)) ∧
      ∀ p c, (p, c) ∈ found ↔ Noted root p c .unrecognized
  | .error .wrongRoot => root.name ≠ "resume" ∧ found = []
  | .error (.broken line rule) => ∃ q d, FirstBroken root q d rule ∧ d.line = line ∧
      ∀ p c, (p, c) ∈ found ↔ Noted root p c .unrecognized ∧ p < q

/-- Where harmless findings are, and what they are about. -/
def placesOf (fs : List Finding) : List (Path × Element) := fs.map fun f => (f.path, f.element)

theorem mem_placesOf {fs : List Finding} (h : ∀ f ∈ fs, f.Harmless) {p : Path} {c : Element} :
    (p, c) ∈ placesOf fs ↔ ⟨p, c, .unrecognized⟩ ∈ fs := by
  unfold placesOf
  rw [List.mem_map]
  constructor
  · rintro ⟨⟨q, d, n⟩, hf, hpc⟩
    have hn := h _ hf
    cases hpc
    cases hn
    exact hf
  · intro hf
    exact ⟨_, hf, rfl⟩

/-- What is logged of a harmless finding is the line and the name of its element. -/
theorem diagnostic_placesOf (fs : List Finding) :
    fs.map Finding.diagnostic = (placesOf fs).map fun x => ⟨x.2.line, x.2.name⟩ := by
  unfold placesOf
  rw [List.map_map]
  rfl

/-- The elements that mean nothing and come before a broken rule are those found before it. -/
theorem mem_before_iff {before after : List Finding} {f : Finding} (h : findings root = before ++ f :: after)
    {rule : Violation} (hf : f.note = .breaks rule) {p : Path} {c : Element} :
    ⟨p, c, .unrecognized⟩ ∈ before ↔ Noted root p c .unrecognized ∧ p < f.path := by
  rw [← mem_findings, h]
  constructor
  · intro hg
    exact ⟨List.mem_append_left _ hg, (findings_split h).1 _ hg⟩
  · rintro ⟨hmem, hlt⟩
    rcases List.mem_append.1 hmem with hg | hg
    · exact hg
    · rcases List.mem_cons.1 hg with hg | hg
      · rw [← hg] at hf
        cases hf
      · exact absurd hlt (List.lt_asymm ((findings_split h).2 _ hg))

theorem firstBroken_of_findings {before after : List Finding} {f : Finding} {rule : Violation}
    (h : findings root = before ++ f :: after) (hbefore : ∀ g ∈ before, g.Harmless) (hf : f.note = .breaks rule) :
    FirstBroken root f.path f.element rule := by
  obtain ⟨p, c, n⟩ := f
  simp only at hf
  subst hf
  exact firstBroken_iff.2 ⟨before, after, h, hbefore⟩

/-- A reading that finds no broken rule is to report all it finds. -/
theorem reported_of_harmless (h : ∀ f ∈ findings root, f.Harmless) (r : Resume) :
    Reported root (placesOf (findings root)) (.ok r) := by
  refine ⟨(harmless_findings_iff root).1 h, ?_⟩
  intro p c
  rw [mem_placesOf h, mem_findings]

/-- A reading that stops at a broken rule is to report what it found before. -/
theorem reported_of_breaks {before after : List Finding} {f : Finding} {rule : Violation}
    (h : findings root = before ++ f :: after) (hbefore : ∀ g ∈ before, g.Harmless) (hf : f.note = .breaks rule) :
    Reported root (placesOf before) (.error (broken f.element rule)) := by
  refine ⟨f.path, f.element, firstBroken_of_findings h hbefore hf, rfl, ?_⟩
  intro p c
  rw [mem_placesOf hbefore, mem_before_iff h hf]

/-- What is to be reported means nothing where it stands, whatever the outcome. -/
theorem Reported.noted {found : List (Path × Element)} {outcome : Except Error Resume}
    (h : Reported root found outcome) {p : Path} {c : Element} (hmem : (p, c) ∈ found) :
    Noted root p c .unrecognized := by
  cases outcome with
  | ok r => exact (h.2 p c).1 hmem
  | error e =>
    cases e with
    | wrongRoot =>
      rw [h.2] at hmem
      cases hmem
    | broken line rule =>
      obtain ⟨q, d, -, -, hfound⟩ := h
      exact ((hfound p c).1 hmem).1

/-- A reading logs what it is to report, in document order. -/
theorem exists_reported (root : Element) (log : Log) : ∃ found : List (Path × Element),
    ((readResume root).after log).2 = log ++ (found.map fun x => (⟨x.2.line, x.2.name⟩ : Diagnostic)).toArray ∧
      found.Pairwise (fun x y => x.1 < y.1) ∧ Reported root found ((readResume root).after log).1 ∧
      (root.name = "resume" ∨ found = []) := by
  rw [readResume_eq]
  split
  · rename_i hname
    have hpairwise := findings_pairwise root
    rcases harmless_or_first (findings root) with h | ⟨before, f, after, rule, h, hbefore, hf⟩
    · rw [after_conclude_of_harmless h, diagnostic_placesOf]
      exact ⟨placesOf (findings root), rfl, List.pairwise_map.2 hpairwise, reported_of_harmless h _, Or.inl hname⟩
    · rw [h] at hpairwise
      rw [h, after_conclude_of_breaks hbefore hf, diagnostic_placesOf]
      exact ⟨placesOf before, rfl, List.pairwise_map.2 (List.pairwise_append.1 hpairwise).1,
        reported_of_breaks h hbefore hf, Or.inl hname⟩
  · rename_i hname
    rw [Logged.after_throw]
    exact ⟨[], by simp, List.Pairwise.nil, ⟨hname, rfl⟩, Or.inr rfl⟩

/-- **Exact diagnostics.** A reading adds to the log, in document order and once each, the line and
the name of the elements that mean nothing where they stand: all of them if it succeeds, those
before the element at fault if it fails, none if the root has another name, and no other root is refused
as a whole. Nothing below such an element or below a list is among them. -/
theorem readResume_log (root : Element) (log : Log) : ∃ found : List (Path × Element),
    ((readResume root).after log).2 = log ++ (found.map fun x => (⟨x.2.line, x.2.name⟩ : Diagnostic)).toArray ∧
      found.Pairwise (fun x y => x.1 < y.1) ∧ Reported root found ((readResume root).after log).1 ∧
      (root.name = "resume" ∨ found = []) ∧
      ∀ x ∈ found, root.at? x.1 = some x.2 ∧ ∀ q, Closed root q → q <+: x.1 → q = x.1 := by
  obtain ⟨found, hlog, hpairwise, hreported, hroot⟩ := exists_reported root log
  refine ⟨found, hlog, hpairwise, hreported, hroot, ?_⟩
  rintro ⟨p, c⟩ hx
  rcases hroot with hname | rfl
  · exact noted_unrecognized_place hname (hreported.noted hx)
  · cases hx

end Vitae.Schema
