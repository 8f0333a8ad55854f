import Vitae.Proofs.Schema.Levels

/-!
# Which trees are accepted

A reading finds no broken rule exactly in the trees that the grammar describes, so a root is
read exactly if it conforms, and then as the grammar says.

* `conforms_iff`: a root conforms if nothing in it breaks a rule.
* `readResume_ok_iff`: **acceptance and meaning of the whole schema.**
-/

namespace Vitae.Schema

open Markup (Element Attribute)

/-- At most one element of a list has a property if no two have it. -/
theorem length_filter_le_one {α : Type} {P : α → Prop} [DecidablePred P] {xs : List α} :
    (xs.filter (P ·)).length ≤ 1 ↔
      ∀ (i j : ℕ) (a b : α), i < j → xs[i]? = some a → xs[j]? = some b → P a → ¬ P b := by
  constructor
  · intro hle i j a b hij ha hb hPa hPb
    have hsplit : (xs.filter (P ·)).length =
        ((xs.take j).filter (P ·)).length + ((xs.drop j).filter (P ·)).length := by
      rw [← List.length_append, ← List.filter_append, List.take_append_drop]
    have hleft : a ∈ (xs.take j).filter (P ·) := by
      refine List.mem_filter.2 ⟨List.mem_of_getElem? (i := i) ?_, by simpa using hPa⟩
      rw [List.getElem?_take_of_lt hij, ha]
    have hright : b ∈ (xs.drop j).filter (P ·) := by
      refine List.mem_filter.2 ⟨List.mem_of_getElem? (i := 0) ?_, by simpa using hPb⟩
      rw [List.getElem?_drop, Nat.add_zero, hb]
    have := List.length_pos_of_mem hleft
    have := List.length_pos_of_mem hright
    omega
  · intro h
    induction xs with
    | nil => exact Nat.zero_le _
    | cons x xs ih =>
      have hxs := ih fun i j a b hij ha hb => h (i + 1) (j + 1) a b (by omega) ha hb
      by_cases hx : P x
      · have hnone : xs.filter (P ·) = [] := by
          rw [List.filter_eq_nil_iff]
          intro y hy
          obtain ⟨j, hj⟩ := List.mem_iff_getElem?.1 hy
          simpa using h 0 (j + 1) x y (by omega) rfl hj hx
        rw [List.filter_cons_of_pos (by simpa using hx), hnone]
        exact Nat.le_refl _
      · rw [List.filter_cons_of_neg (by simpa using hx)]
        exact hxs

theorem listConforms_iff (l : Element) :
    ListConforms l ↔ ∀ p c rule, ¬ NotedInList l p c (.breaks rule) := by
  constructor
  · intro h p c rule hnote
    cases hnote with
    | stranger hc hname => exact hname (h c (List.mem_of_getElem? hc)).1
    | crowded hc _ hbelow => exact hbelow (h c (List.mem_of_getElem? hc)).2
  · intro h c hc
    obtain ⟨i, hi⟩ := List.mem_iff_getElem?.1 hc
    have hname : c.name = "item" := by
      by_contra hne
      exact h _ _ _ (.stranger hi hne)
    refine ⟨hname, ?_⟩
    by_contra hne
    exact h _ _ _ (.crowded hi hname hne)

theorem entryConforms_iff (e : Element) :
    EntryConforms e ↔ ∀ p c rule, ¬ NotedInEntry e p c (.breaks rule) := by
  constructor
  · intro h p c rule hnote
    cases hnote with
    | untitled hno => exact hno h.titled
    | secondList hfirst hfirstName hij hl hname =>
      exact length_filter_le_one.1 h.oneList _ _ _ _ hij hfirst hl hfirstName hname
    | inList hl hname hbelow =>
      exact (listConforms_iff _).1 (h.lists _ (List.mem_of_getElem? hl) hname) _ _ _ hbelow
  · intro h
    constructor
    · by_contra hno
      exact h _ _ _ (.untitled hno)
    · refine length_filter_le_one.2 ?_
      intro i j a b hij ha hb haName hbName
      exact h _ _ _ (.secondList ha haName hij hb hbName)
    · intro l hl hname
      obtain ⟨i, hi⟩ := List.mem_iff_getElem?.1 hl
      exact (listConforms_iff l).2 fun p c rule hnote => h _ _ _ (.inList hi hname hnote)

theorem sectionConforms_iff (s : Element) :
    SectionConforms s ↔ ∀ p c rule, ¬ NotedInSection s p c (.breaks rule) := by
  constructor
  · intro h p c rule hnote
    cases hnote with
    | untitled hno => exact hno h.titled
    | listNotAlone hl hname hcount =>
      exact hcount (by rw [h.alone _ (List.mem_of_getElem? hl) hname]; rfl)
    | inList hl hname hbelow =>
      exact (listConforms_iff _).1 (h.lists _ (List.mem_of_getElem? hl) hname) _ _ _ hbelow
    | inEntry he hname hbelow =>
      exact (entryConforms_iff _).1 (h.entries _ (List.mem_of_getElem? he) hname) _ _ _ hbelow
  · intro h
    constructor
    · by_contra hno
      exact h _ _ _ (.untitled hno)
    · intro l hl hname
      obtain ⟨i, hi⟩ := List.mem_iff_getElem?.1 hl
      have hcount : s.children.length = 1 := by
        by_contra hne
        exact h _ _ _ (.listNotAlone hi hname hne)
      obtain ⟨l', hl'⟩ := List.length_eq_one_iff.1 hcount
      rw [hl', List.mem_singleton] at hl
      rw [hl', hl]
    · intro e he hname
      obtain ⟨i, hi⟩ := List.mem_iff_getElem?.1 he
      exact (entryConforms_iff e).2 fun p c rule hnote => h _ _ _ (.inEntry hi hname hnote)
    · intro l hl hname
      obtain ⟨i, hi⟩ := List.mem_iff_getElem?.1 hl
      exact (listConforms_iff l).2 fun p c rule hnote => h _ _ _ (.inList hi hname hnote)

/-- **A root conforms if nothing in it breaks a rule.** -/
theorem conforms_iff (root : Element) :
    Conforms root ↔ root.name = "resume" ∧ ∀ p c rule, ¬ Noted root p c (.breaks rule) := by
  constructor
  · intro h
    refine ⟨h.named, ?_⟩
    intro p c rule hnote
    cases hnote with
    | inSection hs hname hbelow =>
      exact (sectionConforms_iff _).1 (h.sections _ (List.mem_of_getElem? hs) hname) _ _ _ hbelow
  · rintro ⟨hnamed, h⟩
    refine ⟨hnamed, ?_⟩
    intro s hs hname
    obtain ⟨i, hi⟩ := List.mem_iff_getElem?.1 hs
    exact (sectionConforms_iff s).2 fun p c rule hnote => h _ _ _ (.inSection hi hname hnote)

/-- **Acceptance and meaning of the whole schema.** A root is read exactly if it conforms, and
the résumé is what the grammar says, whatever was logged before. -/
theorem readResume_ok_iff (root : Element) (log : Log) (r : Resume) :
    ((readResume root).after log).1 = .ok r ↔ Conforms root ∧ r = resumeOf root.children := by
  rw [readResume_eq, conforms_iff]
  split
  · rename_i hname
    rw [after_conclude_ok_iff, harmless_findings_iff]
    simp [hname]
  · rename_i hname
    simp [hname]

/-- A root with one section, whose only title is in a namespace. -/
def namespacedTitle : Element where
  tag := ⟨none, "resume", [], 1⟩
  nodes := [.element ⟨none, "section", [⟨some "urn:x", "title", "A"⟩], 1⟩ []]

/-- A title in a namespace is a title: a root is read whose section has no other. -/
theorem namespacedTitle_accepted :
    ((readResume namespacedTitle).after #[]).1 = .ok { sections := [{ title := "A" }] } ∧
      ∃ s ∈ namespacedTitle.children, s.name = "section" ∧
        ∀ a ∈ s.tag.attributes, ¬ (a.space = none ∧ a.localName = "title") := by
  refine ⟨rfl, _, List.mem_singleton.2 rfl, rfl, ?_⟩
  decide

end Vitae.Schema
