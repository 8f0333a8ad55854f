import Vitae.Proofs.Schema.Insertion

/-!
# Elements without a meaning

What a reading makes of the elements that mean nothing where they stand: they are reported, and
nothing else depends on them.

* `Gains.split`, `Gains.log_eq`: what is before any of the findings that gain one, and what is logged of them.
* `Undisturbed`: what stays of a reading when such an element is put in, and what is added.
* `readResume_unrecognized`: **they never affect the model**, be they deleted or put in.
-/

namespace Vitae.Schema

open Markup (Element Node OneMore Path slide)

variable {α : Type} {x root root' d : Element} {p : Path} {k : ℕ} {role : Role} {f g : Finding}
  {fs gs before after : List Finding}

/-! ## Conclusions from findings that gain one -/

theorem Finding.Slid.diagnostic_eq (h : Finding.Slid p k f g) : g.diagnostic = f.diagnostic := by
  unfold Finding.diagnostic Element.line Element.name
  rw [h.tag]

theorem Finding.Slid.broken_eq (h : Finding.Slid p k f g) (rule : Violation) :
    broken g.element rule = broken f.element rule := by
  unfold broken Element.line
  rw [h.tag]

theorem map_diagnostic_slid (h : List.Forall₂ (Finding.Slid p k) fs gs) :
    gs.map Finding.diagnostic = fs.map Finding.diagnostic := by
  induction h with
  | nil => rfl
  | cons hslid _ ih => rw [List.map_cons, List.map_cons, hslid.diagnostic_eq, ih]

theorem harmless_slid (h : List.Forall₂ (Finding.Slid p k) fs gs) (hfs : ∀ f ∈ fs, f.Harmless) :
    ∀ g ∈ gs, g.Harmless := by
  induction h with
  | nil => exact fun g hg => absurd hg List.not_mem_nil
  | cons hslid _ ih =>
    obtain ⟨hf, hrest⟩ := List.forall_mem_cons.1 hfs
    exact List.forall_mem_cons.2 ⟨hslid.note.trans hf, ih hrest⟩

/-- Related lists are related around each of their members. -/
theorem forall₂_split {R : Finding → Finding → Prop} (h : List.Forall₂ R (before ++ f :: after) gs) :
    ∃ before' g after', gs = before' ++ g :: after' ∧ List.Forall₂ R before before' ∧ R f g ∧
      List.Forall₂ R after after' := by
  induction before generalizing gs with
  | nil =>
    obtain ⟨g, after', hfg, hafter, rfl⟩ := List.forall₂_cons_left_iff.1 h
    exact ⟨[], g, after', rfl, .nil, hfg, hafter⟩
  | cons b before ih =>
    obtain ⟨b', gs, hb, hgs, rfl⟩ := List.forall₂_cons_left_iff.1 h
    obtain ⟨before', g, after', rfl, hbefore, hfg, hafter⟩ := ih hgs
    exact ⟨b' :: before', g, after', rfl, .cons hb hbefore, hfg, hafter⟩

theorem exists_related {R : Finding → Finding → Prop} (h : List.Forall₂ R fs gs) (hf : f ∈ fs) :
    ∃ g ∈ gs, R f g := by
  obtain ⟨before, after, rfl⟩ := List.append_of_mem hf
  obtain ⟨before', g, after', rfl, -, hfg, -⟩ := forall₂_split h
  exact ⟨g, List.mem_append_right _ List.mem_cons_self, hfg⟩

/-- Where a list is cut in two, each of its members is before the cut or after it. -/
theorem cut_of_append_cons {early late : List Finding} (h : before ++ f :: after = early ++ late) :
    (∃ between, early = before ++ f :: between ∧ after = between ++ late) ∨
      ∃ between, before = early ++ between ∧ late = between ++ f :: after := by
  rcases List.append_eq_append_iff.1 h with ⟨between, rfl, hrest⟩ | ⟨between, rfl, rfl⟩
  · cases between with
    | nil => exact Or.inr ⟨[], by rw [List.append_nil, List.append_nil], hrest.symm⟩
    | cons g between =>
      obtain ⟨rfl, rfl⟩ := List.cons.inj hrest
      exact Or.inl ⟨between, rfl, rfl⟩
  · exact Or.inr ⟨between, rfl, rfl⟩

/-- **The new finding is before or after any other one.** -/
theorem Gains.split (h : Gains p k x (before ++ f :: after) gs) :
    ∃ before' g after', gs = before' ++ g :: after' ∧ Finding.Slid p k f g ∧
      (List.Forall₂ (Finding.Slid p k) before before' ∧ Gains p k x after after' ∨
        Gains p k x before before' ∧ List.Forall₂ (Finding.Slid p k) after after') := by
  obtain ⟨early, late, early', late', hfs, rfl, hearly, hlate⟩ := h
  rcases cut_of_append_cons hfs with ⟨between, rfl, rfl⟩ | ⟨between, rfl, rfl⟩
  · obtain ⟨before', g, between', rfl, hbefore, hfg, hbetween⟩ := forall₂_split hearly
    refine ⟨before', g, between' ++ ⟨p ++ [k], x, .unrecognized⟩ :: late', ?_, hfg, Or.inl ⟨hbefore, ?_⟩⟩
    · rw [List.append_assoc]
      rfl
    · exact ⟨between, late, between', late', rfl, rfl, hbetween, hlate⟩
  · obtain ⟨between', g, after', rfl, hbetween, hfg, hafter⟩ := forall₂_split hlate
    refine ⟨early' ++ ⟨p ++ [k], x, .unrecognized⟩ :: between', g, after', ?_, hfg, Or.inr ⟨?_, hafter⟩⟩
    · rw [List.append_assoc]
      rfl
    · exact ⟨early, between, early', between', rfl, rfl, hearly, hbetween⟩

theorem Gains.harmless (h : Gains p k x fs gs) (hfs : ∀ f ∈ fs, f.Harmless) : ∀ g ∈ gs, g.Harmless := by
  obtain ⟨early, late, early', late', rfl, rfl, hearly, hlate⟩ := h
  obtain ⟨hfs, hfs'⟩ := List.forall_mem_append.1 hfs
  exact List.forall_mem_append.2 ⟨harmless_slid hearly hfs, List.forall_mem_cons.2 ⟨rfl, harmless_slid hlate hfs'⟩⟩

/-- **The same rule is the first to be broken**, or none is. -/
theorem Gains.result_eq (h : Gains p k x fs gs) (a : α) (log : Log) :
    ((conclude a gs).after log).1 = ((conclude a fs).after log).1 := by
  rcases harmless_or_first fs with hfs | ⟨before, f, after, rule, rfl, hbefore, hf⟩
  · rw [after_conclude_of_harmless hfs, after_conclude_of_harmless (h.harmless hfs)]
  · obtain ⟨before', g, after', rfl, hfg, hplace⟩ := h.split
    have hbefore' : ∀ g ∈ before', g.Harmless := by
      rcases hplace with ⟨hslid, -⟩ | ⟨hgains, -⟩
      · exact harmless_slid hslid hbefore
      · exact hgains.harmless hbefore
    rw [after_conclude_of_breaks hbefore hf, after_conclude_of_breaks hbefore' (hfg.note.trans hf), hfg.broken_eq]

/-- The element at fault is the one that was. -/
theorem FirstBroken.slid (h : Gains p k x (findings root) (findings root')) {q : Path} {c : Element}
    {rule : Violation} (hfirst : FirstBroken root q c rule) :
    ∃ c', FirstBroken root' (slide p k q) c' rule ∧ c'.tag = c.tag := by
  obtain ⟨before, after, hfs, hbefore⟩ := firstBroken_iff.1 hfirst
  rw [hfs] at h
  obtain ⟨before', ⟨q', c', n⟩, after', hgs, ⟨hpath, htag, hnote⟩, hplace⟩ := h.split
  cases hpath
  cases hnote
  refine ⟨c', firstBroken_iff.2 ⟨before', after', hgs, ?_⟩, htag⟩
  rcases hplace with ⟨hslid, -⟩ | ⟨hgains, -⟩
  · exact harmless_slid hslid hbefore
  · exact hgains.harmless hbefore

/-! ## Readings -/

/-- What is logged of some elements. -/
def logOf (found : List (Path × Element)) : Log := (found.map fun y => (⟨y.2.line, y.2.name⟩ : Diagnostic)).toArray

/-- What becomes of a reading when an element `x` is put into a tree, as the child `k` of the
element at `p`. -/
structure Undisturbed (root root' : Element) (p : Path) (k : ℕ) (x : Element) (log : Log) : Prop where
  new : root'.at? (p ++ [k]) = some x
  /-- Every other element is still there, and only those around the new one have changed. -/
  others : ∀ q c, root.at? q = some c →
    ∃ c', root'.at? (slide p k q) = some c' ∧ c'.tag = c.tag ∧ (¬ q <+: p → c' = c)
  result : ((readResume root').after log).1 = ((readResume root).after log).1
  /-- The element at fault is the one that was, with the same rule. -/
  fault : ∀ q c rule, FirstBroken root q c rule →
    ∃ c', FirstBroken root' (slide p k q) c' rule ∧ c'.tag = c.tag
  /-- Before the element at fault, or if there is none, the new one is reported in its place. -/
  gain : (∀ q c rule, FirstBroken root q c rule → p ++ [k] < slide p k q) →
    ∃ early late, Reported root (early ++ late) ((readResume root).after log).1 ∧
      (∀ y ∈ early, slide p k y.1 < p ++ [k]) ∧ (∀ y ∈ late, p ++ [k] < slide p k y.1) ∧
      ((readResume root).after log).2 = log ++ logOf (early ++ late) ∧
      ((readResume root').after log).2 = log ++ logOf (early ++ (p ++ [k], x) :: late)
  /-- After the element at fault nothing is reported. -/
  same : (∃ q c rule, FirstBroken root q c rule ∧ ¬ p ++ [k] < slide p k q) →
    ((readResume root').after log).2 = ((readResume root).after log).2

theorem logOf_placesOf (fs : List Finding) : logOf (placesOf fs) = (fs.map Finding.diagnostic).toArray := by
  rw [diagnostic_placesOf]
  rfl

/-- **What is logged gains the new element in its place**, after all that slid to places before it. -/
theorem Gains.log_eq (h : Gains p k x fs gs) (hgs : gs.Pairwise Finding.Before) : ∃ early late,
    placesOf fs = early ++ late ∧ (∀ y ∈ early, slide p k y.1 < p ++ [k]) ∧
      (∀ y ∈ late, p ++ [k] < slide p k y.1) ∧ (gs.map Finding.diagnostic).toArray = logOf (early ++ (p ++ [k], x) :: late) := by
  obtain ⟨early, late, early', late', rfl, rfl, hearly, hlate⟩ := h
  obtain ⟨-, hafter, hbefore⟩ := List.pairwise_append.1 hgs
  refine ⟨placesOf early, placesOf late, List.map_append, ?_, ?_, ?_⟩
  · intro y hy
    obtain ⟨f, hf, rfl⟩ := List.mem_map.1 hy
    obtain ⟨g, hg, hfg⟩ := exists_related hearly hf
    rw [← hfg.path]
    exact hbefore g hg _ List.mem_cons_self
  · intro y hy
    obtain ⟨f, hf, rfl⟩ := List.mem_map.1 hy
    obtain ⟨g, hg, hfg⟩ := exists_related hlate hf
    rw [← hfg.path]
    exact (List.pairwise_cons.1 hafter).1 g hg
  · rw [List.map_append, List.map_cons, map_diagnostic_slid hearly, map_diagnostic_slid hlate,
      diagnostic_placesOf, diagnostic_placesOf]
    unfold logOf
    rw [List.map_append, List.map_cons]
    rfl

theorem Gains.mem_new (h : Gains p k x fs gs) : ⟨p ++ [k], x, .unrecognized⟩ ∈ gs := by
  obtain ⟨_, _, early', late', -, rfl, -, -⟩ := h
  exact List.mem_append_right _ List.mem_cons_self

theorem Gains.gain (h : Gains p k x (findings root) (findings root')) (r : Resume) (log : Log)
    (hfirst : ∀ q c rule, FirstBroken root q c rule → p ++ [k] < slide p k q) :
    ∃ early late, Reported root (early ++ late) ((conclude r (findings root)).after log).1 ∧
      (∀ y ∈ early, slide p k y.1 < p ++ [k]) ∧ (∀ y ∈ late, p ++ [k] < slide p k y.1) ∧
      ((conclude r (findings root)).after log).2 = log ++ logOf (early ++ late) ∧
      ((conclude r (findings root')).after log).2 = log ++ logOf (early ++ (p ++ [k], x) :: late) := by
  have hpairwise := findings_pairwise root'
  rcases harmless_or_first (findings root) with hfs | ⟨before, f, after, rule, hfs, hbefore, hf⟩
  · have hreported := reported_of_harmless hfs r
    obtain ⟨early, late, hplaces, hearly, hlate, hlog⟩ := h.log_eq hpairwise
    rw [after_conclude_of_harmless hfs, after_conclude_of_harmless (h.harmless hfs), hlog, ← logOf_placesOf, hplaces]
    rw [hplaces] at hreported
    exact ⟨early, late, hreported, hearly, hlate, rfl, rfl⟩
  · have hreported := reported_of_breaks hfs hbefore hf
    have hafter := hfirst _ _ _ (firstBroken_of_findings hfs hbefore hf)
    rw [hfs] at h
    obtain ⟨before', g, after', hgs, hfg, ⟨-, hlater⟩ | ⟨hsooner, -⟩⟩ := h.split
    · -- the new one comes later, so it does not come before the element at fault
      have hlt : g.path < p ++ [k] := (findings_split hgs).2 _ hlater.mem_new
      rw [hfg.path] at hlt
      exact absurd hafter (List.lt_asymm hlt)
    · -- only what was found before the element at fault is logged, and the new one is among it
      rw [hgs] at hpairwise
      obtain ⟨early, late, hplaces, hearly, hlate, hlog⟩ := hsooner.log_eq (List.pairwise_append.1 hpairwise).1
      rw [hfs, hgs, after_conclude_of_breaks hbefore hf, after_conclude_of_breaks (hsooner.harmless hbefore)
        (hfg.note.trans hf), hlog, ← logOf_placesOf, hplaces]
      rw [hplaces] at hreported
      exact ⟨early, late, hreported, hearly, hlate, rfl, rfl⟩

theorem Gains.same (h : Gains p k x (findings root) (findings root')) (r : Resume) (log : Log)
    (hfirst : ∃ q c rule, FirstBroken root q c rule ∧ ¬ p ++ [k] < slide p k q) :
    ((conclude r (findings root')).after log).2 = ((conclude r (findings root)).after log).2 := by
  obtain ⟨q, c, rule, hfirst, hafter⟩ := hfirst
  obtain ⟨before, after, hfs, hbefore⟩ := firstBroken_iff.1 hfirst
  rw [hfs] at h
  obtain ⟨before', g, after', hgs, hfg, ⟨hslid, -⟩ | ⟨hsooner, -⟩⟩ := h.split
  · rw [hfs, hgs, after_conclude_of_breaks hbefore rfl,
      after_conclude_of_breaks (harmless_slid hslid hbefore) hfg.note, map_diagnostic_slid hslid]
  · have hlt : p ++ [k] < g.path := (findings_split hgs).1 _ hsooner.mem_new
    rw [hfg.path] at hlt
    exact absurd hlt hafter

/-- **A new element without a meaning leaves a reading undisturbed.** -/
theorem undisturbed_of_oneMore (hname : root.name = "resume") (h : OneMore x root p k root')
    (hd : Stands root p d role) (hhosts : role.Hosts d) (hx : role.below x.name = .unrecognized) (log : Log) :
    Undisturbed root root' p k x log := by
  have hgains : Gains p k x (findings root) (findings root') := findings_oneMore h hd hhosts hx
  have hvalue : resumeOf root'.children = resumeOf root.children := by
    rw [← resumeOf_prune root', ← resumeOf_prune root, prune_oneMore h hd hhosts hx]
  have hread : readResume root = conclude (resumeOf root.children) (findings root) := by
    rw [readResume_eq, if_pos hname]
  have hread' : readResume root' = conclude (resumeOf root.children) (findings root') := by
    rw [readResume_eq, if_pos (h.name_eq.trans hname), hvalue]
  refine ⟨h.at?_new, fun q c => h.at?_slide, ?_, fun q c rule => FirstBroken.slid hgains, ?_, ?_⟩
  · rw [hread, hread']
    exact hgains.result_eq _ log
  · rw [hread, hread']
    exact hgains.gain _ log
  · rw [hread, hread']
    exact hgains.same _ log

/-- **Elements without a meaning never affect the model.** A tree that is read as a résumé is read as
the same without all of them, and then nothing is logged. A root named `resume`, be it read or not,
is read with one more of them, of whatever content, as it was without: to the same résumé or with the
same element at fault, and the log gains the new one at most. It may be put anywhere in the root, in
an entry of a section, or in a section that has no list. -/
theorem readResume_unrecognized (root : Element) :
    (∀ log r, ((readResume root).after log).1 = .ok r →
      ∀ log', (readResume (prune root)).after log' = (.ok r, log')) ∧
    (root.name = "resume" → ∀ x root' p k d role, OneMore x root p k root' → Stands root p d role →
      role.Hosts d → role.below x.name = .unrecognized → ∀ log, Undisturbed root root' p k x log) := by
  constructor
  · intro log r hok log'
    have hconforms : Conforms root := conforms_of_accepted hok
    have hvalue : r = resumeOf root.children := by
      rw [readResume_eq, if_pos hconforms.named, after_conclude_ok_iff] at hok
      exact hok.2
    rw [readResume_prune hconforms, hvalue]
    rfl
  · intro hname x root' p k d role h hd hhosts hx log
    exact undisturbed_of_oneMore hname h hd hhosts hx log

/-- A section with some children, the only one of its root. -/
def diary (nodes : List Node) : Element where
  tag := ⟨none, "resume", [], 1⟩
  nodes := [.element ⟨none, "section", [⟨none, "title", "Diary"⟩], 2⟩ nodes]

/-- Dreams mean nothing in a section, whatever is in them. -/
def dreams : Element where
  tag := ⟨none, "dreams", [], 3⟩
  nodes := [.element ⟨none, "section", [], 3⟩ []]

/-- An entry without a title. -/
def untitledEntry : Element where
  tag := ⟨none, "entry", [], 4⟩
  nodes := []

/-- A diary of dreams is read as an empty one. With an entry that has no title it is not read, and
dreams before the entry are reported. -/
theorem diary_undisturbed :
    (readResume (prune (diary [dreams.node]))).after #[] = (.ok { sections := [{ title := "Diary" }] }, #[]) ∧
      Undisturbed (diary [untitledEntry.node]) (diary [dreams.node, untitledEntry.node]) [0] 0 dreams #[] ∧
      (readResume (diary [dreams.node, untitledEntry.node])).after #[] =
        (.error (.broken 4 .untitled), #[⟨3, "dreams"⟩]) := by
  refine ⟨?_, ?_, rfl⟩
  · exact (readResume_unrecognized (diary [dreams.node])).1 #[] _ rfl #[]
  · refine (readResume_unrecognized (diary [untitledEntry.node])).2 rfl dreams _ [0] 0
      ⟨⟨none, "section", [⟨none, "title", "Diary"⟩], 2⟩, [untitledEntry.node]⟩ .part ?_ ?_ ?_ ?_ #[]
    · exact .inside _ [] [] (.here ⟨none, "section", [⟨none, "title", "Diary"⟩], 2⟩ [] [untitledEntry.node])
    · exact stands_part_iff.2 ⟨0, rfl, rfl, rfl⟩
    · exact .part (by decide)
    · exact Role.below_eq_iff.2 (.besideEntries (by decide))

end Vitae.Schema
