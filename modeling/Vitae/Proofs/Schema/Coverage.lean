import Vitae.Proofs.Schema.Role

/-!
# What becomes of each element

An element of an accepted tree is read, or it is reported, or it stands below one that is
reported, or it stands below an element that is read for its text. Of the last kind nothing
is said.

* `readResume_accounts`: **no element is dropped silently but those below a text**, so none
  is exactly if no element that is read for its text holds another.
-/

namespace Vitae.Schema

open Markup (Element Path at?_append)

variable {root c d : Element} {p q : Path} {role r : Role}

/-- An element that is read, or that stands at or below one of those found. -/
def Accounted (root : Element) (found : List (Path × Element)) (p : Path) (c : Element) : Prop :=
  (∃ role, Stands root p c role ∧ role.Read) ∨ ∃ q d, (q, d) ∈ found ∧ q <+: p

theorem accounted_iff {found : List (Path × Element)} (h : Conforms root)
    (hfound : ∀ q d, (q, d) ∈ found ↔ Stands root q d .unrecognized) (hc : root.at? p = some c) :
    Accounted root found p c ↔ ¬ Stands root p c .inText := by
  constructor
  · rintro (⟨r, hr, hread⟩ | ⟨q, d, hd, hq⟩) hin
    · obtain ⟨-, rfl⟩ := hin.unique hr
      cases hread with
      | leaf hleaf => cases hleaf
    · have hd := (hfound q d).1 hd
      by_cases hne : q = p
      · subst hne
        obtain ⟨-, hrole⟩ := hin.unique hd
        cases hrole
      · cases hd.in_unrecognized hq hne hin
  · intro hin
    obtain ⟨r, hr⟩ := exists_stands hc
    cases r with
    | root => exact Or.inl ⟨_, hr, .root⟩
    | identity f => exact Or.inl ⟨_, hr, .leaf (.identity f)⟩
    | part => exact Or.inl ⟨_, hr, .part⟩
    | entry => exact Or.inl ⟨_, hr, .entry⟩
    | field f => exact Or.inl ⟨_, hr, .leaf (.field f)⟩
    | list => exact Or.inl ⟨_, hr, .list⟩
    | item => exact Or.inl ⟨_, hr, .leaf .item⟩
    | unrecognized => exact Or.inr ⟨p, c, (hfound p c).2 hr, List.prefix_refl p⟩
    | inText => exact absurd hr hin
    | stranger => exact absurd hr h.not_stranger
    | passed =>
      obtain ⟨q, d, hq, -, hd | hd⟩ := hr.exists_unread
      · exact Or.inr ⟨q, d, (hfound q d).2 hd, hq⟩
      · exact absurd hd h.not_stranger

/-- Something is below a leaf exactly if there is a leaf with an element directly in it. -/
theorem no_inText_iff : (∀ p c, ¬ Stands root p c .inText) ↔
    ∀ p c role, Stands root p c role → role.Leaf → c.children = [] := by
  constructor
  · intro h p c role hc hleaf
    cases hchildren : c.children with
    | nil => rfl
    | cons d ds =>
      have hd : Stands root (p ++ [0]) d .inText :=
        stands_concat.2 ⟨c, role, hc, by rw [hchildren]; rfl, Role.below_eq_iff.2 (.inLeaf hleaf)⟩
      exact absurd hd (h _ d)
  · intro h p c hin
    obtain ⟨q, d, r, ⟨t, rfl⟩, hne, hd, hleaf⟩ := hin.exists_leaf
    cases t with
    | nil => exact hne (List.append_nil q).symm
    | cons j t =>
      obtain ⟨hc, -⟩ := hin
      rw [at?_append, hd.1, Option.bind_some] at hc
      obtain ⟨d', hd', -⟩ := Option.bind_eq_some_iff.1 hc
      rw [h q d r hd hleaf] at hd'
      cases hd'

/-- **What is dropped silently.** A reading that succeeds reports, in document order and once each,
the elements without a meaning where they stand. Every other element is read or stands below a
reported one, unless it stands below an element that is read for its text: then it is neither. So
nothing is dropped exactly if no identity field, no field of an entry and no item holds an element. -/
theorem readResume_accounts {root : Element} {log : Log} {r : Resume}
    (h : ((readResume root).after log).1 = .ok r) : ∃ found : List (Path × Element),
      ((readResume root).after log).2 = log ++ (found.map fun x => (⟨x.2.line, x.2.name⟩ : Diagnostic)).toArray ∧
      found.Pairwise (fun x y => x.1 < y.1) ∧
      (∀ q d, (q, d) ∈ found ↔ Stands root q d .unrecognized) ∧
      (∀ p c, root.at? p = some c → (Accounted root found p c ↔ ¬ Stands root p c .inText)) ∧
      ((∀ p c, root.at? p = some c → Accounted root found p c) ↔
        ∀ p c role, Stands root p c role → role.Leaf → c.children = []) := by
  have hconforms := conforms_of_accepted h
  have hharmless : ∀ f ∈ findings root, f.Harmless :=
    (harmless_findings_iff root).2 ((conforms_iff root).1 hconforms).2
  have hfound : ∀ q d, (q, d) ∈ placesOf (findings root) ↔ Stands root q d .unrecognized := by
    intro q d
    rw [mem_placesOf hharmless, mem_findings, stands_unrecognized_iff]
  have haccounted : ∀ p c, root.at? p = some c →
      (Accounted root (placesOf (findings root)) p c ↔ ¬ Stands root p c .inText) :=
    fun p c hc => accounted_iff hconforms hfound hc
  refine ⟨placesOf (findings root), ?_, List.pairwise_map.2 (findings_pairwise root), hfound, haccounted, ?_⟩
  · rw [log_of_conforms hconforms, diagnostic_placesOf]
  · rw [← no_inText_iff]
    constructor
    · intro hall p c hin
      exact (haccounted p c hin.1).1 (hall p c hin.1) hin
    · intro hnone p c hc
      exact (haccounted p c hc).2 (hnone p c)

/-- A name with an element in it, and an element without a meaning that holds another. -/
def nameAndHobbies : Element where
  tag := ⟨none, "resume", [], 1⟩
  nodes := [.element ⟨none, "name", [], 1⟩ [.text "A", .element ⟨none, "b", [], 1⟩ []],
    .element ⟨none, "hobbies", [], 2⟩ [.element ⟨none, "chess", [], 3⟩ []]]

/-- Of both inner elements only the one below the reported element is accounted for. -/
theorem nameAndHobbies_accounts :
    ((readResume nameAndHobbies).after #[]).1 = .ok { name := some "A" } ∧
      ∃ found, ((readResume nameAndHobbies).after #[]).2 =
          #[] ++ (found.map fun x => (⟨x.2.line, x.2.name⟩ : Diagnostic)).toArray ∧
        Accounted nameAndHobbies found [1, 0] ⟨⟨none, "chess", [], 3⟩, []⟩ ∧
        ¬ Accounted nameAndHobbies found [0, 0] ⟨⟨none, "b", [], 1⟩, []⟩ := by
  have hok : ((readResume nameAndHobbies).after #[]).1 = .ok { name := some "A" } := rfl
  obtain ⟨found, hlog, -, -, haccounted, -⟩ := readResume_accounts hok
  refine ⟨hok, found, hlog, ?_, ?_⟩
  · refine (haccounted [1, 0] _ rfl).2 ?_
    rintro ⟨-, hrole⟩
    cases hrole
  · exact fun h => (haccounted [0, 0] _ rfl).1 h ⟨rfl, rfl⟩

/-- A root with a name that has an element in its text. -/
def boldName : Element where
  tag := ⟨none, "resume", [], 1⟩
  nodes := [.element ⟨none, "name", [], 1⟩ [.text "A", .element ⟨none, "b", [], 1⟩ [.text "B"]]]

/-- An element in a name is dropped: the root is accepted, nothing is reported, and the element has
no role in which it would be read. -/
theorem boldName_silent :
    (readResume boldName).after #[] = (.ok { name := some "A" }, #[]) ∧
      boldName.at? [0, 0] = some ⟨⟨none, "b", [], 1⟩, [.text "B"]⟩ ∧
      ∀ role, Stands boldName [0, 0] ⟨⟨none, "b", [], 1⟩, [.text "B"]⟩ role → ¬ role.Read := by
  refine ⟨rfl, rfl, ?_⟩
  rintro role ⟨-, hrole⟩ hread
  cases hrole
  cases hread with
  | leaf hleaf => cases hleaf

end Vitae.Schema
