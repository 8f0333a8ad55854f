import Vitae.Proofs.Markup.ShiftDocument
import Vitae.Proofs.Schema.Levels

/-!
# Readings and rows

The schema reports lines and does not look at them: from a tree in which all lines are further down
the same résumé is read, or the same rule found broken, and the same is logged, further down.

* `resumeOf_shift`, `findings_shift`: what a tree says, and what is to be said of it.
* `readResume_shift`: **a tree from further down is read alike.**
-/

namespace Vitae

/-- A diagnostic some lines further down. -/
def Diagnostic.shift (n : ℕ) (d : Diagnostic) : Diagnostic := { d with line := d.line + n }

namespace Schema

open Markup (Element Node node_shift_element)

/-- An error some lines further down, if it has a line. -/
def Error.shift (n : ℕ) : Error → Error
  | .wrongRoot => .wrongRoot
  | .broken line rule => .broken (line + n) rule

/-- A finding about an element further down. -/
def Finding.shift (n : ℕ) (f : Finding) : Finding := { f with element := f.element.shift n }

variable {n : ℕ}

/-! ## What a tree says -/

theorem element?_shift (node : Node) : (node.shift n).element? = node.element?.map (.shift n) := by
  cases node with
  | element tag nodes =>
    rw [node_shift_element]
    rfl
  | _ => rfl

theorem children_shift (e : Element) : (e.shift n).children = e.children.map (.shift n) := by
  unfold Element.children Element.shift
  rw [List.filterMap_map, List.map_filterMap]
  exact List.filterMap_congr fun node _ => element?_shift node

theorem text?_shift (e : Element) : (e.shift n).text? = e.text? := by
  obtain ⟨tag, nodes⟩ := e
  cases nodes with
  | nil => rfl
  | cons node nodes => cases node <;> rfl

theorem lastText_shift (tags : List String) (es : List Element) :
    lastText tags (es.map (.shift n)) = lastText tags es := by
  have hfilter : (es.map (Element.shift n)).filter (·.name ∈ tags) =
      (es.filter (·.name ∈ tags)).map (Element.shift n) :=
    List.filter_map
  unfold lastText
  rw [hfilter, List.getLast?_map, Option.bind_map]
  exact congrArg _ (funext text?_shift)

theorem find?_shift (es : List Element) :
    (es.map (Element.shift n)).find? (·.name = "list") =
      (es.find? (·.name = "list")).map (Element.shift n) :=
  List.find?_map

theorem itemsOf_shift (l : Element) : itemsOf (l.shift n) = itemsOf l := by
  unfold itemsOf
  rw [children_shift, List.map_map]
  refine List.map_congr_left fun c _ => ?_
  rw [Function.comp_apply, text?_shift]

theorem entryOf_shift (title : String) (es : List Element) :
    entryOf title (es.map (.shift n)) = entryOf title es := by
  unfold entryOf
  simp only [lastText_shift]
  rw [find?_shift, Option.map_map]
  exact congrArg _ (congrArg (Option.map · _) (funext itemsOf_shift))

theorem bodyOf_shift (es : List Element) : bodyOf (es.map (.shift n)) = bodyOf es := by
  have hfilter : (es.map (Element.shift n)).filter (·.name = "entry") =
      (es.filter (·.name = "entry")).map (Element.shift n) :=
    List.filter_map
  unfold bodyOf
  rw [find?_shift, hfilter, List.map_map]
  cases es.find? (·.name = "list") with
  | some l => exact congrArg SectionBody.list (itemsOf_shift l)
  | none =>
    refine congrArg SectionBody.entries (List.map_congr_left fun e _ => ?_)
    rw [Function.comp_apply, children_shift, entryOf_shift]
    rfl

theorem sectionOf_shift (s : Element) : sectionOf (s.shift n) = sectionOf s := by
  unfold sectionOf
  rw [children_shift, bodyOf_shift]
  rfl

/-- **A tree from further down says the same.** -/
theorem resumeOf_shift (es : List Element) : resumeOf (es.map (.shift n)) = resumeOf es := by
  have hfilter : (es.map (Element.shift n)).filter (·.name = "section") =
      (es.filter (·.name = "section")).map (Element.shift n) :=
    List.filter_map
  unfold resumeOf
  simp only [lastText_shift]
  rw [hfilter, List.map_map]
  exact congrArg _ (List.map_congr_left fun s _ => sectionOf_shift s)

/-! ## What is to be said of a tree -/

theorem overChildren_shift {judge judge' : ℕ → Element → List Finding}
    (h : ∀ i c, judge' i (c.shift n) = (judge i c).map (.shift n)) (es : List Element) :
    overChildren judge' (es.map (.shift n)) = (overChildren judge es).map (.shift n) := by
  unfold overChildren
  rw [List.zipIdx_map, List.flatMap_map, List.map_flatMap]
  refine List.flatMap_congr ?_
  rintro ⟨c, i⟩ -
  simp only [Prod.map_apply, id]
  rw [h, List.map_map, List.map_map]
  rfl

theorem judgeItem_shift (c : Element) : judgeItem (c.shift n) = (judgeItem c).map (.shift n) := by
  unfold judgeItem
  rw [children_shift, List.isEmpty_map, apply_ite (List.map (Finding.shift n)), apply_ite (List.map (Finding.shift n))]
  rfl

theorem judgeList_shift (l : Element) : judgeList (l.shift n) = (judgeList l).map (.shift n) := by
  unfold judgeList
  rw [children_shift]
  exact overChildren_shift (fun _ => judgeItem_shift) _

theorem judgeTitle_shift (e : Element) : judgeTitle (e.shift n) = (judgeTitle e).map (.shift n) := by
  unfold judgeTitle
  rw [apply_ite (List.map (Finding.shift n))]
  rfl

theorem judgeEntryChild_shift (before : List Element) (c : Element) :
    judgeEntryChild (before.map (.shift n)) (c.shift n) = (judgeEntryChild before c).map (.shift n) := by
  have hany : (before.map (Element.shift n)).any (·.name = "list") = before.any (·.name = "list") := by
    rw [List.any_map]
    rfl
  have hname : (c.shift n).name = c.name := rfl
  unfold judgeEntryChild
  rw [hname, hany]
  cases EntryKind.ofName c.name with
  | field f => rfl
  | list =>
    simp only
    rw [judgeList_shift, List.map_append, apply_ite (List.map (Finding.shift n))]
    rfl
  | unrecognized => rfl

theorem judgeEntry_shift (e : Element) : judgeEntry (e.shift n) = (judgeEntry e).map (.shift n) := by
  unfold judgeEntry
  rw [judgeTitle_shift, children_shift, List.map_append]
  refine congrArg _ (overChildren_shift (fun i c => ?_) _)
  rw [← List.map_take]
  exact judgeEntryChild_shift _ c

theorem judgeSectionChild_shift (k : ℕ) (c : Element) :
    judgeSectionChild k (c.shift n) = (judgeSectionChild k c).map (.shift n) := by
  have hname : (c.shift n).name = c.name := rfl
  unfold judgeSectionChild
  rw [hname]
  cases SectionKind.ofName c.name with
  | list =>
    simp only
    rw [judgeList_shift, List.map_append, apply_ite (List.map (Finding.shift n))]
    rfl
  | entry => exact judgeEntry_shift c
  | unrecognized => rfl

theorem judgeSection_shift (s : Element) : judgeSection (s.shift n) = (judgeSection s).map (.shift n) := by
  unfold judgeSection
  rw [judgeTitle_shift, children_shift, List.map_append, List.length_map]
  exact congrArg _ (overChildren_shift (fun _ => judgeSectionChild_shift _) _)

/-- **The same is to be said of a tree from further down.** -/
theorem findings_shift (root : Element) : findings (root.shift n) = (findings root).map (.shift n) := by
  unfold findings
  rw [children_shift]
  refine overChildren_shift (fun _ c => ?_) _
  have hname : (c.shift n).name = c.name := rfl
  unfold judgeRootChild
  rw [hname]
  cases RootKind.ofName c.name with
  | identity f => rfl
  | part => exact judgeSection_shift c
  | unrecognized => rfl

/-! ## Reading -/

variable {α : Type}

theorem diagnostics_shift (fs : List Finding) :
    (fs.map (Finding.shift n)).map Finding.diagnostic = (fs.map Finding.diagnostic).map (.shift n) := by
  rw [List.map_map, List.map_map]
  rfl

theorem after_conclude_shift (a : α) (fs : List Finding) (log : Log) :
    (conclude a (fs.map (.shift n))).after log =
      (((conclude a fs).after #[]).1.mapError (.shift n), log ++ ((conclude a fs).after #[]).2.map (.shift n)) := by
  -- the finding that ends the reading is the same one further down
  rcases harmless_or_first fs with h | ⟨before, f, after, rule, rfl, hbefore, hf⟩
  · have hshift : ∀ f ∈ fs.map (Finding.shift n), f.Harmless := List.forall_mem_map.2 h
    rw [after_conclude_of_harmless hshift, after_conclude_of_harmless h, diagnostics_shift, Array.empty_append,
      List.map_toArray]
    rfl
  · have hshift : ∀ f ∈ before.map (Finding.shift n), f.Harmless := List.forall_mem_map.2 hbefore
    have hf' : (f.shift n).note = .breaks rule := hf
    rw [List.map_append, List.map_cons, after_conclude_of_breaks hshift hf', after_conclude_of_breaks hbefore hf,
      diagnostics_shift, Array.empty_append, List.map_toArray]
    rfl

/-- **A tree from further down is read alike**: to the same résumé or the same broken rule, and with the
same log, further down. -/
theorem readResume_shift (root : Element) (log : Log) :
    (readResume (root.shift n)).after log =
      (((readResume root).after #[]).1.mapError (.shift n), log ++ ((readResume root).after #[]).2.map (.shift n)) := by
  have hname : (root.shift n).name = root.name := rfl
  rw [readResume_eq, readResume_eq, hname, children_shift, resumeOf_shift, findings_shift]
  by_cases hroot : root.name = "resume"
  · rw [if_pos hroot, if_pos hroot]
    exact after_conclude_shift _ _ _
  · rw [if_neg hroot, if_neg hroot, Logged.after_throw, Logged.after_throw, List.map_toArray, List.map_nil,
      Array.append_empty]
    rfl

end Schema

end Vitae
