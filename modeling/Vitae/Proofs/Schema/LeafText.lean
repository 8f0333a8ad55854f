import Vitae.Proofs.Schema.Sight

/-!
# The text of leaves

Of an element that is read for its text the first node is taken, if it is text, and nothing
after it. So a comment or an instruction cuts off the text that follows.

* `readResume_leafText`: **when the text taken is all there is**, and when a comment or an
  instruction in it makes no difference.
-/

namespace Vitae.Markup

/-- The text that a node is, if it is one. -/
def Node.text? : Node → Option String
  | .text content => some content
  | _ => none

/-- The texts among some nodes. -/
def textsOf (nodes : List Node) : List String := nodes.filterMap Node.text?

/-- All texts directly in an element put together, if there are any. -/
def Element.wholeText? (e : Element) : Option String :=
  if textsOf e.nodes = [] then none else some (String.join (textsOf e.nodes))

/-- Comments and instructions. -/
inductive Node.Aside : Node → Prop
  | comment (content : String) : Aside (.comment content)
  | instruction (target content : String) : Aside (.instruction target content)

/-- Nodes with one more between two of them, or within a text that it parts. -/
inductive Inserted (n : Node) : List Node → List Node → Prop
  | between (before after : List Node) : Inserted n (before ++ after) (before ++ n :: after)
  | within (before : List Node) (s t : String) (after : List Node) : s ≠ "" → t ≠ "" →
      Inserted n (before ++ .text (s ++ t) :: after) (before ++ .text s :: n :: .text t :: after)

variable {e : Element} {n : Node} {nodes nodes' : List Node}

theorem text?_eq_head (e : Element) : e.text? = e.nodes.head?.bind Node.text? := by
  obtain ⟨tag, nodes⟩ := e
  cases nodes with
  | nil => rfl
  | cons node nodes => cases node <;> rfl

theorem join_eq_empty {texts : List String} : String.join texts = "" ↔ ∀ t ∈ texts, t = "" := by
  induction texts with
  | nil => simp
  | cons t texts ih => rw [String.join_cons, String.append_eq_empty_iff, ih, List.forall_mem_cons]

theorem textsOf_of_text {s : String} (h : e.text? = some s) : textsOf e.nodes = s :: textsOf e.nodes.tail := by
  rw [text?_eq_head] at h
  unfold textsOf
  cases hnodes : e.nodes with
  | nil =>
    rw [hnodes] at h
    cases h
  | cons node nodes =>
    rw [hnodes, List.head?_cons, Option.bind_some] at h
    rw [List.filterMap_cons_some h, List.tail_cons]

theorem textsOf_of_no_text (h : e.text? = none) : textsOf e.nodes = textsOf e.nodes.tail := by
  rw [text?_eq_head] at h
  unfold textsOf
  cases hnodes : e.nodes with
  | nil => rfl
  | cons node nodes =>
    rw [hnodes, List.head?_cons, Option.bind_some] at h
    rw [List.filterMap_cons_none h, List.tail_cons]

/-- The first text is the whole text up to emptiness exactly if no later node adds any. -/
theorem getD_text?_eq_iff : e.text?.getD "" = e.wholeText?.getD "" ↔ ∀ t ∈ textsOf e.nodes.tail, t = "" := by
  rw [← join_eq_empty]
  unfold Element.wholeText?
  cases h : e.text? with
  | some s =>
    rw [textsOf_of_text h, if_neg (List.cons_ne_nil _ _), String.join_cons, Option.getD_some, Option.getD_some]
    rw [eq_comm, String.append_eq_left_iff]
  | none =>
    rw [textsOf_of_no_text h, Option.getD_none]
    split
    · rename_i hnone
      rw [hnone, String.join_nil, Option.getD_none]
    · rw [Option.getD_some, eq_comm]

/-- The first text is the whole text exactly if moreover there is no text where none stands first. -/
theorem text?_eq_iff : e.text? = e.wholeText? ↔
    (∀ t ∈ textsOf e.nodes.tail, t = "") ∧ (e.text? = none → textsOf e.nodes = []) := by
  rw [← getD_text?_eq_iff]
  unfold Element.wholeText?
  cases h : e.text? with
  | some s =>
    rw [if_neg (by rw [textsOf_of_text h]; exact List.cons_ne_nil _ _)]
    simp
  | none =>
    split <;> simp [*]

theorem Inserted.children (hn : n.Aside) (h : Inserted n nodes nodes') :
    nodes'.filterMap Node.element? = nodes.filterMap Node.element? := by
  have hnone : n.element? = none := by cases hn <;> rfl
  cases h with
  | between before after =>
    rw [List.filterMap_append, List.filterMap_append, List.filterMap_cons_none hnone]
  | within before s t after _ _ =>
    rw [List.filterMap_append, List.filterMap_append, List.filterMap_cons_none rfl,
      List.filterMap_cons_none hnone, List.filterMap_cons_none rfl, List.filterMap_cons_none rfl]

/-- What stands first after an insertion. -/
theorem Inserted.head? (h : Inserted n nodes nodes') : nodes'.head? = nodes.head? ∨
    nodes'.head? = some n ∨
    ∃ s t, s ≠ "" ∧ t ≠ "" ∧ nodes.head? = some (.text (s ++ t)) ∧ nodes'.head? = some (.text s) := by
  cases h with
  | between before after =>
    cases before with
    | nil => exact Or.inr (Or.inl rfl)
    | cons node before => exact Or.inl rfl
  | within before s t after hs ht =>
    cases before with
    | nil => exact Or.inr (Or.inr ⟨s, t, hs, ht, rfl, rfl⟩)
    | cons node before => exact Or.inl rfl

end Vitae.Markup

namespace Vitae.Schema

open Markup (Element Node Path textsOf Inserted text?_eq_head text?_eq_iff getD_text?_eq_iff)

variable {root c : Element} {n : Node} {nodes : List Node} {p : Path} {role s : Role} {t t' : Option String}

/-- Two texts that come to the same in a role: an item without text is an empty one. -/
def SameText : Role → Option String → Option String → Prop
  | .item, t, t' => t.getD "" = t'.getD ""
  | _, t, t' => t = t'

theorem sameText_iff_eq (h : role ≠ .item) : SameText role t t' ↔ t = t' := by
  cases role <;> first | exact Iff.rfl | exact absurd rfl h

theorem SameText.refl (role : Role) (t : Option String) : SameText role t t := by
  cases role <;> exact rfl

theorem sameText_comm : SameText role t t' ↔ SameText role t' t := by
  cases role <;> exact eq_comm

/-- Reading an element in a role takes this text from it. -/
def Takes : Role → Element → Option String → Prop
  | .identity f, c, t => ∀ resume, readRootChild resume c = pure (resume.setField t f)
  | .field f, c, t => ∀ entry, readEntryChild entry c = pure (entry.setField t f)
  | .item, c, t => readItem c = .ok (t.getD "")
  | _, _, _ => False

theorem pure_inj {α : Type} {a b : α} : (pure a : Logged Error α) = pure b ↔ a = b := by
  constructor
  · intro h
    have hafter := congrArg (fun m => (Logged.after m #[]).1) h
    exact Except.ok.inj hafter
  · rintro rfl
    rfl

/-- **The text taken is that of the first node.** -/
theorem takes_iff (hleaf : role.Leaf) (hname : s.Gives c.name role) (hitem : role = .item → c.children = []) :
    Takes role c t ↔ SameText role t c.text? := by
  cases hname with
  | identity f hname =>
    have hread : ∀ resume, readRootChild resume c = pure (resume.setField c.text? f) := by
      intro resume
      unfold readRootChild
      rw [RootKind.ofName_eq_identity.2 hname]
    simp only [Takes, SameText, hread, pure_inj]
    constructor
    · intro h
      have hfield := congrArg (Resume.field · f) (h {})
      simp only [Resume.field_setField, if_pos] at hfield
      exact hfield.symm
    · rintro rfl _
      rfl
  | field f hname =>
    have hread : ∀ entry, readEntryChild entry c = pure (entry.setField c.text? f) := by
      intro entry
      unfold readEntryChild
      rw [EntryKind.ofName_eq_field.2 hname]
    simp only [Takes, SameText, hread, pure_inj]
    constructor
    · intro h
      have hfield := congrArg (Entry.field · f) (h { title := "" })
      simp only [Entry.field_setField, if_pos] at hfield
      exact hfield.symm
    · rintro rfl _
      rfl
  | item hname =>
    have hread : readItem c = .ok (c.text?.getD "") := by
      unfold readItem
      rw [ListKind.ofName_eq_item.2 hname, hitem rfl]
      rfl
    simp only [Takes, SameText, hread, Except.ok.injEq]
    exact eq_comm
  | _ => cases hleaf

/-- **All text is taken** exactly if what comes after the first node adds none, and where other
than for an item nothing is taken, if there is none. -/
theorem sameText_whole_iff : SameText role c.wholeText? c.text? ↔
    (∀ t ∈ textsOf c.nodes.tail, t = "") ∧ (role ≠ .item → c.text? = none → textsOf c.nodes = []) := by
  rw [sameText_comm]
  by_cases hitem : role = .item
  · subst hitem
    rw [← getD_text?_eq_iff]
    exact ⟨fun h => ⟨h, fun hne => absurd rfl hne⟩, And.left⟩
  · rw [sameText_iff_eq hitem, text?_eq_iff]
    exact and_congr_right fun _ => ⟨fun h _ => h, fun h => h hitem⟩

/-- A text that has something before and after a cut is more than what stands before it, and more
than nothing. -/
theorem not_sameText_of_cut {u v : String} (hu : u ≠ "") (hv : v ≠ "") :
    ¬ SameText role (some (u ++ v)) (some u) ∧ ¬ SameText role none (some (u ++ v)) := by
  have hcut : u ++ v ≠ u := fun h => hv (String.append_eq_left_iff.1 h)
  have hempty : u ++ v ≠ "" := fun h => hu (String.append_eq_empty_iff.1 h).1
  by_cases hitem : role = .item
  · subst hitem
    exact ⟨hcut, fun h => hempty (Eq.symm h)⟩
  · rw [sameText_iff_eq hitem, sameText_iff_eq hitem]
    exact ⟨fun h => hcut (Option.some.inj h), fun h => by cases h⟩

/-- **The text taken survives an insertion** exactly if the first node does, or if there is none. -/
theorem sameText_inserted_iff (hn : n.Aside) (h : Inserted n c.nodes nodes) :
    SameText role c.text? (c.refill nodes).text? ↔ nodes.head? = c.nodes.head? ∨ SameText role none c.text? := by
  have hrefill : (c.refill nodes).text? = nodes.head?.bind Node.text? := text?_eq_head _
  have hnone : n.text? = none := by cases hn <;> rfl
  rw [hrefill]
  rcases h.head? with hhead | hhead | ⟨u, v, hu, hv, hbefore, hhead⟩
  · rw [hhead, ← text?_eq_head]
    exact iff_of_true (SameText.refl _ _) (Or.inl rfl)
  · rw [hhead, Option.bind_some, hnone, sameText_comm]
    constructor
    · exact Or.inr
    · rintro (heq | hsame)
      · rw [text?_eq_head, ← heq, Option.bind_some, hnone]
        exact SameText.refl _ _
      · exact hsame
  · obtain ⟨hcut, hempty⟩ := not_sameText_of_cut hu hv
    rw [hhead, text?_eq_head, hbefore]
    refine iff_of_false hcut ?_
    rintro (heq | hsame)
    · simp only [Option.some.injEq, Node.text.injEq] at heq
      exact hv (String.append_eq_left_iff.1 heq.symm)
    · exact hempty hsame

/-- Leaves that hold the same elements are alike as far as their texts are. -/
theorem alike_refill (hleaf : role.Leaf) (hsame : SameText role c.text? (c.refill nodes).text?)
    (hchildren : nodes.filterMap Node.element? = c.nodes.filterMap Node.element?) :
    Alike role c (c.refill nodes) := by
  refine .mk ?_ ?_ ?_ ?_
  · cases hleaf with
    | item => exact ⟨rfl, hsame, congrArg List.isEmpty hchildren.symm⟩
    | identity f => exact hsame
    | field f => exact hsame
  all_goals
    intro hinner
    cases hleaf <;> cases hinner

/-- **What is read of a text.** In a tree that is accepted, each identity field, field of an entry
and item gives the text of its first node. That is all text directly in it exactly if no text with
anything in it comes later and, but for an item, no text at all where none comes first. So a comment
or an instruction that is inserted leaves the text as it is exactly if it leaves the first node, or
if there was no text to lose; then the résumé and the log stay as they are, as they always do if it
is inserted further down. -/
theorem readResume_leafText {log : Log} {r : Resume} (h : ((readResume root).after log).1 = .ok r) :
    (∀ p c role, Stands root p c role → role.Leaf →
      Takes role c c.text? ∧
      (Takes role c c.wholeText? ↔
        (∀ t ∈ textsOf c.nodes.tail, t = "") ∧ (role ≠ .item → c.text? = none → textsOf c.nodes = [])) ∧
      ∀ (n : Node) nodes, n.Aside → Inserted n c.nodes nodes →
        (Takes role (c.refill nodes) c.text? ↔ nodes.head? = c.nodes.head? ∨ SameText role none c.text?) ∧
        (Takes role (c.refill nodes) c.text? →
          readResume (root.changeAt (Element.refill nodes) p) = readResume root)) ∧
    ∀ p c nodes, Stands root p c .inText →
      readResume (root.changeAt (Element.refill nodes) p) = readResume root := by
  have hconforms := conforms_of_accepted h
  have hname : ∀ (nodes : List Node) (c : Element), (c.refill nodes).name = c.name := fun _ _ => rfl
  constructor
  · intro p c role hc hleaf
    obtain ⟨_, _, _, s, -, -, -, hgives⟩ := hc.parent (by rintro rfl; cases hleaf)
    have hitem : role = .item → c.children = [] := by
      rintro rfl
      exact (hconforms.item hc).2
    have htakes : ∀ t, Takes role c t ↔ SameText role t c.text? := fun _ => takes_iff hleaf hgives hitem
    refine ⟨(htakes _).2 (SameText.refl _ _), (htakes _).trans sameText_whole_iff, ?_⟩
    intro n nodes hn hinserted
    have hchildren : (c.refill nodes).children = c.children := hinserted.children hn
    have hafter : Takes role (c.refill nodes) c.text? ↔ SameText role c.text? (c.refill nodes).text? :=
      takes_iff hleaf hgives fun hrole => hchildren.trans (hitem hrole)
    refine ⟨hafter.trans (sameText_inserted_iff hn hinserted), ?_⟩
    intro hkept
    exact readResume_changeAt (hname nodes) hc (alike_refill hleaf (hafter.1 hkept) hchildren)
  · intro p c nodes hc
    refine readResume_changeAt (hname nodes) hc (.mk trivial ?_ ?_ ?_)
    all_goals
      intro hinner
      cases hinner

/-- A name with a comment in its text. -/
def commentedName : Element where
  tag := ⟨none, "resume", [], 1⟩
  nodes := [.element ⟨none, "name", [], 1⟩ [.text "A", .comment "c", .text "B"]]

/-- The name is read as far as the comment, and another comment after that makes no difference. -/
theorem commentedName_leafText :
    ((readResume commentedName).after #[]).1 = .ok { name := some "A" } ∧
      Takes (.identity .name) ⟨⟨none, "name", [], 1⟩, [.text "A", .comment "c", .text "B"]⟩ (some "A") ∧
      ¬ Takes (.identity .name) ⟨⟨none, "name", [], 1⟩, [.text "A", .comment "c", .text "B"]⟩ (some "AB") ∧
      readResume (commentedName.changeAt
        (Element.refill [.text "A", .comment "c", .text "B", .comment "d"]) [0]) = readResume commentedName := by
  have hok : ((readResume commentedName).after #[]).1 = .ok { name := some "A" } := rfl
  obtain ⟨htakes, hwhole, hinsert⟩ :=
    (readResume_leafText hok).1 [0] ⟨⟨none, "name", [], 1⟩, [.text "A", .comment "c", .text "B"]⟩
      (.identity .name) ⟨rfl, rfl⟩ (.identity .name)
  obtain ⟨hkept, hsame⟩ := hinsert (.comment "d") [.text "A", .comment "c", .text "B", .comment "d"]
    (.comment "d") (.between [.text "A", .comment "c", .text "B"] [])
  refine ⟨hok, htakes, ?_, hsame (hkept.2 (Or.inl rfl))⟩
  intro h
  exact absurd ((hwhole.1 h).1 "B" (List.mem_singleton.2 rfl)) (by decide)

/-- A comment in a name cuts it short: without it the whole text is read. -/
theorem commentedName_cut :
    (readResume commentedName).after #[] = (.ok { name := some "A" }, #[]) ∧
      commentedName = Element.changeAt (Element.refill [.text "A", .comment "c", .text "B"]) [0]
        ⟨⟨none, "resume", [], 1⟩, [.element ⟨none, "name", [], 1⟩ [.text "AB"]]⟩ ∧
      Inserted (.comment "c") [.text "AB"] [.text "A", .comment "c", .text "B"] ∧
      (readResume ⟨⟨none, "resume", [], 1⟩, [.element ⟨none, "name", [], 1⟩ [.text "AB"]]⟩).after #[] =
        (.ok { name := some "AB" }, #[]) :=
  ⟨rfl, rfl, .within [] "A" "B" [] (by decide) (by decide), rfl⟩

end Vitae.Schema
