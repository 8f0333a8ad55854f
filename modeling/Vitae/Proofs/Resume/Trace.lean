import Mathlib.Data.List.Forall2
import Vitae.Proofs.Resume.Walk

/-!
# What the trace of a walk tells

The stops of a walk come in blocks, one for each section and in it one for each entry, and the
blocks can be told apart again whatever the titles and items are.

* `TraceOf`: the form of a trace.
* `Resume.SeenAlike`: résumés with the same fields, titles and items.
* `Resume.events_outline`: **a trace has this form, and it tells exactly the fields, titles and
  items.**
-/

namespace Vitae

variable {α β : Type}

/-! ## The stops at the parts of a résumé -/

/-- The stops at some items. -/
def itemStops (items : List String) : List Event := items.map .item

def Entry.stops (e : Entry) : List Event :=
  .enterEntry e.title :: (itemStops (e.items.getD []) ++ [.leaveEntry e.title])

def SectionBody.stops : SectionBody → List Event
  | .list items => itemStops items
  | .entries run => run.flatMap Entry.stops

def Section.stops (part : Section) : List Event :=
  .enterSection part.title :: (part.body.stops ++ [.leaveSection part.title])

/-- The identity fields that are present, in their order. -/
def Resume.shown (r : Resume) : List (IdentityField × String) :=
  r.identity.filterMap fun present => present.2.map (present.1, ·)

def fieldStop (shown : IdentityField × String) : Event := .identity shown.1 shown.2

theorem map_event_items (items : List String) : (items.map Call.item).map Call.event = itemStops items := by
  unfold itemStops
  rw [List.map_map]
  rfl

theorem map_event_entry (e : Entry) : e.visits.map Call.event = e.stops := by
  unfold Entry.visits Entry.stops
  rw [List.map_cons, List.map_append, map_event_items]
  rfl

theorem map_event_section (part : Section) : part.visits.map Call.event = part.stops := by
  have hbody : part.body.visits.map Call.event = part.body.stops := by
    cases part.body with
    | list items => exact map_event_items items
    | entries run => exact (List.map_flatMap).trans (List.flatMap_congr fun e _ => map_event_entry e)
  unfold Section.visits Section.stops
  rw [List.map_cons, List.map_append, hbody]
  rfl

/-- The calls at the identity fields are made at those that are present. -/
theorem flatMap_visitField (r : Resume) :
    (r.identity.flatMap fun present => visitField present.1 present.2) =
      r.shown.map fun shown => .identity shown.1 shown.2 := by
  unfold Resume.shown
  induction r.identity with
  | nil => rfl
  | cons present more ih =>
    rw [List.flatMap_cons, ih]
    obtain ⟨f, value⟩ := present
    cases value <;> rfl

/-- A trace is the stops at the fields, then those at the sections. -/
theorem Resume.events_eq (r : Resume) : r.events = r.shown.map fieldStop ++ r.sections.flatMap Section.stops := by
  have hsections : (r.sections.flatMap Section.visits).map Call.event = r.sections.flatMap Section.stops :=
    (List.map_flatMap).trans (List.flatMap_congr fun part _ => map_event_section part)
  unfold Resume.events
  rw [r.calls_eq_visits]
  unfold Resume.visits
  rw [List.map_append, flatMap_visitField, List.map_map, hsections]
  rfl

/-! ## The form of a trace -/

/-- The block of an entry: its items between its two ends. -/
def EntryBlock (e : Entry) (block : List Event) : Prop :=
  block = .enterEntry e.title :: ((e.items.getD []).map .item ++ [.leaveEntry e.title])

/-- The block of a section: between its two ends items and nothing else, or a block for each
entry and nothing else. -/
inductive SectionBlock : Section → List Event → Prop
  | ofItems (title : String) (items : List String) : SectionBlock ⟨title, .list items⟩
      (.enterSection title :: (items.map .item ++ [.leaveSection title]))
  | ofEntries (title : String) {run : List Entry} {blocks : List (List Event)} :
      List.Forall₂ EntryBlock run blocks → SectionBlock ⟨title, .entries run⟩
        (.enterSection title :: (blocks.flatten ++ [.leaveSection title]))

/-- **The form of a trace**: identity fields in their order, each at most once and exactly those that
are present, then a block for each section. -/
structure TraceOf (r : Resume) (fields : List (IdentityField × String)) (blocks : List (List Event))
    (events : List Event) : Prop where
  parts : events = (fields.map fun shown => .identity shown.1 shown.2) ++ blocks.flatten
  ordered : (fields.map (·.1)).Sublist [.name, .address, .email, .phone]
  present : ∀ f value, (f, value) ∈ fields ↔ r.field f = some value
  sections : List.Forall₂ SectionBlock r.sections blocks

theorem mem_identity (r : Resume) (f : IdentityField) (value : Option String) :
    (f, value) ∈ r.identity ↔ r.field f = value := by
  unfold Resume.identity IdentityField.all
  simp only [List.mem_map, Prod.mk.injEq]
  constructor
  · rintro ⟨g, -, rfl, h⟩
    exact h
  · intro h
    exact ⟨f, by cases f <;> decide, rfl, h⟩

theorem mem_shown (r : Resume) (f : IdentityField) (value : String) :
    (f, value) ∈ r.shown ↔ r.field f = some value := by
  rw [← mem_identity]
  unfold Resume.shown
  rw [List.mem_filterMap]
  constructor
  · rintro ⟨⟨g, shown⟩, hmem, h⟩
    obtain ⟨text, rfl, h⟩ := Option.map_eq_some_iff.1 h
    cases h
    exact hmem
  · intro h
    exact ⟨(f, some value), h, rfl⟩

/-- Leaving out fields leaves the others in their order. -/
theorem shown_sublist (r : Resume) : (r.shown.map (·.1)).Sublist IdentityField.all := by
  have hall : r.identity.map (·.1) = IdentityField.all := by
    unfold Resume.identity
    rw [List.map_map]
    exact List.map_id _
  unfold Resume.shown
  rw [← hall]
  induction r.identity with
  | nil => exact List.Sublist.slnil
  | cons present more ih =>
    obtain ⟨f, value⟩ := present
    cases value with
    | none => exact ih.cons f
    | some text => exact ih.cons_cons f

/-- What is made part by part falls into a block for each part. -/
theorem exists_blocks {R : α → List β → Prop} {make : α → List β} (h : ∀ a, R a (make a)) (parts : List α) :
    ∃ blocks, parts.flatMap make = blocks.flatten ∧ List.Forall₂ R parts blocks :=
  ⟨parts.map make, List.flatMap_def, List.forall₂_map_right_iff.2 (List.forall₂_same.2 fun a _ => h a)⟩

theorem sectionBlock_stops (part : Section) : SectionBlock part part.stops := by
  obtain ⟨title, body⟩ := part
  cases body with
  | list items => exact .ofItems title items
  | entries run =>
    have hentry : ∀ e : Entry, EntryBlock e e.stops := fun _ => rfl
    obtain ⟨blocks, hblocks, hrun⟩ := exists_blocks hentry run
    have hstops : (Section.mk title (.entries run)).stops =
        .enterSection title :: (blocks.flatten ++ [.leaveSection title]) := by
      rw [← hblocks]
      rfl
    rw [hstops]
    exact .ofEntries title hrun

/-- Every trace has the form of one. -/
theorem exists_traceOf (r : Resume) : ∃ fields blocks, TraceOf r fields blocks r.events := by
  obtain ⟨blocks, hblocks, hsections⟩ := exists_blocks sectionBlock_stops r.sections
  refine ⟨r.shown, blocks, ?_, shown_sublist r, mem_shown r, hsections⟩
  rw [r.events_eq, hblocks]
  rfl

/-! ## What a trace tells -/

/-- Entries with the same title and the same items. No list is like an empty one. -/
def Entry.SeenAlike (e e' : Entry) : Prop := e.title = e'.title ∧ e.items.getD [] = e'.items.getD []

/-- Bodies with the same items, or with entries that are seen alike. No items are like no entries. -/
inductive SectionBody.SeenAlike : SectionBody → SectionBody → Prop
  | items (items : List String) : SeenAlike (.list items) (.list items)
  | entries {run run' : List Entry} : List.Forall₂ Entry.SeenAlike run run' →
      SeenAlike (.entries run) (.entries run')
  | noItems : SeenAlike (.list []) (.entries [])
  | noEntries : SeenAlike (.entries []) (.list [])

def Section.SeenAlike (part part' : Section) : Prop :=
  part.title = part'.title ∧ part.body.SeenAlike part'.body

/-- Résumés that a walk cannot tell apart by titles and items. -/
structure Resume.SeenAlike (r r' : Resume) : Prop where
  fields : ∀ f, r.field f = r'.field f
  sections : List.Forall₂ Section.SeenAlike r.sections r'.sections

/-- A block is over at the first stop that ends it. -/
theorem append_cons_inj {a : α} {xs ys more more' : List α} (hx : a ∉ xs) (hy : a ∉ ys)
    (h : xs ++ a :: more = ys ++ a :: more') : xs = ys ∧ more = more' := by
  induction xs generalizing ys with
  | nil =>
    cases ys with
    | nil => exact ⟨rfl, (List.cons.inj h).2⟩
    | cons y ys => exact absurd (List.mem_cons.2 (Or.inl (List.cons.inj h).1)) hy
  | cons x xs ih =>
    cases ys with
    | nil => exact absurd (List.mem_cons.2 (Or.inl (List.cons.inj h).1.symm)) hx
    | cons y ys =>
      obtain ⟨rfl, htail⟩ := List.cons.inj h
      obtain ⟨rfl, hmore⟩ := ih (fun hmem => hx (List.mem_cons_of_mem _ hmem))
        (fun hmem => hy (List.mem_cons_of_mem _ hmem)) htail
      exact ⟨rfl, hmore⟩

/-- **Blocks that can be told apart wherever they stand can be told apart in a row.** -/
theorem forall₂_of_flatMap_eq {R : α → α → Prop} {make : α → List β} (hne : ∀ a, make a ≠ [])
    (h : ∀ a b more more', make a ++ more = make b ++ more' → R a b ∧ more = more') {parts parts' : List α}
    (heq : parts.flatMap make = parts'.flatMap make) : List.Forall₂ R parts parts' := by
  induction parts generalizing parts' with
  | nil =>
    cases parts' with
    | nil => exact .nil
    | cons b parts' =>
      rw [List.flatMap_nil, List.flatMap_cons, eq_comm, List.append_eq_nil_iff] at heq
      exact absurd heq.1 (hne b)
  | cons a parts ih =>
    cases parts' with
    | nil =>
      rw [List.flatMap_nil, List.flatMap_cons, List.append_eq_nil_iff] at heq
      exact absurd heq.1 (hne a)
    | cons b parts' =>
      rw [List.flatMap_cons, List.flatMap_cons] at heq
      obtain ⟨hab, hmore⟩ := h a b _ _ heq
      exact .cons hab (ih hmore)

theorem flatMap_congr_of_forall₂ {R : α → α → Prop} {make : α → List β} (h : ∀ a b, R a b → make a = make b)
    {parts parts' : List α} (hparts : List.Forall₂ R parts parts') :
    parts.flatMap make = parts'.flatMap make := by
  induction hparts with
  | nil => rfl
  | cons hab _ ih => rw [List.flatMap_cons, List.flatMap_cons, h _ _ hab, ih]

theorem itemStops_injective : Function.Injective itemStops :=
  List.map_injective_iff.2 fun _ _ => Event.item.inj

theorem mem_itemStops {event : Event} {items : List String} (h : event ∈ itemStops items) :
    ∃ item, event = .item item := by
  obtain ⟨item, -, rfl⟩ := List.mem_map.1 h
  exact ⟨item, rfl⟩

/-- The block of an entry tells its title and its items. -/
theorem entry_stops_inj {e e' : Entry} {more more' : List Event} (h : e.stops ++ more = e'.stops ++ more') :
    e.SeenAlike e' ∧ more = more' := by
  unfold Entry.stops at h
  rw [List.cons_append, List.cons_append, List.append_assoc, List.append_assoc] at h
  obtain ⟨hhead, htail⟩ := List.cons.inj h
  have htitle : e.title = e'.title := Event.enterEntry.inj hhead
  rw [← htitle] at htail
  have hno : ∀ items, Event.leaveEntry e.title ∉ itemStops items := by
    intro items hmem
    obtain ⟨item, hitem⟩ := mem_itemStops hmem
    cases hitem
  obtain ⟨hitems, hmore⟩ := append_cons_inj (hno _) (hno _) htail
  exact ⟨⟨htitle, itemStops_injective hitems⟩, hmore⟩

theorem entry_stops_congr (e e' : Entry) (h : e.SeenAlike e') : e.stops = e'.stops := by
  unfold Entry.stops
  rw [h.1, h.2]

/-- Items are no entries, unless there are none of either. -/
theorem itemStops_eq_flatMap {items : List String} {run : List Entry}
    (h : itemStops items = run.flatMap Entry.stops) : items = [] ∧ run = [] := by
  cases items with
  | nil =>
    cases run with
    | nil => exact ⟨rfl, rfl⟩
    | cons e run => cases h
  | cons item items =>
    cases run with
    | nil => cases h
    | cons e run => cases h

/-- What stands between the ends of a section tells its items or its entries. -/
theorem body_stops_eq_iff {body body' : SectionBody} : body.stops = body'.stops ↔ body.SeenAlike body' := by
  constructor
  · intro h
    cases body with
    | list items =>
      cases body' with
      | list items' =>
        obtain rfl : items = items' := itemStops_injective h
        exact .items items
      | entries run' =>
        obtain ⟨rfl, rfl⟩ := itemStops_eq_flatMap h
        exact .noItems
    | entries run =>
      cases body' with
      | list items' =>
        obtain ⟨rfl, rfl⟩ := itemStops_eq_flatMap h.symm
        exact .noEntries
      | entries run' =>
        have hne : ∀ e : Entry, e.stops ≠ [] := fun _ => List.cons_ne_nil _ _
        exact .entries (forall₂_of_flatMap_eq hne (fun _ _ _ _ => entry_stops_inj) h)
  · intro h
    cases h with
    | items items => rfl
    | entries hrun => exact flatMap_congr_of_forall₂ entry_stops_congr hrun
    | noItems => rfl
    | noEntries => rfl

/-- The end of a section does not stand within one. -/
theorem leaveSection_not_mem (title : String) (body : SectionBody) : Event.leaveSection title ∉ body.stops := by
  intro hmem
  cases body with
  | list items =>
    obtain ⟨item, hitem⟩ := mem_itemStops hmem
    cases hitem
  | entries run =>
    obtain ⟨e, -, he⟩ := List.mem_flatMap.1 hmem
    simp [Entry.stops, itemStops] at he

theorem section_stops_inj {part part' : Section} {more more' : List Event}
    (h : part.stops ++ more = part'.stops ++ more') : part.SeenAlike part' ∧ more = more' := by
  unfold Section.stops at h
  rw [List.cons_append, List.cons_append, List.append_assoc, List.append_assoc] at h
  obtain ⟨hhead, htail⟩ := List.cons.inj h
  have htitle : part.title = part'.title := Event.enterSection.inj hhead
  rw [← htitle] at htail
  obtain ⟨hbody, hmore⟩ := append_cons_inj (leaveSection_not_mem _ _) (leaveSection_not_mem _ _) htail
  exact ⟨⟨htitle, body_stops_eq_iff.1 hbody⟩, hmore⟩

theorem section_stops_congr (part part' : Section) (h : part.SeenAlike part') : part.stops = part'.stops := by
  unfold Section.stops
  rw [h.1, body_stops_eq_iff.2 h.2]

theorem identity_not_mem (f : IdentityField) (value : String) (parts : List Section) :
    Event.identity f value ∉ parts.flatMap Section.stops := by
  intro hmem
  obtain ⟨part, -, hpart⟩ := List.mem_flatMap.1 hmem
  obtain ⟨title, body⟩ := part
  cases body with
  | list items => simp [Section.stops, SectionBody.stops, itemStops] at hpart
  | entries run => simp [Section.stops, SectionBody.stops, Entry.stops, itemStops] at hpart

/-- A field is present if the trace has a stop at it. -/
theorem identity_mem_events (r : Resume) (f : IdentityField) (value : String) :
    .identity f value ∈ r.events ↔ r.field f = some value := by
  rw [r.events_eq, List.mem_append, or_iff_left (identity_not_mem f value r.sections), List.mem_map,
    ← mem_shown]
  constructor
  · rintro ⟨⟨g, text⟩, hmem, h⟩
    cases h
    exact hmem
  · intro hmem
    exact ⟨_, hmem, rfl⟩

/-- A trace tells the fields. -/
theorem shown_eq_of_fields {r r' : Resume} (h : ∀ f, r.field f = r'.field f) : r.shown = r'.shown := by
  unfold Resume.shown Resume.identity
  simp only [h]

/-- **What the trace of a walk tells.** It has the form of a trace, and two résumés have the same trace
exactly if they have the same identity fields and, section by section, the same titles and the same items
or entries with the same titles and items. An absent list is like an empty one, a list without items is
like a run of no entries, and what else an entry holds does not show. -/
theorem Resume.events_outline (r r' : Resume) :
    (∃ fields blocks, TraceOf r fields blocks r.events) ∧ (r.events = r'.events ↔ r.SeenAlike r') := by
  refine ⟨exists_traceOf r, ?_, ?_⟩
  · intro h
    have hfields : ∀ f, r.field f = r'.field f := by
      intro f
      refine Option.ext fun value => ?_
      rw [← identity_mem_events, ← identity_mem_events, h]
    -- the fields are known, so what is left of the two traces are the sections
    have hsections : r.sections.flatMap Section.stops = r'.sections.flatMap Section.stops := by
      rw [r.events_eq, r'.events_eq, shown_eq_of_fields hfields] at h
      exact List.append_cancel_left h
    have hne : ∀ part : Section, part.stops ≠ [] := fun _ => List.cons_ne_nil _ _
    exact ⟨hfields, forall₂_of_flatMap_eq hne (fun _ _ _ _ => section_stops_inj) hsections⟩
  · rintro ⟨hfields, hsections⟩
    rw [r.events_eq, r'.events_eq, shown_eq_of_fields hfields,
      flatMap_congr_of_forall₂ section_stops_congr hsections]

end Vitae
