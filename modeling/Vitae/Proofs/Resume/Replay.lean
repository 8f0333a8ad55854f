import Vitae.Proofs.Resume.Trace

/-!
# One walk for every visitor

A visitor has no say in which calls are made. What it comes to is what it comes to by taking the
calls that another visitor wrote down, so a rendering is known once these are.

* `VisitsOnce`: calls that meet each part of a résumé once, in document order.
* `Resume.walk_replayed`: **every visitor is taken through the calls that are written down**, and
  these meet each part once.
-/

namespace Vitae

universe u

/-! ## What stands in a section -/

/-- The entries in what a section holds. -/
def SectionBody.run : SectionBody → List Entry
  | .list _ => []
  | .entries run => run

/-- The items in what a section holds, those of its entries among them. -/
def SectionBody.items : SectionBody → List String
  | .list items => items
  | .entries run => run.flatMap fun e => e.items.getD []

/-- The items in what a section holds, those of its entries apart. -/
def SectionBody.ownItems : SectionBody → List String
  | .list items => items
  | .entries _ => []

theorem SectionBody.items_eq (body : SectionBody) :
    body.items = body.ownItems ++ body.run.flatMap fun e => e.items.getD [] := by
  cases body with
  | list items => exact (List.append_nil items).symm
  | entries run => rfl

/-! ## What a call is made with -/

namespace Call

def field? : Call → Option (IdentityField × String)
  | .identity field value => some (field, value)
  | _ => none

def entered? : Call → Option Section
  | .enterSection part => some part
  | _ => none

def left? : Call → Option Section
  | .leaveSection part => some part
  | _ => none

def enteredEntry? : Call → Option Entry
  | .enterEntry e => some e
  | _ => none

def leftEntry? : Call → Option Entry
  | .leaveEntry e => some e
  | _ => none

def item? : Call → Option String
  | .item text => some text
  | _ => none

end Call

/-- Calls that are made once at each part of a résumé, in document order: at each section and each
entry once when it is entered and once when it is left, and of the identity fields at those that
are present. -/
structure VisitsOnce (r : Resume) (calls : List Call) : Prop where
  fields : calls.filterMap Call.field? = r.shown
  entered : calls.filterMap Call.entered? = r.sections
  left : calls.filterMap Call.left? = r.sections
  enteredEntries : calls.filterMap Call.enteredEntry? = r.sections.flatMap (·.body.run)
  leftEntries : calls.filterMap Call.leftEntry? = r.sections.flatMap (·.body.run)
  items : calls.filterMap Call.item? = r.sections.flatMap (·.body.items)

/-! ## Picking from the calls, part by part -/

section

variable {α : Type} (pick : Call → Option α)

theorem filterMap_cons_toList (call : Call) (calls : List Call) :
    (call :: calls).filterMap pick = (pick call).toList ++ calls.filterMap pick := by
  rw [List.filterMap_cons]
  cases pick call <;> rfl

theorem filterMap_entry_visits (e : Entry) : e.visits.filterMap pick =
    (pick (.enterEntry e)).toList ++ ((e.items.getD []).filterMap (fun item => pick (.item item)) ++
      (pick (.leaveEntry e)).toList) := by
  unfold Entry.visits
  rw [filterMap_cons_toList, List.filterMap_append, List.filterMap_map, filterMap_cons_toList,
    List.filterMap_nil, List.append_nil]
  rfl

/-- What is picked from the calls at what a section holds: from those at its own items, then entry by entry. -/
theorem filterMap_body_visits (body : SectionBody) : body.visits.filterMap pick =
    body.ownItems.filterMap (fun item => pick (.item item)) ++
      body.run.flatMap fun e => e.visits.filterMap pick := by
  cases body with
  | list items => exact List.filterMap_map.trans (List.append_nil _).symm
  | entries run => exact List.filterMap_flatMap

theorem filterMap_section_visits (part : Section) : part.visits.filterMap pick =
    (pick (.enterSection part)).toList ++ (part.body.visits.filterMap pick ++
      (pick (.leaveSection part)).toList) := by
  unfold Section.visits
  rw [filterMap_cons_toList, List.filterMap_append, filterMap_cons_toList, List.filterMap_nil, List.append_nil]

/-- **What is picked from the calls of a walk** comes from the fields and then from each section: from
entering it, from its own items, from each entry likewise, and from leaving it. -/
theorem filterMap_visits (r : Resume) : r.visits.filterMap pick =
    r.shown.filterMap (fun shown => pick (.identity shown.1 shown.2)) ++ r.sections.flatMap fun part =>
      (pick (.enterSection part)).toList ++ (part.body.ownItems.filterMap (fun item => pick (.item item)) ++
        (part.body.run.flatMap fun e => (pick (.enterEntry e)).toList ++
          ((e.items.getD []).filterMap (fun item => pick (.item item)) ++ (pick (.leaveEntry e)).toList)) ++
        (pick (.leaveSection part)).toList) := by
  unfold Resume.visits
  rw [List.filterMap_append, flatMap_visitField, List.filterMap_map, List.filterMap_flatMap]
  simp only [filterMap_section_visits, filterMap_body_visits, filterMap_entry_visits]
  rfl

end

/-- Nothing is picked of a section's entries where nothing is picked of any. -/
theorem flatMap_nothing {α β : Type} (xs : List α) : (xs.flatMap fun _ => ([] : List β)) = [] :=
  List.flatMap_eq_nil_iff.2 fun _ _ => rfl

/-- The calls of a walk meet each part of the résumé once. -/
theorem visitsOnce (r : Resume) : VisitsOnce r r.visits where
  fields := by simp [filterMap_visits, Call.field?]
  entered := by simp [filterMap_visits, Call.entered?, flatMap_nothing]
  left := by simp [filterMap_visits, Call.left?, flatMap_nothing]
  enteredEntries := by simp [filterMap_visits, Call.enteredEntry?]
  leftEntries := by simp [filterMap_visits, Call.leftEntry?]
  items := by simp [filterMap_visits, Call.item?, SectionBody.items_eq]

/-- **The walk is the same for every visitor.** Whatever a visitor does at a call, and from whatever
state, it comes to what it comes to by taking in order the calls that were written down, each with the
section or entry it was made with. These are the calls at the fields that are present, then at each
section between entering and leaving it, and in it at each entry likewise: each part once. -/
theorem Resume.walk_replayed (r : Resume) :
    (∀ {σ : Type u} (v : Visitor σ) (s : σ), r.walk v s = r.calls.foldl (fun s call => v.replay call s) s) ∧
      (r.calls = r.shown.map (fun shown => .identity shown.1 shown.2) ++ r.sections.flatMap Section.visits) ∧
      VisitsOnce r r.calls := by
  have hcalls : r.visits = r.shown.map (fun shown => .identity shown.1 shown.2) ++
      r.sections.flatMap Section.visits := by
    unfold Resume.visits
    rw [flatMap_visitField]
  rw [r.calls_eq_visits]
  refine ⟨?_, hcalls, visitsOnce r⟩
  intro σ v s
  exact r.walk_eq_visits v s

end Vitae
