import Mathlib.Data.List.Basic
import Vitae.Resume.PlainText
import Vitae.Resume.Trace

/-!
# The calls of a walk

Which calls a walk makes depends on the résumé alone. They are given here part by part, and
what any visitor comes to is what it comes to by taking them one after the other.

* `walk_eq_visits`: **a walk makes the calls of the résumé in order**, whatever the visitor.
* `calls_eq_visits`: so these are the calls that are written down.
* `lines_eq_visits`: the lines of plain text, call by call.
-/

namespace Vitae

universe u

/-- The calls made at an entry. -/
def Entry.visits (e : Entry) : List Call :=
  .enterEntry e :: ((e.items.getD []).map .item ++ [.leaveEntry e])

/-- The calls made at what a section holds. -/
def SectionBody.visits : SectionBody → List Call
  | .list items => items.map .item
  | .entries run => run.flatMap Entry.visits

/-- The calls made at a section. -/
def Section.visits (part : Section) : List Call :=
  .enterSection part :: (part.body.visits ++ [.leaveSection part])

/-- The call made at an identity field, if it is present. -/
def visitField (f : IdentityField) (value : Option String) : List Call :=
  (value.map (Call.identity f)).toList

/-- The calls made at a résumé. -/
def Resume.visits (r : Resume) : List Call :=
  r.identity.flatMap (fun present => visitField present.1 present.2) ++ r.sections.flatMap Section.visits

namespace Visitor

variable {σ : Type u} (v : Visitor σ)

/-- Makes recorded calls one after the other. -/
def replayAll (calls : List Call) (s : σ) : σ := calls.foldl (fun s call => v.replay call s) s

theorem replayAll_cons (call : Call) (calls : List Call) (s : σ) :
    v.replayAll (call :: calls) s = v.replayAll calls (v.replay call s) := rfl

theorem replayAll_append (calls more : List Call) (s : σ) :
    v.replayAll (calls ++ more) s = v.replayAll more (v.replayAll calls s) :=
  List.foldl_append

/-- A loop that makes some calls in each round makes them all. -/
theorem foldl_eq_replayAll {α : Type} {walk : α → σ → σ} {visits : α → List Call}
    (h : ∀ a s, walk a s = v.replayAll (visits a) s) (xs : List α) (s : σ) :
    xs.foldl (fun s a => walk a s) s = v.replayAll (xs.flatMap visits) s := by
  induction xs generalizing s with
  | nil => rfl
  | cons a xs ih =>
    rw [List.foldl_cons, List.flatMap_cons, replayAll_append, h]
    exact ih _

theorem walkItems_eq (items : List String) (s : σ) :
    v.walkItems items s = v.replayAll (items.map .item) s := by
  have hitem : ∀ (item : String) (s : σ), v.item item s = v.replayAll [.item item] s := fun _ _ => rfl
  have hloop := v.foldl_eq_replayAll hitem items s
  rw [← List.map_eq_flatMap] at hloop
  exact hloop

theorem walkEntry_eq (e : Entry) (s : σ) : v.walkEntry e s = v.replayAll e.visits s := by
  unfold walkEntry Entry.visits
  rw [replayAll_cons, replayAll_append, walkItems_eq]
  rfl

theorem walkBody_eq (body : SectionBody) (s : σ) : v.walkBody body s = v.replayAll body.visits s := by
  cases body with
  | list items => exact v.walkItems_eq items s
  | entries run => exact v.foldl_eq_replayAll v.walkEntry_eq run s

theorem walkSection_eq (part : Section) (s : σ) : v.walkSection part s = v.replayAll part.visits s := by
  unfold walkSection Section.visits
  rw [replayAll_cons, replayAll_append, walkBody_eq]
  rfl

theorem walkField_eq (present : IdentityField × Option String) (s : σ) :
    v.walkField present.1 present.2 s = v.replayAll (visitField present.1 present.2) s := by
  obtain ⟨f, value⟩ := present
  cases value <;> rfl

/-- What a visitor comes to that writes something down at each call. -/
theorem toList_replayAll {α : Type} {v : Visitor (Array α)} {writes : Call → List α}
    (h : ∀ call out, (v.replay call out).toList = out.toList ++ writes call) (calls : List Call) (out : Array α) :
    (v.replayAll calls out).toList = out.toList ++ calls.flatMap writes := by
  induction calls generalizing out with
  | nil => exact (List.append_nil _).symm
  | cons call calls ih => rw [replayAll_cons, ih, h, List.flatMap_cons, List.append_assoc]

theorem recorder_replay (call : Call) (log : Array Call) :
    (recorder.replay call log).toList = log.toList ++ [call] := by
  cases call <;> simp [replay, recorder]

end Visitor

/-- **A walk makes the calls of the résumé in order**, on any visitor and from any state. -/
theorem Resume.walk_eq_visits {σ : Type u} (r : Resume) (v : Visitor σ) (s : σ) :
    r.walk v s = v.replayAll r.visits s := by
  have hidentity := v.foldl_eq_replayAll v.walkField_eq r.identity s
  have hsections := v.foldl_eq_replayAll v.walkSection_eq r.sections
    (v.replayAll (r.identity.flatMap fun present => visitField present.1 present.2) s)
  unfold Resume.walk Resume.visits
  rw [v.replayAll_append, hidentity, hsections]

/-- The calls that are written down are those of the résumé. -/
theorem Resume.calls_eq_visits (r : Resume) : r.calls = r.visits := by
  unfold Resume.calls
  rw [Resume.walk_eq_visits, Visitor.toList_replayAll Visitor.recorder_replay]
  exact List.flatMap_singleton' r.visits

/-! ## Plain text -/

/-- The lines that are printed at a call. -/
def Call.lines : Call → List Line
  | .identity _ value => [.text value]
  | .enterSection part => heading part.title '='
  | .enterEntry entry => heading entry.title '-' ++ entry.details
  | .item text => [.bullet text]
  | .leaveSection _ | .leaveEntry _ => []

theorem printer_replay (call : Call) (out : Array Line) :
    (Visitor.printer.replay call out).toList = out.toList ++ call.lines := by
  cases call <;> simp [Visitor.replay, Visitor.printer, Call.lines]

/-- The lines of a résumé are those printed at its calls. -/
theorem Resume.lines_eq_visits (r : Resume) : r.lines = r.visits.flatMap Call.lines := by
  unfold Resume.lines
  rw [Resume.walk_eq_visits, Visitor.toList_replayAll printer_replay]
  rfl

end Vitae
