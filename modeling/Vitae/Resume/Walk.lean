import Vitae.Resume.Basic

/-!
# Walking a résumé

One traversal for every output: present identity fields in their order, then the
sections in document order, in each its items or its entries, and in an entry its
items. A visitor says what each call does to its state; the walk decides only
which calls are made.

* `Resume.walk`: the state of a visitor after the traversal.
-/

namespace Vitae

universe u

/-- What to do at each stop of a walk. A stop that is left out changes nothing. -/
structure Visitor (σ : Type u) where
  identity : IdentityField → String → σ → σ := fun _ _ s => s
  enterSection : Section → σ → σ := fun _ s => s
  leaveSection : Section → σ → σ := fun _ s => s
  enterEntry : Entry → σ → σ := fun _ s => s
  leaveEntry : Entry → σ → σ := fun _ s => s
  item : String → σ → σ := fun _ s => s

namespace Visitor

variable {σ : Type u}

/-- Visits the items of a list. -/
def walkItems (v : Visitor σ) (items : List String) (s : σ) : σ :=
  items.foldl (fun s item => v.item item s) s

/-- Visits an entry and the items of its list, if it has one. -/
def walkEntry (v : Visitor σ) (e : Entry) (s : σ) : σ :=
  v.leaveEntry e (v.walkItems (e.items.getD []) (v.enterEntry e s))

/-- Visits what a section holds. -/
def walkBody (v : Visitor σ) (body : SectionBody) (s : σ) : σ :=
  match body with
  | .list items => v.walkItems items s
  | .entries entries => entries.foldl (fun s e => v.walkEntry e s) s

/-- Visits a section. -/
def walkSection (v : Visitor σ) (part : Section) (s : σ) : σ :=
  v.leaveSection part (v.walkBody part.body (v.enterSection part s))

/-- Visits an identity field, if it is present. -/
def walkField (v : Visitor σ) (f : IdentityField) (value : Option String) (s : σ) : σ :=
  match value with
  | some text => v.identity f text s
  | none => s

end Visitor

/-- Takes a visitor through a whole résumé. -/
def Resume.walk {σ : Type u} (r : Resume) (v : Visitor σ) (s : σ) : σ :=
  r.sections.foldl (fun s part => v.walkSection part s)
    (r.identity.foldl (fun s present => v.walkField present.1 present.2 s) s)

end Vitae
