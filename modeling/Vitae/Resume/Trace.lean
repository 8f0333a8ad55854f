import Vitae.Resume.Walk

/-!
# Traces of a walk

The calls that a walk makes, written down in order.

* `Resume.calls`: every call with the section or entry it was made with.
* `Resume.events`: the same calls with titles only, the shape of the document
  without what stands inside an entry's fields.
* `Visitor.replay`: makes a recorded call on another visitor.
-/

namespace Vitae

universe u

/-- One call of a walk, with its arguments. -/
inductive Call where
  | identity (field : IdentityField) (value : String)
  | enterSection (part : Section)
  | leaveSection (part : Section)
  | enterEntry (entry : Entry)
  | leaveEntry (entry : Entry)
  | item (text : String)
  deriving DecidableEq

/-- One stop of a walk, known by its title. -/
inductive Event where
  | identity (field : IdentityField) (value : String)
  | enterSection (title : String)
  | leaveSection (title : String)
  | enterEntry (title : String)
  | leaveEntry (title : String)
  | item (text : String)
  deriving DecidableEq

/-- The stop at which a call is made. -/
def Call.event : Call → Event
  | .identity field value => .identity field value
  | .enterSection part => .enterSection part.title
  | .leaveSection part => .leaveSection part.title
  | .enterEntry entry => .enterEntry entry.title
  | .leaveEntry entry => .leaveEntry entry.title
  | .item text => .item text

namespace Visitor

/-- Makes a recorded call. -/
def replay {σ : Type u} (v : Visitor σ) : Call → σ → σ
  | .identity field value => v.identity field value
  | .enterSection part => v.enterSection part
  | .leaveSection part => v.leaveSection part
  | .enterEntry entry => v.enterEntry entry
  | .leaveEntry entry => v.leaveEntry entry
  | .item text => v.item text

/-- The visitor that writes down every call. -/
def recorder : Visitor (Array Call) where
  identity field value log := log.push (.identity field value)
  enterSection part log := log.push (.enterSection part)
  leaveSection part log := log.push (.leaveSection part)
  enterEntry entry log := log.push (.enterEntry entry)
  leaveEntry entry log := log.push (.leaveEntry entry)
  item text log := log.push (.item text)

end Visitor

/-- The calls of a walk, in order. -/
def Resume.calls (r : Resume) : List Call := (r.walk Visitor.recorder #[]).toList

/-- The stops of a walk, in order. -/
def Resume.events (r : Resume) : List Event := r.calls.map Call.event

end Vitae
