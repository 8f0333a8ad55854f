import Vitae.Markup.Tree
import Vitae.Schema.Error
import Vitae.Schema.Kind

/-!
# Reading résumés from element trees

Each level reads the element children of one element in document order. The first
broken rule ends the reading; an element that means nothing at its level goes to the
log and is passed over with all it holds.

* `readResume`, `readSection`, `readEntry`: these levels log.
* `readList`: a list logs nothing, for all it may hold is items.
-/

namespace Vitae.Schema

open Markup (Element)

/-- The error of an element that breaks a rule. -/
def broken (e : Element) (rule : Violation) : Error := .broken e.line rule

/-- Logs an element that means nothing where it stands. -/
def reportElement (e : Element) : Logged Error Unit := report ⟨e.line, e.name⟩

/-- The title that an element has to have. -/
def readTitle (e : Element) : Except Error String :=
  match e.attribute? titleName with
  | some title => .ok title
  | none => .error (broken e .untitled)

/-- Reads a child of a list. An item without text is an empty one. -/
def readItem (e : Element) : Except Error String :=
  match ListKind.ofName e.name with
  | .other => .error (broken e .strangerInList)
  | .item => if e.children.isEmpty then .ok (e.text?.getD "") else .error (broken e .elementInItem)

/-- Reads a list. -/
def readList (e : Element) : Except Error (List String) := e.children.mapM readItem

/-- Reads a child of an entry into the entry. Of repeated fields the last counts. -/
def readEntryChild (entry : Entry) (e : Element) : Logged Error Entry := do
  match EntryKind.ofName e.name with
  | .field f => return entry.setField e.text? f
  | .list =>
    if entry.items.isSome then throw (broken e .secondList)
    return { entry with items := some (← MonadExcept.ofExcept (readList e)) }
  | .unrecognized =>
    reportElement e
    return entry

/-- Reads an entry. -/
def readEntry (e : Element) : Logged Error Entry := do
  let title ← MonadExcept.ofExcept (readTitle e)
  e.children.foldlM readEntryChild { title }

/-- Reads a child of a section in which a list may not stand. -/
def readSectionChild (e : Element) : Logged Error (Option Entry) := do
  match SectionKind.ofName e.name with
  | .list => throw (broken e .listNotAlone)
  | .entry => return some (← readEntry e)
  | .unrecognized =>
    reportElement e
    return none

/-- Reads the children of a section: one list, or a run of entries. -/
def readBody (children : List Element) : Logged Error SectionBody := do
  -- a list has to be the only child, so it is looked for only where there is one
  match children with
  | [e] =>
    if SectionKind.ofName e.name = .list then
      return .list (← MonadExcept.ofExcept (readList e))
    else return .entries (← readSectionChild e).toList
  | children => return .entries ((← children.mapM readSectionChild).filterMap id)

/-- Reads a section. -/
def readSection (e : Element) : Logged Error Section := do
  let title ← MonadExcept.ofExcept (readTitle e)
  return { title, body := ← readBody e.children }

/-- Reads a child of the root into the résumé. Of repeated fields the last counts. -/
def readRootChild (resume : Resume) (e : Element) : Logged Error Resume := do
  match RootKind.ofName e.name with
  | .identity f => return resume.setField e.text? f
  | .part => return { resume with sections := resume.sections ++ [← readSection e] }
  | .unrecognized =>
    reportElement e
    return resume

/-- Reads a résumé from its root element. -/
def readResume (root : Element) : Logged Error Resume := do
  if root.name = rootName then root.children.foldlM readRootChild {} else throw .wrongRoot

end Vitae.Schema
