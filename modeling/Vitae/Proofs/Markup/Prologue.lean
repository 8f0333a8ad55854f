import Mathlib.Data.Nat.Notation
import Vitae.Markup.Document

/-!
# The parts of a document

What stands before the root element of a document, and the root element with what stands after it,
as readers of their own.

* `document_eq`: **a document is its prologue and what comes after it.**
* `tracks_prologue`: a prologue that is read leaves the cursor moved on.
-/

namespace Vitae.Markup.Reader

variable {α : Type}

/-! ## Declarations -/

def declarationEnd : Reader Unit := do
  let _ ← spaces
  demand "?>"

/-- A declaration from the place of its third part on. -/
def fromStandalone : Reader Unit := do
  if ← standsAt "standalone" then declarationPart
  declarationEnd

/-- A declaration from the place of its second part on. -/
def fromEncoding : Reader Unit := do
  if ← standsAt "encoding" then
    declarationPart
    declarationSpaces
  fromStandalone

/-- A declaration from its first part on. -/
def fromVersion : Reader Unit := do
  declarationPart
  declarationSpaces
  fromEncoding

theorem declaration_eq : declaration = (do
    declarationSpaces
    if !(← standsAt "version") then fail (.expectedWord "version")
    fromVersion) := rfl

theorem tracks_declarationSpaces : Tracks declarationSpaces :=
  tracks_spaces.bind fun b => by
    cases b
    · refine (tracks_standsAt _).bind fun b => ?_
      cases b
      · refine tracks_peek.bind fun x => ?_
        cases x with
        | none => exact tracks_pure _
        | some found => exact moves_fail _
      · exact tracks_pure _
    · exact tracks_pure _

theorem tracks_declarationPart : Tracks declarationPart :=
  tracks_qname.bind fun _ => tracks_equalsQuote.bind fun _ => (tracks_legalWhile _).bind fun _ =>
    (advances_consume _).tracks

theorem tracks_declarationEnd : Tracks declarationEnd :=
  tracks_spaces.bind fun _ => tracks_demand (by decide)

theorem tracks_fromStandalone : Tracks fromStandalone :=
  (tracks_standsAt _).bind fun b => by
    cases b
    · exact tracks_declarationEnd
    · exact tracks_declarationPart.bind fun _ => tracks_declarationEnd

theorem tracks_fromEncoding : Tracks fromEncoding :=
  (tracks_standsAt _).bind fun b => by
    cases b
    · exact tracks_fromStandalone
    · exact tracks_declarationPart.bind fun _ => tracks_declarationSpaces.bind fun _ => tracks_fromStandalone

theorem tracks_fromVersion : Tracks fromVersion :=
  tracks_declarationPart.bind fun _ => tracks_declarationSpaces.bind fun _ => tracks_fromEncoding

theorem tracks_declaration : Tracks declaration := by
  rw [declaration_eq]
  refine tracks_declarationSpaces.bind fun _ => (tracks_standsAt _).bind fun b => ?_
  cases b
  · exact Tracks.bind (moves_fail _) fun _ => tracks_fromVersion
  · exact tracks_fromVersion

/-! ## Documents -/

/-- What stands before a root element, from after the declaration on. -/
def beforeRoot : Reader Unit := do
  around
  if ← standsAt "<!DOCTYPE" then throw .documentType

/-- What stands before a root element. -/
def prologue : Reader Unit := do
  let _ ← accept "\uFEFF"
  if ← standsAt "<?xml " then
    let _ ← accept "<?xml"
    declaration
  beforeRoot

/-- The root element that was found, which has to be there and to be closed. -/
def foundRoot : Option RootEnd → Reader Element
  | none => throw .noRoot
  | some .unclosed => throw .unclosedRoot
  | some (.closed element) => return element

/-- A root element and what stands after it. -/
def rootAndAfter : Reader Element := do
  let found ← root
  around
  if !(← atEnd) then fail .unknownToken
  foundRoot found

/-- **A document is its prologue and what comes after it.** -/
theorem document_eq : document = prologue >>= fun _ => rootAndAfter := by
  have hdoctype : ∀ b : Bool,
      (if b = true then (throw .documentType >>= fun _ : Unit => rootAndAfter) else rootAndAfter) =
        ((if b = true then throw .documentType else pure ()) >>= fun _ => rootAndAfter) := by
    intro b
    cases b <;> rfl
  have hbefore : (around >>= fun _ => standsAt "<!DOCTYPE" >>= fun b =>
      if b = true then (throw .documentType >>= fun _ : Unit => rootAndAfter) else rootAndAfter) =
        beforeRoot >>= fun _ => rootAndAfter := by
    unfold beforeRoot
    simp only [bind_assoc]
    exact congrArg _ (funext fun _ => congrArg _ (funext hdoctype))
  have hdeclaration : ∀ b : Bool,
      (if b = true then (accept "<?xml" >>= fun _ => declaration >>= fun _ => beforeRoot >>= fun _ => rootAndAfter)
        else beforeRoot >>= fun _ => rootAndAfter) =
      ((if b = true then (accept "<?xml" >>= fun _ => declaration >>= fun _ => beforeRoot) else beforeRoot) >>=
        fun _ => rootAndAfter) := by
    intro b
    cases b
    · rfl
    · simp only [if_true, bind_assoc]
  unfold prologue
  simp only [bind_assoc]
  rw [← funext hdeclaration, ← hbefore]
  rfl

theorem tracks_around : Tracks around := tracks_repeatUntil _ _

theorem tracks_beforeRoot : Tracks beforeRoot :=
  tracks_around.bind fun _ => (tracks_standsAt _).bind fun b => by
    cases b
    · exact tracks_pure _
    · exact moves_throw _

theorem tracks_prologue : Tracks prologue :=
  (moves_accept (by decide)).tracks.bind fun _ => (tracks_standsAt _).bind fun b => by
    cases b
    · exact tracks_beforeRoot
    · exact (moves_accept (by decide)).tracks.bind fun _ => tracks_declaration.bind fun _ => tracks_beforeRoot

end Vitae.Markup.Reader
