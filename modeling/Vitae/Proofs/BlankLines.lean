import Vitae.Proofs.Loading
import Vitae.Proofs.Schema.Shift

/-!
# Blank lines before a résumé

A text below some blank lines is loaded as the text itself is. Only the lines that are named are
further down: those in the log, the one of a broken rule and the row of an error in the markup. A text
that begins with a byte order mark or a declaration is another one below blank lines, since both
count at the very beginning only.

* `Fault.message_eq`: what is wrong is worded around the position at which it is wrong.
* `Resume.parse_blankLines`: **blank lines move the lines that are named, and do nothing else.**
-/

namespace Vitae

namespace Markup

/-- The wording of a cause names the position, and shows it nowhere else. -/
theorem Fault.message_eq (fault : Fault) :
    ∃ before after, ∀ pos : Position, fault.message pos = before ++ pos.text ++ after := by
  -- most wordings end in the position
  have hlast : ∀ before, (∀ pos : Position, fault.message pos = before ++ pos.text) →
      ∃ before after, ∀ pos : Position, fault.message pos = before ++ pos.text ++ after := by
    intro before h
    exact ⟨before, "", fun pos => by rw [h, String.append_empty]⟩
  cases fault with
  | dashesInComment => exact ⟨_, _, fun _ => rfl⟩
  | reservedQualifier => exact ⟨_, _, fun _ => rfl⟩
  | reservedUri => exact ⟨_, _, fun _ => rfl⟩
  | duplicateNamespace qualifier => exact ⟨_, _, fun _ => rfl⟩
  | duplicateAttribute localName => exact ⟨_, _, fun _ => rfl⟩
  | sectionEndInText => exact ⟨_, _, fun _ => rfl⟩
  | _ => exact hlast _ fun _ => rfl

/-- The position that an error names, if it names one. -/
def Error.position? : Error → Option Position
  | .located pos _ => some pos
  | _ => none

/-- Two wordings that are the same but for a position, which is some rows further down in the
second, and the same without exception where there is none. -/
def SameBut (n : ℕ) (pos? : Option Position) (message message' : String) : Prop :=
  match pos? with
  | none => message' = message
  | some pos => ∃ before after,
    message = before ++ pos.text ++ after ∧ message' = before ++ (pos.shift n).text ++ after

theorem sameBut_shift (n : ℕ) (e : Error) : SameBut n e.position? e.message (e.shift n).message := by
  cases e with
  | located pos fault =>
    obtain ⟨before, after, h⟩ := fault.message_eq
    exact ⟨before, after, h pos, h (pos.shift n)⟩
  | _ => rfl

end Markup

/-- An error some lines further down, if it has a line. -/
def LoadError.shift (n : ℕ) : LoadError → LoadError
  | .file path fault => .file path fault
  | .markup e => .markup (e.shift n)
  | .schema e => .schema (e.shift n)

namespace Resume

open Markup (Element SameBut blankLines ofString_blankLines sameBut_shift shifted)
open Markup.Reader (Marked)

variable {n : ℕ} {text : String}

theorem after_parse_blankLines (h : ¬ Marked text.toList) (log : Log) :
    (parse (String.ofList (blankLines n) ++ text)).after log =
      (((parse text).after #[]).1.mapError (.shift n), log ++ ((parse text).after #[]).2.map (.shift n)) := by
  rw [after_parse, after_parse, ofString_blankLines h]
  cases Element.ofString text with
  | error e =>
    rw [List.map_toArray, List.map_nil, Array.append_empty]
    rfl
  | ok root =>
    simp only [shifted]
    rw [Schema.readResume_shift]
    cases ((Schema.readResume root).after #[]).1 <;> rfl

/-- **Blank lines before a text move the lines that are named**, and do nothing else: the same
résumé is loaded with the same log, or the same error is found after the same log. In each diagnostic
and in a broken rule it is the line that is that much greater, in what is wrong with the markup it is
the row of the position. -/
theorem parse_blankLines (n : ℕ) (h : ¬ Marked text.toList) :
    (∃ result added, ∀ log,
      (parse text).after log = (result, log ++ added) ∧
      (parse (String.ofList (blankLines n) ++ text)).after log =
        (result.mapError (.shift n), log ++ added.map (.shift n))) ∧
    (∀ e : Schema.Error, (e.shift n).text = e.text ∧ (e.shift n).line? = e.line?.map (· + n)) ∧
    (∀ e : Markup.Error, SameBut n e.position? e.message (e.shift n).message) := by
  refine ⟨⟨_, _, fun log => ⟨(appends_parse text).after_eq log, after_parse_blankLines h log⟩⟩, fun e => ?_,
    sameBut_shift n⟩
  cases e <;> exact ⟨rfl, rfl⟩

/-- A résumé with an element that means nothing and, below it, a section without a title. -/
def noteAndUntitled : String := "<resume>\n<note/>\n<section/></resume>"

/-- Below two blank lines both are named two lines further down. -/
theorem noteAndUntitled_below : ¬ Marked noteAndUntitled.toList ∧
    (parse (String.ofList (blankLines 2) ++ noteAndUntitled)).after #[] =
      (.error (.schema (.broken 5 .untitled)), #[⟨4, "note"⟩]) := by
  have hmarked : ¬ Marked noteAndUntitled.toList := by decide +kernel
  have hread : (parse noteAndUntitled).after #[] =
      (.error (.schema (.broken 3 .untitled)), #[⟨2, "note"⟩]) := by decide +kernel
  obtain ⟨⟨result, added, h⟩, -, -⟩ := parse_blankLines 2 hmarked
  obtain ⟨htext, hbelow⟩ := h #[]
  rw [hread, Array.empty_append] at htext
  obtain ⟨rfl, rfl⟩ := Prod.mk.inj htext
  rw [Array.empty_append, List.map_toArray] at hbelow
  exact ⟨hmarked, hbelow⟩

end Resume

end Vitae
