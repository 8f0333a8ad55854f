import Vitae.Program
import Vitae.Proofs.Lines

/-!
# Reading reports back

What is reported of a log says all of it: how many diagnostics there are, in which order, on which
lines and of which tags. A tag may hold anything but a line feed, brackets and colons too.

* `Diagnostic.ofLine?_eq_some`: **a line words one diagnostic at most.**
* `Program.warnings`, `Program.reportLog_eq`: the wording of a report.
* `Program.readLog_append`: a log is read off its report, whatever is reported after it.
* `Program.reportLog_readBack`: **a log is read off its report**, so logs with the same report are the
  same; and what a run logs is read off its standard error.
-/

namespace Vitae

open Markup (isNameChar)

/-! ## Diagnostics -/

namespace Diagnostic

variable {d : Diagnostic} {line : List Char}

/-- What a diagnostic says before the number of its line. -/
def preamble : String := "XML error at line "

/-- What a diagnostic says between the number of its line and its tag. -/
def finding : String := ": Unrecognized element <"

theorem message_eq (d : Diagnostic) : d.message = preamble ++ d.line.repr ++ (finding ++ d.tag ++ ">") := by
  have hfinding : finding = ": " ++ "Unrecognized element <" := by decide
  unfold message noteLine
  simp only
  rw [hfinding, preamble, Nat.toString_eq_repr]
  simp only [String.append_assoc]

theorem toList_message (d : Diagnostic) : d.message.toList =
    preamble.toList ++ (Nat.toDigits 10 d.line ++ (finding.toList ++ (d.tag.toList ++ ['>']))) := by
  have hbracket : ">".toList = ['>'] := rfl
  rw [message_eq]
  simp only [String.toList_append, Nat.toList_repr, hbracket, List.append_assoc]

/-- The diagnostic that a line words, if it words one. There is one candidate: its number ends at the
first character that is no digit, and its tag at the last bracket. -/
def ofLine? (line : List Char) : Option Diagnostic :=
  let numbered := line.drop preamble.toList.length
  let worded := numbered.dropWhile Char.isDigit
  let d : Diagnostic :=
    ⟨Nat.ofDigitChars 10 (numbered.takeWhile Char.isDigit) 0,
      String.ofList (worded.drop finding.toList.length).dropLast⟩
  if d.message.toList = line then some d else none

theorem isDigit_of_mem_toDigits {n : ℕ} {c : Char} (h : c ∈ Nat.toDigits 10 n) : c.isDigit :=
  Nat.isDigit_of_mem_toDigits (by decide) (by decide) h

theorem ofLine?_message (d : Diagnostic) : ofLine? d.message.toList = some d := by
  have hnumbered : d.message.toList.drop preamble.toList.length =
      Nat.toDigits 10 d.line ++ (finding.toList ++ (d.tag.toList ++ ['>'])) := by
    rw [toList_message, List.drop_left]
  -- the number ends by itself, for a colon comes after it
  have hcolon : (finding.toList ++ (d.tag.toList ++ ['>'])).head? = some ':' := by
    have hfinding : finding.toList.head? = some ':' := by decide
    rw [List.head?_append, hfinding, Option.some_or]
  have hdigits : ∀ c ∈ Nat.toDigits 10 d.line, c.isDigit := fun c hc => isDigit_of_mem_toDigits hc
  unfold ofLine?
  simp only
  rw [hnumbered, Text.takeWhile_word hdigits hcolon rfl, Text.dropWhile_word hdigits hcolon rfl,
    Nat.ofDigitChars_ten_toDigits, List.drop_left, List.dropLast_concat, String.ofList_toList, if_pos rfl]

/-- **A line words one diagnostic at most**, and each diagnostic is worded by its message alone. -/
theorem ofLine?_eq_some : ofLine? line = some d ↔ line = d.message.toList := by
  constructor
  · intro h
    unfold ofLine? at h
    simp only at h
    split at h
    · rename_i hline
      rw [← hline, Option.some.inj h]
    · cases h
  · rintro rfl
    exact ofLine?_message d

theorem head?_message (d : Diagnostic) : d.message.toList.head? = some 'X' := by
  have hpreamble : preamble.toList.head? = some 'X' := by decide
  rw [toList_message, List.head?_append, hpreamble, Option.some_or]

/-- A message is one line if its tag is. -/
theorem newline_not_mem_message (h : '\n' ∉ d.tag.toList) : '\n' ∉ d.message.toList := by
  have hpreamble : '\n' ∉ preamble.toList := by decide
  have hdigits : '\n' ∉ Nat.toDigits 10 d.line := fun hmem => absurd (isDigit_of_mem_toDigits hmem) (by decide)
  have hfinding : '\n' ∉ finding.toList := by decide
  have hbracket : '\n' ∉ ['>'] := by decide
  rw [toList_message]
  simp only [List.mem_append, not_or]
  exact ⟨hpreamble, hdigits, hfinding, h, hbracket⟩

end Diagnostic

/-! ## Names in logs -/

namespace Resume

/-- **The tags that are logged are names**, so they are on one line. -/
theorem parse_tags (text : String) :
    ∀ d ∈ ((parse text).after #[]).2, ∀ c ∈ d.tag.toList, isNameChar c := by
  rw [after_parse]
  cases hroot : Markup.Element.ofString text with
  | error e => exact fun d hd => absurd hd (Array.not_mem_empty d)
  | ok root =>
    obtain ⟨added, hlog, hnames, -⟩ := readResume_lines hroot #[]
    intro d hd
    simp only at hd
    rw [hlog, Array.empty_append, List.mem_toArray] at hd
    exact (hnames d hd).name_chars

theorem newline_not_mem_tag (path : String) (text : Except FileFault String) :
    ∀ d ∈ ((ofRead path text).after #[]).2, '\n' ∉ d.tag.toList := by
  rw [after_ofRead]
  cases text with
  | error fault => exact fun d hd => absurd hd (Array.not_mem_empty d)
  | ok text =>
    intro d hd hmem
    have hname : isNameChar '\n' := parse_tags text d hd '\n' hmem
    exact absurd hname (by decide)

end Resume

/-! ## Reports -/

namespace Program

variable {log log' : Log}

/-- The wording of a report: a line per diagnostic. -/
def warnings (log : Log) : String := String.join (log.toList.map fun d =>
  "XML error at line " ++ toString d.line ++ ": Unrecognized element <" ++ d.tag ++ ">\n")

theorem reportLog_eq (log : Log) : reportLog log = warnings log := by
  have hend : ">\n" = ">" ++ "\n" := by decide
  unfold reportLog warnings Text.unlines
  rw [List.map_map, hend]
  refine congrArg String.join (List.map_congr_left fun d _ => ?_)
  show d.message ++ "\n" = _
  rw [Diagnostic.message_eq, Diagnostic.preamble, Diagnostic.finding, Nat.toString_eq_repr]
  simp only [String.append_assoc]

/-- The diagnostics that some lines begin with, a line each. -/
def leading : List (List Char) → List Diagnostic
  | [] => []
  | line :: lines =>
    match Diagnostic.ofLine? line with
    | some d => d :: leading lines
    | none => []

/-- The log that a report begins with. -/
def readLog (report : String) : Log := (leading (Text.cut '\n' report.toList)).toArray

theorem leading_append (ds : List Diagnostic) (lines : List (List Char)) :
    leading (ds.map (·.message.toList) ++ lines) = ds ++ leading lines := by
  induction ds with
  | nil => rfl
  | cons d ds ih =>
    rw [List.map_cons, List.cons_append, leading, Diagnostic.ofLine?_message]
    simp only
    rw [ih, List.cons_append]

/-- **A log is read off its report**, and what is reported after it is read on its own. -/
theorem readLog_append (h : ∀ d ∈ log, '\n' ∉ d.tag.toList) (rest : String) :
    readLog (reportLog log ++ rest) = log ++ readLog rest := by
  have hlines : ∀ line ∈ log.toList.map Diagnostic.message, '\n' ∉ line.toList := by
    intro line hline
    obtain ⟨d, hd, rfl⟩ := List.mem_map.1 hline
    exact Diagnostic.newline_not_mem_message (h d (Array.mem_toList_iff.1 hd))
  unfold readLog reportLog
  rw [String.toList_append, Text.cut_unlines hlines, List.map_map]
  show (leading (log.toList.map (·.message.toList) ++ _)).toArray = _
  rw [leading_append, ← List.append_toArray]

/-- A report that begins as no diagnostic does holds none. -/
theorem readLog_of_head {report : String} (h : report.toList.head? ≠ some 'X') : readLog report = #[] := by
  have hfirst : (Text.cutParts '\n' report.toList).1.head? ≠ some 'X' := by
    cases htext : report.toList with
    | nil =>
      intro hhead
      cases hhead
    | cons c text =>
      rw [htext] at h
      rw [Text.cutParts_cons, Text.cutBefore]
      split
      · intro hhead
        cases hhead
      · exact h
  have hnone : Diagnostic.ofLine? (Text.cutParts '\n' report.toList).1 = none := by
    rw [Option.eq_none_iff_forall_ne_some]
    intro d hd
    rw [Diagnostic.ofLine?_eq_some.1 hd] at hfirst
    exact hfirst d.head?_message
  unfold readLog Text.cut
  rw [leading, hnone]

theorem readLog_reportLog (h : ∀ d ∈ log, '\n' ∉ d.tag.toList) : readLog (reportLog log) = log := by
  have hempty : readLog "" = #[] := readLog_of_head (by decide)
  have hread := readLog_append h ""
  rw [String.append_empty, hempty, Array.append_empty] at hread
  exact hread

theorem readLog_failureReport (headline : String) (causes : List String) :
    readLog (failureReport headline causes) = #[] := by
  have herror : "Error: ".toList.head? = some 'E' := by decide
  refine readLog_of_head ?_
  unfold failureReport
  rw [Text.unlines_cons, String.toList_append, String.toList_append, String.toList_append]
  rw [List.head?_append, List.head?_append, List.head?_append, herror, Option.some_or, Option.some_or, Option.some_or]
  decide

/-- What a run logs is read off its standard error, whether it succeeds or fails: it comes after what
is amiss with the log filter, and no report of a failure is taken for a diagnostic. -/
theorem readLog_finish (config : Config) (text : Except FileFault String) :
    ∃ report, (finish config text).stderr = reportFilter config.logFilter ++ report ∧
      readLog report = ((Resume.ofRead config.input text).after #[]).2 := by
  have htags := Resume.newline_not_mem_tag config.input text
  unfold finish
  rcases hread : (Resume.ofRead config.input text).after #[] with ⟨_ | r, log⟩
  · rw [hread] at htags
    refine ⟨reportLog log ++ _, String.append_assoc, ?_⟩
    rw [readLog_append htags, readLog_failureReport, Array.append_empty]
  · rw [hread] at htags
    exact ⟨reportLog log, rfl, readLog_reportLog htags⟩

/-- **Warnings can be read back.** A log is reported as a line per diagnostic, with its line and its tag. If
no tag holds a line feed, the log is read off its report, and two logs whose reports are the same bytes are
the same: in number, order, lines and tags. The tags that a run logs hold none, so its log is read off its
standard error, after what is amiss with the log filter and whether or not the run fails. -/
theorem reportLog_readBack (hlog : ∀ d ∈ log, '\n' ∉ d.tag.toList) (hlog' : ∀ d ∈ log', '\n' ∉ d.tag.toList) :
    reportLog log = String.join (log.toList.map fun d =>
      "XML error at line " ++ toString d.line ++ ": Unrecognized element <" ++ d.tag ++ ">\n") ∧
    readLog (reportLog log) = log ∧ ((reportLog log).toUTF8 = (reportLog log').toUTF8 ↔ log = log') ∧
    ∀ (config : Config) (text : Except FileFault String), ∃ report,
      (finish config text).stderr = reportFilter config.logFilter ++ report ∧
        readLog report = ((Resume.ofRead config.input text).after #[]).2 := by
  refine ⟨reportLog_eq log, readLog_reportLog hlog, ⟨?_, ?_⟩, readLog_finish⟩
  · intro hbytes
    have hreport : reportLog log = reportLog log' := String.toByteArray_inj.1 hbytes
    calc log = readLog (reportLog log) := (readLog_reportLog hlog).symm
      _ = readLog (reportLog log') := by rw [hreport]
      _ = log' := readLog_reportLog hlog'
  · rintro rfl
    rfl

/-- A log with a tag that holds what stands around tags. -/
def bracketedTag : Log := #[⟨1, "a>: Unrecognized element <b"⟩, ⟨12, "c"⟩]

/-- It is read back with that tag, which is not taken for two. -/
theorem bracketedTag_readBack : readLog (reportLog bracketedTag) = bracketedTag ∧
    (reportLog bracketedTag).toUTF8 ≠ (reportLog #[⟨1, "a"⟩, ⟨1, "b"⟩, ⟨12, "c"⟩]).toUTF8 := by
  have hlog : ∀ d ∈ bracketedTag, '\n' ∉ d.tag.toList := by decide
  have hlog' : ∀ d ∈ (#[⟨1, "a"⟩, ⟨1, "b"⟩, ⟨12, "c"⟩] : Log), '\n' ∉ d.tag.toList := by decide
  obtain ⟨-, hread, hbytes, -⟩ := reportLog_readBack hlog hlog'
  exact ⟨hread, fun h => absurd (hbytes.1 h) (by decide)⟩

/-- With a line feed in a tag, one diagnostic can be worded as two are. -/
example : reportLog #[⟨1, "a>\nXML error at line 2: Unrecognized element <b"⟩] = reportLog #[⟨1, "a"⟩, ⟨2, "b"⟩] := by
  decide +kernel

end Program

end Vitae
