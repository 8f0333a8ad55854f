import Mathlib.Data.List.DropRight
import Vitae.Proofs.Config.Dotenv
import Vitae.Proofs.Program

/-!
# Where a configuration comes from

Every variable has its value from one place: the environment, the file of variables, or neither, and
then a default stands for it. An argument comes before all of them, for the path alone.

* `Names`: the words that name a notation.
* `Takes`: what a variable stands for, and where that comes from.
* `Config.load_takes`: **a configuration is made of what its variables take**, and is refused only for
  a word that names no notation.
-/

namespace Vitae

open Text (isBlank trim trimEnd)

/-! ## Words that name a notation -/

/-- What is left of a text when the blanks are taken off both of its ends. -/
structure Stripped (text core : List Char) : Prop where
  within : ∃ before after, text = before ++ core ++ after ∧ ∀ c ∈ before ++ after, isBlank c
  first : ∀ c, core.head? = some c → ¬ isBlank c
  last : ∀ c, core.getLast? = some c → ¬ isBlank c

/-- The words for a notation. -/
def Format.words : Format → List String
  | .text => ["text", "txt"]
  | .json => ["json"]

/-- A text that is a word for a notation but for blanks at its ends and the case of ASCII letters. -/
def Names (raw : String) (f : Format) : Prop :=
  ∃ core, Stripped raw.toList core ∧ String.ofList (core.map Char.toLower) ∈ f.words

variable {text core : List Char} {raw : String} {f : Format}

theorem trimEnd_eq_rdropWhile (text : List Char) : trimEnd text = text.rdropWhile isBlank := rfl

theorem dropWhile_of_head? (h : ∀ c, core.head? = some c → ¬ isBlank c) : core.dropWhile isBlank = core := by
  cases core with
  | nil => rfl
  | cons c core => exact List.dropWhile_cons_of_neg (h c rfl)

theorem stripped_trim (text : List Char) : Stripped text (trim text) where
  within := by
    refine ⟨text.takeWhile isBlank, (text.dropWhile isBlank).rtakeWhile isBlank, ?_, ?_⟩
    · rw [trim, trimEnd_eq_rdropWhile, List.append_assoc, List.rdropWhile_append_rtakeWhile,
        List.takeWhile_append_dropWhile]
    · intro c hc
      rcases List.mem_append.1 hc with hc | hc
      · exact List.mem_takeWhile_imp hc
      · exact List.mem_rtakeWhile_imp hc
  first := by
    intro c hc
    -- the end that is taken off leaves the first character where it is
    obtain ⟨rest, hrest⟩ := List.rdropWhile_prefix isBlank (text.dropWhile isBlank)
    have hhead : (text.dropWhile isBlank).head? = some c := by
      rw [← hrest, ← trimEnd_eq_rdropWhile, ← trim, List.head?_append, hc]
      rfl
    have hblank := List.head?_dropWhile_not isBlank text
    rw [hhead] at hblank
    exact Bool.not_eq_true _ ▸ hblank
  last := by
    intro c hc
    have hne : trim text ≠ [] := by
      intro hnil
      rw [hnil] at hc
      cases hc
    rw [List.getLast?_eq_some_getLast hne] at hc
    exact Option.some.inj hc ▸ List.rdropWhile_last_not isBlank (text.dropWhile isBlank) hne

/-- **Blanks can be taken off both ends in one way.** -/
theorem stripped_iff : Stripped text core ↔ core = trim text := by
  refine ⟨fun h => ?_, fun h => h ▸ stripped_trim text⟩
  obtain ⟨⟨before, after, rfl, hblank⟩, hfirst, hlast⟩ := h
  rw [List.forall_mem_append] at hblank
  rw [trim, List.append_assoc, List.dropWhile_append_of_pos hblank.1]
  cases hcore : core with
  | nil =>
    have hafter : after.dropWhile isBlank = [] := List.dropWhile_eq_nil_iff.2 hblank.2
    rw [List.nil_append, hafter]
    rfl
  | cons c rest =>
    have hhead : (core ++ after).dropWhile isBlank = core ++ after := by
      refine dropWhile_of_head? fun d hd => hfirst d ?_
      rw [hcore] at hd ⊢
      exact hd
    have hreversed : core.reverse.dropWhile isBlank = core.reverse := by
      refine dropWhile_of_head? fun d hd => hlast d ?_
      rwa [List.head?_reverse] at hd
    rw [← hcore, hhead, trimEnd, List.reverse_append, List.dropWhile_append_of_pos, hreversed, List.reverse_reverse]
    exact fun d hd => hblank.2 d (List.mem_reverse.1 hd)

theorem names_iff : Names raw f ↔ String.ofList ((trim raw.toList).map Char.toLower) ∈ f.words := by
  unfold Names
  simp only [stripped_iff, exists_eq_left]

/-- **A text is read as the notation that it names.** -/
theorem Format.ofString_eq_ok : Format.ofString raw = .ok f ↔ Names raw f := by
  rw [names_iff]
  unfold Format.ofString Format.words
  generalize String.ofList ((trim raw.toList).map Char.toLower) = word
  split <;> cases f <;> simp_all

theorem Format.eq_of_ofString_eq_error {e : UnknownFormat} (h : Format.ofString raw = .error e) : e = ⟨raw⟩ := by
  unfold Format.ofString at h
  split at h <;> cases h
  rfl

/-- **A text that names no notation is refused as it is.** -/
theorem Format.ofString_eq_error {e : UnknownFormat} :
    Format.ofString raw = .error e ↔ (∀ f, ¬ Names raw f) ∧ e = ⟨raw⟩ := by
  constructor
  · intro h
    refine ⟨fun f hf => ?_, Format.eq_of_ofString_eq_error h⟩
    rw [Format.ofString_eq_ok.2 hf] at h
    cases h
  · rintro ⟨hnames, rfl⟩
    cases h : Format.ofString raw with
    | ok f => exact absurd (Format.ofString_eq_ok.1 h) (hnames f)
    | error e => rw [Format.eq_of_ofString_eq_error h]

/-! ## Where a variable has its value from -/

open Dotenv (Closed FirstAssigned readings statements statements_lines uncommented unmarked assignments
  lookup_assignments assignments_append)

/-- What a variable stands for: what the environment says, be it nothing but empty; what the file of
variables says that stands in for it; or nothing. -/
inductive Takes (environment : Variables) (dotenv : Option String) (name : String) : Option String → Prop
  | environment {value : String} : environment.lookup name = some value →
      Takes environment dotenv name (some value)
  | file {text value : String} : environment.lookup name = none → dotenv = some text →
      FirstAssigned name value (readings environment (statements (unmarked text))) →
      Takes environment dotenv name (some value)
  | neither : environment.lookup name = none →
      (∀ text value, dotenv = some text →
        ¬ FirstAssigned name value (readings environment (statements (unmarked text)))) →
      Takes environment dotenv name none

namespace Config

variable {environment : Variables} {dotenv argument : Option String} {name : String} {value : Option String}

theorem lookup_effective (environment : Variables) (dotenv : Option String) (name : String) :
    (effective environment dotenv).lookup name =
      (environment.lookup name).or (dotenv.bind fun text => (assignments environment text).lookup name) := by
  unfold effective
  rw [List.lookup_append]
  cases dotenv <;> rfl

/-- **A variable stands for one value or for none.** -/
theorem takes_iff : Takes environment dotenv name value ↔ (effective environment dotenv).lookup name = value := by
  rw [lookup_effective]
  constructor
  · intro h
    cases h with
    | environment h => rw [h]; rfl
    | file hnone hdotenv h => rw [hnone, hdotenv]; exact (lookup_assignments _ _ _ _).2 h
    | neither hnone h =>
      rw [hnone, Option.none_or]
      cases dotenv with
      | none => rfl
      | some text =>
        refine Option.eq_none_iff_forall_ne_some.2 fun value hvalue => h text value rfl ?_
        exact (lookup_assignments _ _ _ _).1 hvalue
  · rintro rfl
    cases henvironment : environment.lookup name with
    | some value => exact .environment henvironment
    | none =>
      rw [Option.none_or]
      cases hfile : dotenv.bind fun text => (assignments environment text).lookup name with
      | some value =>
        obtain ⟨text, hdotenv, hvalue⟩ := Option.bind_eq_some_iff.1 hfile
        exact .file henvironment hdotenv ((lookup_assignments _ _ _ _).1 hvalue)
      | none =>
        refine .neither henvironment fun text value hdotenv hfirst => ?_
        rw [hdotenv, Option.bind_some, (lookup_assignments _ _ _ _).2 hfirst] at hfile
        cases hfile

/-- What follows the last line of a file changes no variable that has a value. -/
theorem takes_append {body value : String} (h : Takes environment (some (body ++ "\n")) name (some value))
    (more : String) : Takes environment (some (body ++ "\n" ++ more)) name (some value) := by
  rw [takes_iff] at h ⊢
  obtain ⟨rest, hrest⟩ := assignments_append environment body more
  have heffective : effective environment (some (body ++ "\n" ++ more)) =
      effective environment (some (body ++ "\n")) ++ rest := by
    unfold effective
    rw [List.append_assoc, Option.map_some, Option.map_some, Option.getD_some, Option.getD_some, hrest]
  rw [heffective, List.lookup_append, h]
  rfl

/-! ## Configurations -/

/-- The notation that is asked for is the one that a word names, or text without a word. -/
theorem formatOf_eq_ok {vars : Variables} {f : Format} : Program.formatOf vars = .ok f ↔
    vars.lookup "RESUME_FORMAT" = none ∧ f = .text ∨
      ∃ raw, vars.lookup "RESUME_FORMAT" = some raw ∧ Names raw f := by
  unfold Program.formatOf
  cases vars.lookup "RESUME_FORMAT" with
  | none => simp [eq_comm]
  | some raw => simp [Format.ofString_eq_ok]

theorem formatOf_eq_error {vars : Variables} {e : UnknownFormat} : Program.formatOf vars = .error e ↔
    ∃ raw, vars.lookup "RESUME_FORMAT" = some raw ∧ (∀ f, ¬ Names raw f) ∧ e = ⟨raw⟩ := by
  unfold Program.formatOf
  cases vars.lookup "RESUME_FORMAT" with
  | none => simp
  | some raw => simp [Format.ofString_eq_error]

theorem load_eq_error {e : ConfigError} : load environment dotenv argument = .error e ↔
    Program.formatOf (effective environment dotenv) = .error e.format := by
  rw [Program.load_eq_map, Program.ofVariables_eq]
  obtain ⟨e⟩ := e
  cases Program.formatOf (effective environment dotenv) with
  | error e' => simp [Except.map]
  | ok f => simp [Except.map]

theorem load_eq_ok {config : Config} : load environment dotenv argument = .ok config ↔
    config.input = argument.getD (((effective environment dotenv).lookup "RESUME_FILE").getD "resume.xml") ∧
      Program.formatOf (effective environment dotenv) = .ok config.format ∧
      config.logFilter = ((effective environment dotenv).lookup "RUST_LOG").getD "warn" := by
  rw [Program.load_eq_map, Program.ofVariables_eq]
  obtain ⟨input, format, logFilter⟩ := config
  cases Program.formatOf (effective environment dotenv) with
  | error e => simp [Except.map]
  | ok f => simp [Except.map, withInput, Program.logFilterOf, eq_comm]

/-- **Where a configuration comes from.** Each variable takes one value or none: what the environment
says, else what the first statement of the file says that assigns it, if none before it is malformed;
statements are lines without their comments, where no line leaves a quote open. The configuration is
made of what three of the variables take, with defaults for what they do not, and with the argument for
the path if there is one. It is refused exactly if the notation asked for is set to a text that names
none, and then as it is. Lines that are added to a file of whole lines change no variable that has a
value. -/
theorem load_takes (environment : Variables) (dotenv argument : Option String) :
    (∀ name, ∃! value, Takes environment dotenv name value) ∧
    (∀ lines : List (List Char), (∀ line ∈ lines, '\n' ∉ line ∧ Closed line) →
      statements (lines.flatMap (· ++ ['\n'])) = lines.map (uncommented .start) ++ [[]]) ∧
    (∀ file format filter, Takes environment dotenv "RESUME_FILE" file →
      Takes environment dotenv "RESUME_FORMAT" format → Takes environment dotenv "RUST_LOG" filter →
      (∀ e, load environment dotenv argument = .error e ↔
        ∃ raw, format = some raw ∧ (∀ f, ¬ Names raw f) ∧ e = ⟨⟨raw⟩⟩) ∧
      ∀ config, load environment dotenv argument = .ok config ↔
        config.input = argument.getD (file.getD "resume.xml") ∧
          (format = none ∧ config.format = .text ∨ ∃ raw, format = some raw ∧ Names raw config.format) ∧
          config.logFilter = filter.getD "warn") ∧
    ∀ body more name value, Takes environment (some (body ++ "\n")) name (some value) →
      Takes environment (some (body ++ "\n" ++ more)) name (some value) := by
  have hunique : ∀ name, ∃! value, Takes environment dotenv name value := fun name =>
    ⟨_, takes_iff.2 rfl, fun value h => (takes_iff.1 h).symm⟩
  refine ⟨hunique, ?_, ?_, fun _ more _ _ h => takes_append h more⟩
  · intro lines hlines
    have hstatements := statements_lines hlines []
    rw [List.append_nil] at hstatements
    exact hstatements
  · intro file format filter hfile hformat hfilter
    rw [takes_iff] at hfile hformat hfilter
    refine ⟨fun e => ?_, fun config => ?_⟩
    · obtain ⟨e⟩ := e
      rw [load_eq_error, formatOf_eq_error, hformat]
      simp only [ConfigError.mk.injEq]
    · rw [load_eq_ok, formatOf_eq_ok, hfile, hformat, hfilter]

/-! ### A file with a variable that is set, one that is assigned twice and a line that cannot be read -/

/-- The lines of a file of variables, without the end of the last. -/
def mixedLines : String :=
  "# notes\nexport RESUME_FORMAT = ' JSON ' # padded\nRUST_LOG=debug\nRESUME_FORMAT=text\nno sign\nRESUME_FILE=late.xml"

/-- An environment that has one of the variables, with nothing in it. -/
def quietEnvironment : Variables := [("RUST_LOG", "")]

/-- The environment is not overridden, the first of two lines counts, the path after the line that
cannot be read does not, and another line changes nothing. -/
theorem mixedLines_load :
    load quietEnvironment (some (mixedLines ++ "\n")) none = .ok ⟨"resume.xml", .json, ""⟩ ∧
      Takes quietEnvironment (some (mixedLines ++ "\n" ++ "RESUME_FORMAT=yaml\n")) "RESUME_FORMAT" (some " JSON ") := by
  obtain ⟨-, -, hload, happend⟩ := load_takes quietEnvironment (some (mixedLines ++ "\n")) none
  have hfile : Takes quietEnvironment (some (mixedLines ++ "\n")) "RESUME_FILE" none :=
    takes_iff.2 (by decide +kernel)
  have hformat : Takes quietEnvironment (some (mixedLines ++ "\n")) "RESUME_FORMAT" (some " JSON ") :=
    takes_iff.2 (by decide +kernel)
  have hfilter : Takes quietEnvironment (some (mixedLines ++ "\n")) "RUST_LOG" (some "") := .environment rfl
  have hnames : Names " JSON " .json := names_iff.2 (by decide +kernel)
  refine ⟨((hload _ _ _ hfile hformat hfilter).2 _).2 ⟨rfl, Or.inr ⟨_, rfl, hnames⟩, rfl⟩, ?_⟩
  exact happend mixedLines "RESUME_FORMAT=yaml\n" _ _ hformat

end Config

end Vitae
