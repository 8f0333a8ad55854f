import Vitae.Config.Basic
import Vitae.Config.LogFilter
import Vitae.Loading

/-!
# The program

From arguments, environment and folder to what a run leaves behind. A failure prints
nothing on the standard output; diagnostics found before it are still reported. What is
amiss with the log filter is reported first.

* `Program.finish`: what a configured run leaves, given what its input file held.
* `Program.run`: what a run leaves.
-/

namespace Vitae

/-- What a run leaves behind. -/
structure Outcome where
  exitCode : Nat
  stdout : String
  stderr : String
  deriving DecidableEq

/-- A number at the right of a field of five characters. -/
def numberField (n : Nat) : String :=
  let digits := toString n
  String.ofList (List.replicate (5 - digits.length) ' ') ++ digits

/-- The causes of a failure, each on lines of its own, numbered if there are several. -/
def causeLines : List String → List String
  | [cause] => ["    " ++ Text.indent 4 cause]
  | causes => causes.zipIdx.map fun cause =>
    numberField cause.2 ++ ": " ++ Text.indent 7 cause.1

/-- The report of a failure: its wording, and the causes beneath it, outermost first. -/
def failureReport (headline : String) (causes : List String) : String :=
  Text.unlines (("Error: " ++ headline) ::
    if causes.isEmpty then [] else "" :: "Caused by:" :: causeLines causes)

/-- The wordings of an error that are reported as causes. -/
def LoadError.causes (e : LoadError) : List String := e.message :: e.source?.toList

namespace Program

/-- A log as it is reported: a line per diagnostic. -/
def reportLog (log : Log) : String := Text.unlines (log.toList.map Diagnostic.message)

/-- The run that a configuration error ends. -/
def refuse (e : ConfigError) : Outcome := ⟨1, "", failureReport e.message [e.format.message]⟩

/-- What is amiss with a log filter, as it is reported: a line per directive. -/
def reportFilter (filter : String) : String := Text.unlines (LogFilter.complaints filter)

/-- The rest of a run once the input file was read or could not be. -/
def finish (config : Config) (text : Except FileFault String) : Outcome :=
  match (Resume.ofRead config.input text).after #[] with
  | (.ok resume, log) =>
    ⟨0, resume.render config.format, reportFilter config.logFilter ++ reportLog log⟩
  | (.error e, log) =>
    ⟨1, "", reportFilter config.logFilter ++ reportLog log ++
      failureReport ("Failed to render " ++ config.input) e.causes⟩

/-- The text of the file of variables, if there is one. -/
def dotenvText (bytes : Except FileFault ByteArray) : Option String :=
  bytes.toOption.map Text.decodeLines

/-- A run in a folder. Of the arguments only the first counts. -/
def run (arguments : List String) (environment : Variables) (folder : Folder) : Outcome :=
  match Config.load environment (dotenvText (folder.readBytes dotenvName)) arguments.head? with
  | .error e => refuse e
  | .ok config => finish config (folder.readText config.input)

end Program

end Vitae
