import Vitae.Config.Dotenv
import Vitae.Resume.Format

/-!
# Configuration

What to read and how to print it: from the environment, from a file of variables for
what the environment lacks, and from the command line.

* `Config.load`: the configuration, or why the notation it asks for is unknown.
-/

namespace Vitae

/-- The file that stands in for variables the environment lacks. -/
def dotenvName : String := ".env"

/-- What to read, how to print it, and what to log. -/
structure Config where
  input : String
  format : Format
  logFilter : String
  deriving DecidableEq

/-- The variable that asks for a notation names none. -/
structure ConfigError where
  format : UnknownFormat
  deriving DecidableEq

namespace ConfigError

/-- The wording. -/
def message (_ : ConfigError) : String := "RESUME_FORMAT must be 'text' or 'json'"

/-- The wording and what lies beneath it, outermost first. -/
def chain (e : ConfigError) : List String := [e.message, e.format.message]

end ConfigError

namespace Config

/-- The configuration that variables ask for. Those that are not set have defaults. -/
def ofVariables (vars : Variables) : Except ConfigError Config := do
  let format ← match vars.lookup "RESUME_FORMAT" with
    | some raw => (Format.ofString raw).mapError ConfigError.mk
    | none => pure .text
  return {
    input := (vars.lookup "RESUME_FILE").getD "resume.xml"
    format
    logFilter := (vars.lookup "RUST_LOG").getD "warn" }

/-- An argument replaces the path to read and nothing else. -/
def withInput (config : Config) (argument : Option String) : Config :=
  { config with input := argument.getD config.input }

/-- The variables of a start: those of the environment count before those of the file. -/
def effective (environment : Variables) (dotenv : Option String) : Variables :=
  environment ++ (dotenv.map (Dotenv.assignments environment)).getD []

/-- The configuration of a start. -/
def load (environment : Variables) (dotenv : Option String) (argument : Option String) :
    Except ConfigError Config := do
  return (← ofVariables (effective environment dotenv)).withInput argument

end Config

end Vitae
