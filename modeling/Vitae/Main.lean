import Vitae.Program

/-!
# Command line

Reads the environment and the files that a run needs, and prints what the run leaves.
-/

namespace Vitae.CommandLine

/-- The variables that a run looks at. -/
def variableNames : List String := ["RESUME_FILE", "RESUME_FORMAT", "RUST_LOG"]

/-- Those of some variables that are set. -/
def environment (names : List String) : IO Variables :=
  names.filterMapM fun name => return (← IO.getEnv name).map fun word => (name, word)

/-- The reason behind a number, which some calls of the system give with its sign turned. -/
def reason (code : UInt32) (details : String) : FileFault :=
  .ofSystem (if code < 0x80000000 then code.toNat else (0 - code).toNat) details.capitalize

/-- The reason behind an error of the system. -/
def fileFault : IO.Error → FileFault
  | .noFileOrDirectory _ code details => reason code details
  | .inappropriateType _ code details => reason code details
  | .invalidArgument _ code details => reason code details
  | .permissionDenied _ code details => reason code details
  | .resourceExhausted _ code details => reason code details
  | .otherError code details => reason code details
  | e => .other 0 (toString e)

/-- The bytes of the file at a path. -/
def readBytes (path : String) : IO (Except FileFault ByteArray) := do
  match checkPath path with
  | .error fault => return .error fault
  | .ok () =>
    match ← (IO.FS.readBinFile path).toBaseIO with
    | .ok bytes => return .ok bytes
    | .error e => return .error (fileFault e)

/-- Runs the program and gives its exit code. -/
def start (arguments : List String) : IO UInt32 := do
  let dotenv := Program.dotenvText (← readBytes dotenvName)
  -- the file of variables may refer to others than those that the program itself reads
  let names := variableNames ++ (dotenv.map fun text => Dotenv.mentioned text.toList).getD []
  let outcome ← match Config.load (← environment names) dotenv arguments.head? with
    | .error e => pure (Program.refuse e)
    | .ok config =>
      pure (Program.finish config ((← readBytes config.input) >>= decodeText))
  IO.eprint outcome.stderr
  IO.print outcome.stdout
  return UInt32.ofNat outcome.exitCode

end Vitae.CommandLine

/-- The program. Its first argument is the path of a résumé. -/
def main (arguments : List String) : IO UInt32 := Vitae.CommandLine.start arguments
