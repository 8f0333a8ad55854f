import Vitae.Resume.PlainText
import Vitae.Resume.Json
import Vitae.Text.Blank

/-!
# Output formats

The notations a résumé is rendered in, and the words that choose one.

* `Format.ofString`: blanks around the word and the case of ASCII letters do not
  matter; any other word is refused as it was given.
* `Resume.render`: a résumé in a notation.
-/

namespace Vitae

/-- An output notation. -/
inductive Format where
  | text | json
  deriving DecidableEq

/-- A word that names no output notation, as it was given. -/
structure UnknownFormat where
  raw : String
  deriving DecidableEq

/-- The wording of the refusal. -/
def UnknownFormat.message (e : UnknownFormat) : String :=
  "Unknown output format '" ++ e.raw ++ "' (expected 'text' or 'json')"

/-- The notation that a word names. -/
def Format.ofString (raw : String) : Except UnknownFormat Format :=
  match String.ofList ((Text.trim raw.toList).map Char.toLower) with
  | "text" => .ok .text
  | "txt" => .ok .text
  | "json" => .ok .json
  | _ => .error ⟨raw⟩

/-- A résumé in an output notation. -/
def Resume.render (r : Resume) : Format → String
  | .text => r.plainText
  | .json => r.json

end Vitae
