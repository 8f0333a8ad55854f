import Vitae.Folder
import Vitae.Markup.Document
import Vitae.Schema.Reading

/-!
# Loading résumés

From a text or a file to a résumé: the file has to be there and hold text, the text
has to be well-formed markup, and the markup has to follow the schema.

* `Resume.parse`: the résumé in a text.
* `Resume.load`: the résumé in a file.
-/

namespace Vitae

/-- Why no résumé was loaded. -/
inductive LoadError where
  | file (path : String) (fault : FileFault)
  | markup (error : Markup.Error)
  | schema (error : Schema.Error)
  deriving DecidableEq

namespace LoadError

/-- The wording of an error. -/
def message : LoadError → String
  | .file path fault => "Failed to read " ++ path ++ ": " ++ fault.message
  | .markup error => "XML parsing error: " ++ error.message
  | .schema error => error.message

/-- The wording of what lies beneath an error, if anything does. -/
def source? : LoadError → Option String
  | .file _ fault => some fault.message
  | .markup error => some error.message
  | .schema _ => none

end LoadError

namespace Resume

/-- The résumé in a text. -/
def parse (text : String) : Logged LoadError Resume := do
  let root ← MonadExcept.ofExcept ((Markup.Element.ofString text).mapError .markup)
  ExceptT.adapt .schema (Schema.readResume root)

/-- The résumé in what was read from a path. -/
def ofRead (path : String) (text : Except FileFault String) : Logged LoadError Resume := do
  parse (← MonadExcept.ofExcept (text.mapError (.file path)))

/-- The résumé in a file. -/
def load (folder : Folder) (path : String) : Logged LoadError Resume :=
  ofRead path (folder.readText path)

end Resume

end Vitae
