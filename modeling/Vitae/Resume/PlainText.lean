import Vitae.Text.Lines
import Vitae.Resume.Walk

/-!
# Plain text

A résumé as lines: present identity values, then for each section a blank line,
its title and a rule under it, and the same one level down for each entry.

* `Resume.lines`: the lines, each known by what it is.
* `Resume.plainText`: the lines written out, each ended by a newline.
-/

namespace Vitae

/-- A line of plain text. A rule underlines the title above it. -/
inductive Line where
  | blank
  | text (content : String)
  | rule (mark : Char) (width : Nat)
  | bullet (item : String)
  deriving DecidableEq

/-- The characters of a line, its newline apart. -/
def Line.content : Line → String
  | .blank => ""
  | .text content => content
  | .rule mark width => String.ofList (List.replicate width mark)
  | .bullet item => "  * " ++ item

/-- A blank line, the title and a rule as wide as the title has characters. -/
def heading (title : String) (mark : Char) : List Line :=
  [.blank, .text title, .rule mark title.length]

/-- The fields of an entry that are printed below its title. -/
def Entry.details (e : Entry) : List Line :=
  [e.organization, e.location, e.dateRange].filterMap (Option.map Line.text)

/-- The visitor that prints each stop. -/
def Visitor.printer : Visitor (Array Line) where
  identity _ value out := out.push (.text value)
  enterSection part out := out ++ heading part.title '='
  enterEntry entry out := out ++ heading entry.title '-' ++ entry.details
  item text out := out.push (.bullet text)

/-- The lines of a résumé. -/
def Resume.lines (r : Resume) : List Line := (r.walk Visitor.printer #[]).toList

/-- A résumé as plain text. -/
def Resume.plainText (r : Resume) : String := Text.unlines (r.lines.map Line.content)

end Vitae
