import Vitae.Text.Lines

/-!
# Bytes of a text

Reading bytes as UTF-8, at once or line by line.

* `decode`: the text that bytes hold, if all of them are text.
* `decodeLines`: the lines up to the first that is no text.
-/

namespace Vitae.Text

/-- The text that bytes hold, if they are UTF-8. -/
def decode (bytes : List UInt8) : Option (List Char) :=
  (String.fromUTF8? ⟨bytes.toArray⟩).map String.toList

/-- The byte of a line feed. -/
def lineFeed : UInt8 := 0x0A

/-- The text of some lines up to the first that is no text, each but the last of them all
ended by a line feed. -/
def joinReadable : List (List UInt8) → List Char
  | [] => []
  | [line] => (decode line).getD []
  | line :: lines =>
    match decode line with
    | some text => text ++ '\n' :: joinReadable lines
    | none => []

/-- The text of the lines that bytes hold, up to the first line that is no text. -/
def decodeLines (bytes : ByteArray) : String :=
  String.ofList (joinReadable (cut lineFeed bytes.toList))

end Vitae.Text
