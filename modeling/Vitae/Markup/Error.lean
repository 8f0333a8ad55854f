import Vitae.Markup.Character
import Vitae.Markup.Cursor

/-!
# Errors of markup

Why a text is not well formed. Most causes are found at a position; four concern
the document as a whole.

* `Fault.message`: the wording of a cause at a position.
* `Error.message`: the wording of an error.
-/

namespace Vitae.Markup

/-- What is wrong at a position. -/
inductive Fault where
  | expectedChar (expected found : Char)
  | expectedSpace (found : Char)
  | expectedQuote (found : Char)
  | expectedWord (word : String)
  | illegalChar (c : Char)
  | invalidName
  | unknownToken
  | dashesInComment
  | misplacedDeclaration
  | reservedQualifier
  | reservedUri
  | wrongXmlUri
  | misusedXmlUri
  | duplicateNamespace (qualifier : String)
  | unknownQualifier (qualifier : String)
  | duplicateAttribute (localName : String)
  | wrongEndTag (expected found : String)
  | sectionEndInText
  | malformedReference
  | unknownReference (name : String)
  deriving DecidableEq

/-- Why a text is not a well-formed document. -/
inductive Error where
  | endOfStream
  | documentType
  | noRoot
  | unclosedRoot
  | located (pos : Position) (fault : Fault)
  deriving DecidableEq

/-- A character that no document may hold, spelled by its number. -/
def spellIllegal (c : Char) : String :=
  if c.toNat = 0 then "'\\0'"
  else "'\\u\x7b" ++ String.ofList (Nat.toDigits 16 c.toNat) ++ "\x7d'"

/-- What was expected and what was found, which is shown by its first byte. -/
def mismatch (expected : String) (found : Char) (pos : Position) : String :=
  "expected " ++ expected ++ " not '" ++ (leadByte found).toString ++ "' at " ++ pos.text

/-- The wording of a cause. -/
def Fault.message (pos : Position) : Fault → String
  | .expectedChar expected found => mismatch ("'" ++ expected.toString ++ "'") found pos
  | .expectedSpace found => mismatch "a whitespace" found pos
  | .expectedQuote found => mismatch "a quote" found pos
  | .expectedWord word => "expected '" ++ word ++ "' at " ++ pos.text
  | .illegalChar c => "a non-XML character " ++ spellIllegal c ++ " found at " ++ pos.text
  | .invalidName => "invalid name token at " ++ pos.text
  | .unknownToken => "unknown token at " ++ pos.text
  | .dashesInComment => "comment at " ++ pos.text ++ " contains '--'"
  | .misplacedDeclaration => "unexpected XML declaration at " ++ pos.text
  | .reservedQualifier =>
    "the 'xmlns' prefix is used at " ++ pos.text ++ ", but it must not be"
  | .reservedUri =>
    "the 'xmlns' URI is used at " ++ pos.text ++ ", but it must not be declared"
  | .wrongXmlUri => "'xml' namespace prefix mapped to wrong URI at " ++ pos.text
  | .misusedXmlUri => "the 'xml' namespace URI is used for not 'xml' prefix at " ++ pos.text
  | .duplicateNamespace qualifier =>
    "namespace '" ++ qualifier ++ "' at " ++ pos.text ++ " is already defined"
  | .unknownQualifier qualifier =>
    "an unknown namespace prefix '" ++ qualifier ++ "' at " ++ pos.text
  | .duplicateAttribute localName =>
    "attribute '" ++ localName ++ "' at " ++ pos.text ++ " is already defined"
  | .wrongEndTag expected found =>
    "expected '" ++ expected ++ "' tag, not '" ++ found ++ "' at " ++ pos.text
  | .sectionEndInText =>
    "']]>' at " ++ pos.text ++ " is not allowed inside a character data"
  | .malformedReference => "malformed entity reference at " ++ pos.text
  | .unknownReference name => "unknown entity reference '" ++ name ++ "' at " ++ pos.text

/-- The wording of an error. -/
def Error.message : Error → String
  | .endOfStream => "unexpected end of stream"
  | .documentType => "XML with DTD detected"
  | .noRoot => "the document does not have a root node"
  | .unclosedRoot => "the root node was opened but never closed"
  | .located pos fault => fault.message pos

end Vitae.Markup
