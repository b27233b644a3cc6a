import HAtom.Text.Quoted
import HAtom.Text.Utf8

/-!
# What is wrong with a document

Reading a document fails at the first place where it is not well-formed. A `Fault` is the cause,
with the place where there is one; `Fault.message` is the sentence shown to a reader and
`Fault.detail` the exact form that lists the cause and its parts.
-/

namespace HAtom.Markup

/-- A place in a document: line and column, both counted from one, columns in characters. -/
structure Position where
  line : Nat
  column : Nat
  deriving DecidableEq, Repr, Inhabited

/-- The usual short form of a place. -/
def Position.text (p : Position) : String := toString p.line ++ ":" ++ toString p.column

/-- The form of a place that names its parts. -/
def Position.detail (p : Position) : String :=
  "TextPos \x7b row: " ++ toString p.line ++ ", col: " ++ toString p.column ++ " \x7d"

/-- What a document has to go on with at a place. -/
inductive Wanted
  /-- One particular character. -/
  | exactly (c : Char)
  | space
  | quote
  /-- The internal subset or the end of a document type declaration. -/
  | subsetOrEnd
  /-- The end of a document type declaration after its internal subset. -/
  | declarationEnd
  /-- The value of an entity, or where to find it. -/
  | entityValue
  deriving DecidableEq, Repr

/-- The words for what is wanted. -/
def Wanted.text : Wanted → String
  | .exactly c => "'" ++ String.singleton c ++ "'"
  | .space => "a whitespace"
  | .quote => "a quote"
  | .subsetOrEnd => "'[' or '>'"
  | .declarationEnd => "'>'"
  | .entityValue => "a quote, SYSTEM or PUBLIC"

/-- Why a text is not a well-formed document. -/
inductive Malformed
  | xmlPrefixUri (p : Position)
  | unexpectedXmlUri (p : Position)
  | unexpectedXmlnsUri (p : Position)
  | elementNamePrefix (p : Position)
  | duplicateNamespace (name : String) (p : Position)
  | unknownNamespace (name : String) (p : Position)
  | closeTag (expected found : String) (p : Position)
  | entityCloseTag (p : Position)
  | entityReference (p : Position)
  | unknownEntity (name : String) (p : Position)
  | entityLoop (p : Position)
  | attributeValue (p : Position)
  | duplicateAttribute (name : String) (p : Position)
  | noRoot
  | unclosedRoot
  | declaration (p : Position)
  | invalidName (p : Position)
  | character (c : Char) (p : Position)
  /-- Something else is wanted where a character starts with the byte `found`. -/
  | unexpected (wanted : Wanted) (found : Nat) (p : Position)
  | missing (wanted : String) (p : Position)
  | externalId (p : Position)
  | comment (p : Position)
  | characterData (p : Position)
  | token (p : Position)
  | endOfDocument
  deriving DecidableEq, Repr

namespace Malformed

/-- The sentence that describes the fault. -/
def message : Malformed → String
  | xmlPrefixUri p => "'xml' namespace prefix mapped to wrong URI at " ++ p.text
  | unexpectedXmlUri p => "the 'xml' namespace URI is used for not 'xml' prefix at " ++ p.text
  | unexpectedXmlnsUri p =>
    "the 'xmlns' URI is used at " ++ p.text ++ ", but it must not be declared"
  | elementNamePrefix p => "the 'xmlns' prefix is used at " ++ p.text ++ ", but it must not be"
  | duplicateNamespace name p => "namespace '" ++ name ++ "' at " ++ p.text ++ " is already defined"
  | unknownNamespace name p => "an unknown namespace prefix '" ++ name ++ "' at " ++ p.text
  | closeTag expected found p =>
    "expected '" ++ expected ++ "' tag, not '" ++ found ++ "' at " ++ p.text
  | entityCloseTag p => "unexpected close tag at " ++ p.text
  | entityReference p => "malformed entity reference at " ++ p.text
  | unknownEntity name p => "unknown entity reference '" ++ name ++ "' at " ++ p.text
  | entityLoop p => "a possible entity reference loop is detected at " ++ p.text
  | attributeValue p => "unescaped '<' found at " ++ p.text
  | duplicateAttribute name p => "attribute '" ++ name ++ "' at " ++ p.text ++ " is already defined"
  | noRoot => "the document does not have a root node"
  | unclosedRoot => "the root node was opened but never closed"
  | declaration p => "unexpected XML declaration at " ++ p.text
  | invalidName p => "invalid name token at " ++ p.text
  | character c p => "a non-XML character " ++ Text.quotedChar c ++ " found at " ++ p.text
  | unexpected wanted found p =>
    "expected " ++ wanted.text ++ " not '" ++ String.singleton (Char.ofNat found) ++ "' at " ++ p.text
  | missing wanted p => "expected '" ++ wanted ++ "' at " ++ p.text
  | externalId p => "invalid ExternalID at " ++ p.text
  | comment p => "comment at " ++ p.text ++ " contains '--'"
  | characterData p => "']]>' at " ++ p.text ++ " is not allowed inside a character data"
  | token p => "unknown token at " ++ p.text
  | endOfDocument => "unexpected end of stream"

/-- A name applied to arguments. -/
def applied (name : String) (arguments : List String) : String :=
  name ++ "(" ++ ", ".intercalate arguments ++ ")"

/-- The cause and its parts. -/
def detail : Malformed → String
  | xmlPrefixUri p => applied "InvalidXmlPrefixUri" [p.detail]
  | unexpectedXmlUri p => applied "UnexpectedXmlUri" [p.detail]
  | unexpectedXmlnsUri p => applied "UnexpectedXmlnsUri" [p.detail]
  | elementNamePrefix p => applied "InvalidElementNamePrefix" [p.detail]
  | duplicateNamespace name p => applied "DuplicatedNamespace" [Text.quoted name, p.detail]
  | unknownNamespace name p => applied "UnknownNamespace" [Text.quoted name, p.detail]
  | closeTag expected found p =>
    applied "UnexpectedCloseTag" [Text.quoted expected, Text.quoted found, p.detail]
  | entityCloseTag p => applied "UnexpectedEntityCloseTag" [p.detail]
  | entityReference p => applied "MalformedEntityReference" [p.detail]
  | unknownEntity name p => applied "UnknownEntityReference" [Text.quoted name, p.detail]
  | entityLoop p => applied "EntityReferenceLoop" [p.detail]
  | attributeValue p => applied "InvalidAttributeValue" [p.detail]
  | duplicateAttribute name p => applied "DuplicatedAttribute" [Text.quoted name, p.detail]
  | noRoot => "NoRootNode"
  | unclosedRoot => "UnclosedRootNode"
  | declaration p => applied "UnexpectedDeclaration" [p.detail]
  | invalidName p => applied "InvalidName" [p.detail]
  | character c p => applied "NonXmlChar" [Text.quotedChar c, p.detail]
  | unexpected (.exactly c) found p =>
    applied "InvalidChar" [toString c.toNat, toString found, p.detail]
  | unexpected wanted found p =>
    applied "InvalidChar2" [Text.quoted wanted.text, toString found, p.detail]
  | missing wanted p => applied "InvalidString" [Text.quoted wanted, p.detail]
  | externalId p => applied "InvalidExternalID" [p.detail]
  | comment p => applied "InvalidComment" [p.detail]
  | characterData p => applied "InvalidCharacterData" [p.detail]
  | token p => applied "UnknownToken" [p.detail]
  | endOfDocument => "UnexpectedEndOfStream"

end Malformed

/-- Why bytes are not a document: they are not text, or the text is malformed. -/
inductive Fault
  | encoding (fault : Text.Utf8.Fault)
  | malformed (fault : Malformed)
  deriving DecidableEq, Repr

/-- The sentence that describes the fault. -/
def Fault.message : Fault → String
  | .encoding fault => "input is not valid UTF-8: " ++ fault.message
  | .malformed fault => fault.message

/-- The cause and its parts. -/
def Fault.detail : Fault → String
  | .encoding fault =>
    let width :=
      match fault.width with
      | some n => "Some(" ++ toString n ++ ")"
      | none => "None"
    "InvalidUtf8(Utf8Error \x7b valid_up_to: " ++ toString fault.validUpTo ++ ", error_len: " ++
      width ++ " \x7d)"
  | .malformed fault => "Malformed(" ++ fault.detail ++ ")"

end HAtom.Markup
