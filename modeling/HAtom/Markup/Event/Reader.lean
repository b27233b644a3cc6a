import HAtom.Markup.Character
import HAtom.Markup.Event

/-!
# Reading events

Reads the events of a document, or of a part of one that stands for content. A fault does not undo
the events before it: whatever is wrong with an earlier event is reported first.

* `Event.ofDocument` reads a whole document: declaration, document type, one element, and comments
  and instructions around them.
* `Event.ofContent` reads what may stand inside an element. It ends with the text, or after a close
  tag that no tag of the same text opened; what follows such a tag is not read.
-/

namespace HAtom.Markup

/-- What has been read and what is still to be read. -/
structure Reading where
  source : Source
  /-- The events so far, the last one first. -/
  done : List Event

/-- A step of reading, which keeps its events when it fails. -/
abbrev Reader := ExceptT Malformed (StateM Reading)

namespace Reader

/-! ## Single steps -/

/-- The place that has been reached. -/
def here : Reader Position := do return (← get).source.position

/-- Fails with a fault at the place that has been reached. -/
def failHere {α : Type} (fault : Position → Malformed) : Reader α := do throw (fault (← here))

/-- Records an event. -/
def emit (e : Event) : Reader Unit := modify fun r => { r with done := e :: r.done }

/-- The characters that are still to be read. -/
def remaining : Reader (List Glyph) := do return (← get).source.rest

/-- Goes on with these characters. -/
def goOn (rest : List Glyph) : Reader Unit :=
  modify fun r => { r with source := { r.source with rest := rest } }

/-- Passes over a number of characters. -/
def advance (n : Nat) : Reader Unit := do goOn ((← remaining).drop n)

/-- Whether everything has been read. -/
def atEnd : Reader Bool := do return (← remaining).isEmpty

/-- Whether the text goes on with these characters. -/
def sees (start : String) : Reader Bool := do return (← get).source.startsWith start

/-- The next character, if there is one. -/
def peek? : Reader (Option Char) := do return (← remaining).head?.map (·.char)

/-- The next character; the text must not end here. -/
def peek : Reader Char := do
  match ← peek? with
  | some c => return c
  | none => throw .endOfDocument

/-- Passes over the characters of a class. -/
def skipWhile (p : Char → Bool) : Reader Unit := do
  goOn ((← remaining).dropWhile fun g => p g.char)

/-- Passes over the blanks of markup. -/
def skipSpaces : Reader Unit := skipWhile isSpace

/-- Whether the text goes on with a blank. -/
def seesSpace : Reader Bool := do return ((← peek?).map isSpace).getD false

/-- Fails because something else is wanted than the character `c`. -/
def unexpected {α : Type} (wanted : Wanted) (c : Char) : Reader α :=
  failHere (.unexpected wanted (leadByte c))

/-- Passes over blanks, of which there must be one at least. -/
def requireSpaces : Reader Unit := do
  let c ← peek
  if isSpace c then skipSpaces else unexpected .space c

/-- Passes over one particular character. -/
def require (wanted : Char) : Reader Unit := do
  let c ← peek
  if c == wanted then advance 1 else unexpected (.exactly wanted) c

/-- Passes over these characters. -/
def requireText (wanted : String) : Reader Unit := do
  if ← sees wanted then advance wanted.length else failHere (.missing wanted)

/-- Passes over a quote and says which. -/
def requireQuote : Reader Char := do
  let c ← peek
  if c == '"' || c == '\'' then
    advance 1
    return c
  else unexpected .quote c

/-- Splits text where `stop` first holds of what follows; characters that no document may hold are
a fault. The part before is given the last character first. -/
def spanUntil (stop : List Glyph → Bool) (before : List Glyph) :
    List Glyph → Except Malformed (List Glyph × List Glyph)
  | [] => .ok (before, [])
  | g :: rest =>
    if !isDocumentChar g.char then .error (.character g.char g.position)
    else if stop (g :: rest) then .ok (before, g :: rest)
    else spanUntil stop (g :: before) rest

/-- Reads characters up to the place where `stop` holds of what follows, or to the end. -/
def takeUntil (stop : List Glyph → Bool) : Reader Source := do
  match spanUntil stop [] (← remaining) with
  | .error fault => throw fault
  | .ok (before, rest) =>
    goOn rest
    return ⟨before.reverse, ← here⟩

/-- Whether text goes on with these characters. -/
def goesOnWith (start : List Char) (rest : List Glyph) : Bool :=
  start.isPrefixOf ((rest.take start.length).map (·.char))

/-- Whether text goes on with one of two characters. -/
def goesOnWithEither (a b : Char) : List Glyph → Bool
  | [] => false
  | g :: _ => g.char == a || g.char == b

/-- Reads characters of any kind up to a character. -/
def takeBefore (mark : Char) : Reader Source := do
  let (before, rest) := (← remaining).span fun g => g.char != mark
  goOn rest
  return ⟨before, ← here⟩

/-! ## Names -/

/-- Reads a name, which may contain colons; at the end of the text it is empty. -/
def nameOrEnd : Reader String := do
  match ← remaining with
  | [] => return ""
  | g :: rest =>
    if !isNameStart g.char then failHere .invalidName
    else
      let (more, rest) := rest.span fun g => isNameChar g.char
      goOn rest
      return glyphText (g :: more)

/-- Reads a name, which may contain colons. -/
def name : Reader String := do
  let start ← here
  let name ← nameOrEnd
  if name.isEmpty then throw (.invalidName start) else return name

/-- Whether a part of a qualified name starts as a name does; the empty part is judged apart. -/
def startsAsName (part : List Char) : Bool :=
  match part with
  | [] => true
  | c :: _ => isNameStart c

/-- Reads a name with at most one colon. -/
def qualifiedName : Reader Name := do
  let start ← here
  let (run, rest) := (← remaining).span fun g => isNameChar g.char
  let chars := run.map (·.char)
  let before := chars.takeWhile (· != ':')
  let behind := chars.dropWhile (· != ':')
  let (qualifier, base) :=
    match behind with
    | [] => ([], before)
    | _ :: base => (before, base)
  if base.contains ':' || base.isEmpty || !startsAsName qualifier || !startsAsName base then
    throw (.invalidName start)
  else
    goOn rest
    return ⟨String.ofList qualifier, String.ofList base⟩

/-! ## Comments, instructions and text -/

/-- Whether two hyphens follow each other, or the text ends with one. -/
def hasLooseHyphens : List Glyph → Bool
  | [] => false
  | [g] => g.char == '-'
  | g :: h :: rest => (g.char == '-' && h.char == '-') || hasLooseHyphens (h :: rest)

/-- Reads a comment. -/
def comment : Reader Unit := do
  let start ← here
  advance 4
  let text ← takeUntil (goesOnWith "-->".toList)
  requireText "-->"
  if hasLooseHyphens text.rest then throw (.comment start) else emit (.comment start)

/-- Reads a processing instruction. -/
def instruction : Reader Unit := do
  if ← sees "<?xml " then failHere .declaration
  else
    let start ← here
    advance 2
    let target ← name
    skipSpaces
    let _ ← takeUntil (goesOnWith "?>".toList)
    requireText "?>"
    emit (.instruction target start)

/-- Reads verbatim text. -/
def verbatim : Reader Unit := do
  let start ← here
  advance 9
  let text ← takeUntil (goesOnWith "]]>".toList)
  requireText "]]>"
  emit (.verbatim text start)

/-- Whether the mark that ends verbatim text occurs. -/
def hasVerbatimEnd : List Glyph → Bool
  | [] => false
  | g :: rest => goesOnWith "]]>".toList (g :: rest) || hasVerbatimEnd rest

/-- Reads text up to the next markup. -/
def text : Reader Unit := do
  let start ← here
  let text ← takeUntil (goesOnWith ['<'])
  if hasVerbatimEnd text.rest then failHere .characterData else emit (.text text start)

/-! ## Tags -/

/-- Reads the equals sign, the quotes and the value of an attribute. -/
def attributeValue : Reader Source := do
  skipSpaces
  require '='
  skipSpaces
  let quote ← requireQuote
  let value ← takeUntil (goesOnWithEither quote '<')
  require quote
  return value

/-- Reads attributes up to the end of a tag, and whether content follows. A text that ends before
the tag does leaves the tag incomplete. -/
def attributes : Nat → Reader Bool
  | 0 => return false
  | fuel + 1 => do
    if ← atEnd then return false
    let spaced ← seesSpace
    skipSpaces
    let c ← peek
    if c == '/' then
      advance 1
      require '>'
      emit .empty
      return false
    else if c == '>' then
      advance 1
      emit .opened
      return true
    else if !spaced then unexpected .space c
    else
      let start ← here
      let name ← qualifiedName
      let value ← attributeValue
      emit (.attr name start value)
      attributes fuel

/-- Reads a tag, and whether content follows. -/
def openTag : Reader Bool := do
  let start ← here
  advance 1
  let name ← qualifiedName
  emit (.tag name start)
  attributes ((← remaining).length + 1)

/-- Reads a close tag. -/
def closeTag : Reader Unit := do
  let start ← here
  advance 2
  let name ← qualifiedName
  skipSpaces
  require '>'
  emit (.closed name start)

/-- Reads content below `depth` open tags of the same text. -/
def content : Nat → Nat → Reader Unit
  | 0, _ => return
  | fuel + 1, depth => do
    match ((← remaining).take 2).map (·.char) with
    | [] => return
    | ['<'] => failHere .token
    | '<' :: '!' :: _ =>
      if ← sees "<!--" then comment
      else if ← sees "<![CDATA[" then verbatim
      else failHere .token
      content fuel depth
    | '<' :: '?' :: _ =>
      instruction
      content fuel depth
    | '<' :: '/' :: _ =>
      closeTag
      if depth == 0 then return else content fuel (depth - 1)
    | '<' :: _ =>
      if ← openTag then content fuel (depth + 1) else content fuel depth
    | _ =>
      text
      content fuel depth

/-! ## Declarations -/

/-- Passes over blanks in a declaration, which has to go on with one unless it ends. -/
def declarationSpaces : Reader Unit := do
  if ← seesSpace then skipSpaces
  else if ← sees "?>" then return
  else
    match ← peek? with
    | none => return
    | some c => unexpected .space c

/-- Passes over an item of a declaration. -/
def declarationItem : Reader Unit := do
  let _ ← qualifiedName
  let _ ← attributeValue

/-- Reads the declaration at the start of a document. -/
def declaration : Reader Unit := do
  advance 5
  declarationSpaces
  if !(← sees "version") then failHere (.missing "version")
  declarationItem
  declarationSpaces
  if ← sees "encoding" then
    declarationItem
    declarationSpaces
  if ← sees "standalone" then declarationItem
  skipSpaces
  requireText "?>"

/-- Reads comments and instructions between blanks. -/
def around : Nat → Reader Unit
  | 0 => return
  | fuel + 1 => do
    skipSpaces
    if ← sees "<!--" then
      comment
      around fuel
    else if ← sees "<?" then
      instruction
      around fuel
    else return

/-- Passes over a quoted text of any characters. -/
def quotedText : Reader Unit := do
  let quote ← requireQuote
  let _ ← takeBefore quote
  require quote

/-- Passes over the name of something outside the document, if there is one. -/
def externalId : Reader Bool := do
  let system ← sees "SYSTEM"
  if system || (← sees "PUBLIC") then
    advance 6
    requireSpaces
    quotedText
    if !system then
      requireSpaces
      quotedText
    return true
  else return false

/-- Reads the value of an entity; one that stands outside the document has none. -/
def entityValue (general : Bool) : Reader (Option Source) := do
  let c ← peek
  if c == '"' || c == '\'' then
    advance 1
    let value ← takeBefore c
    require c
    return some value
  else if c == 'S' || c == 'P' then
    if ← externalId then
      if general then
        skipSpaces
        if ← sees "NDATA" then
          advance 5
          requireSpaces
          let _ ← nameOrEnd
      return none
    else failHere .externalId
  else unexpected .entityValue c

/-- Reads the declaration of an entity. Only general entities can be referred to in content. -/
def entityDeclaration : Reader Unit := do
  advance 8
  requireSpaces
  let general := (← peek?) != some '%'
  if !general then
    advance 1
    requireSpaces
  let name ← name
  requireSpaces
  match ← entityValue general with
  | some value => if general then emit (.entity name value)
  | none => pure ()
  skipSpaces
  require '>'

/-- Passes over a declaration that has no effect here; `start` is where the document type starts. -/
def otherDeclaration (start : Position) : Reader Unit := do
  let _ ← takeBefore '>'
  if ← atEnd then throw (.token start) else advance 1

/-- Reads the declarations of a document type up to its end; `start` is where it starts. -/
def internalSubset (start : Position) : Nat → Reader Unit
  | 0 => return
  | fuel + 1 => do
    if ← atEnd then return
    skipSpaces
    if ← sees "<!ENTITY" then
      entityDeclaration
      internalSubset start fuel
    else if ← sees "<!--" then
      comment
      internalSubset start fuel
    else if ← sees "<?" then
      instruction
      internalSubset start fuel
    else if ← sees "]" then
      advance 1
      skipSpaces
      let c ← peek
      if c == '>' then advance 1 else unexpected .declarationEnd c
    else if (← sees "<!ELEMENT") || (← sees "<!ATTLIST") || (← sees "<!NOTATION") then
      otherDeclaration start
      internalSubset start fuel
    else failHere .token

/-- Reads the document type. -/
def documentType : Reader Unit := do
  let start ← here
  advance 9
  requireSpaces
  let _ ← nameOrEnd
  skipSpaces
  let _ ← externalId
  skipSpaces
  let c ← peek
  if c == '>' then advance 1
  else if c == '[' then
    advance 1
    internalSubset start ((← remaining).length + 1)
  else unexpected .subsetOrEnd c

/-- Reads a whole document. -/
def document : Reader Unit := do
  if ← sees "\uFEFF" then advance 1
  let fuel := (← remaining).length + 1
  if ← sees "<?xml " then declaration
  around fuel
  if ← sees "<!DOCTYPE" then
    documentType
    around fuel
  if ← sees "<" then
    if ← openTag then content fuel 0
  around fuel
  if !(← atEnd) then failHere .token

/-- The events that a reader finds, and the fault that stopped it, if any. -/
def events (reader : Reader Unit) (source : Source) : List Event × Option Malformed :=
  match reader.run.run ⟨source, []⟩ with
  | (.ok _, reading) => (reading.done.reverse, none)
  | (.error fault, reading) => (reading.done.reverse, some fault)

end Reader

namespace Event

/-- The events of a whole document, and the fault that stopped reading, if any. -/
def ofDocument (source : Source) : List Event × Option Malformed :=
  Reader.document.events source

/-- The events of text that stands for content, and the fault that stopped reading, if any. -/
def ofContent (source : Source) : List Event × Option Malformed :=
  (Reader.content (source.rest.length + 1) 0).events source

end Event

end HAtom.Markup
