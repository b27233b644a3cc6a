import HAtom.Text.Utf8

/-!
# Patterns for paths

A pattern describes paths byte by byte. A question mark stands for one byte and a star for any number
of them, but not for slashes; two stars between slashes stand for any number of directories; brackets
list bytes, braces list alternatives, and a backslash takes away the meaning of what follows.

* `Glob.parse` reads a pattern; `GlobFault` says why it is none.
* `Glob.accepts` says whether a path fits a pattern.
* `Part.rests` is what can be left of a path after a part of a pattern.
-/

namespace HAtom

/-- Why a text is no pattern. -/
inductive GlobFault
  | unclosedClass
  | reversedRange (first last : Char)
  | unopenedGroup
  | unclosedGroup
  | danglingEscape
  deriving DecidableEq, Repr

/-- The sentence that describes the fault. -/
def GlobFault.message : GlobFault → String
  | unclosedClass => "unclosed character class; missing ']'"
  | reversedRange first last =>
    "invalid range; '" ++ first.toString ++ "' > '" ++ last.toString ++ "'"
  | unopenedGroup =>
    "unopened alternate group; missing '\x7b' (maybe escape '\x7d' with '[\x7d]'?)"
  | unclosedGroup =>
    "unclosed alternate group; missing '\x7d' (maybe escape '\x7b' with '[\x7b]'?)"
  | danglingEscape => "dangling '\\'"

namespace Glob

/-- A part of a pattern. -/
inductive Part
  | literal (c : Char)
  /-- One byte that is not a slash. -/
  | one
  /-- Any number of bytes that are not slashes. -/
  | run
  /-- Any number of directories at the start of a path. -/
  | leading
  /-- Everything below a directory. -/
  | trailing
  /-- Any number of directories within a path. -/
  | between
  /-- One byte of some ranges of characters, or one that is in none of them. -/
  | oneOf (negated : Bool) (ranges : List (Char × Char))
  /-- One of several patterns. -/
  | anyOf (branches : List (List Part))

/-! ## Reading -/

/-- A pattern that is being read, parts in reverse order. -/
structure Draft where
  /-- The parts of the alternative, or of the pattern outside all groups. -/
  current : List Part
  /-- For each open group, the innermost first: the alternatives before this one, and the parts of
  the pattern before the group. -/
  groups : List (List (List Part) × List Part)

namespace Draft

/-- A pattern with another part. -/
def push (d : Draft) (p : Part) : Draft := { d with current := p :: d.current }

/-- Opens a group. -/
def openGroup (d : Draft) : Draft := ⟨[], ([], d.current) :: d.groups⟩

/-- Begins the next alternative of the group; outside all groups a comma stands for itself. -/
def nextBranch (d : Draft) : Draft :=
  match d.groups with
  | [] => d.push (.literal ',')
  | (branches, outer) :: groups => ⟨[], (d.current.reverse :: branches, outer) :: groups⟩

/-- Closes a group. -/
def closeGroup (d : Draft) : Except GlobFault Draft :=
  match d.groups with
  | [] => .error .unopenedGroup
  | (branches, outer) :: groups =>
    .ok ⟨.anyOf (d.current.reverse :: branches).reverse :: outer, groups⟩

/-- The parts of the whole pattern. -/
def finish (d : Draft) : Except GlobFault (List Part) :=
  if d.groups.isEmpty then .ok d.current.reverse else .error .unclosedGroup

/-- Enters two stars that follow a character and are followed by another. Between slashes, or an end
of the pattern or of an alternative in the place of one, they stand for directories and take those
slashes with them; elsewhere they are two runs. Answers whether the next slash is taken. -/
def stars (d : Draft) (previous next : Option Char) : Draft × Bool :=
  let runs := ((d.push .run).push .run, false)
  match d.current with
  | [] => if next.all (· == '/') then (d.push .leading, next.isSome) else runs
  | last :: before =>
    let inGroup := !d.groups.isEmpty
    let begins := previous == some '/' ||
      (inGroup && (previous == some ',' || previous == some '{'))
    let ends := next.isNone || (inGroup && (next == some ',' || next == some '}'))
    if !begins || !(ends || next == some '/') then runs
    else
      let part :=
        match last with
        | .leading => Part.leading
        | .trailing => .trailing
        | _ => if ends then .trailing else .between
      (⟨part :: before, d.groups⟩, !ends)

end Draft

/-- What the next character belongs to. -/
inductive Mode
  | plain
  /-- It stands for itself. -/
  | escaped
  /-- It is the first in brackets. -/
  | opened
  /-- It is the first in brackets after the sign that negates them. -/
  | negated
  /-- It is in brackets: whether these are negated, their ranges in reverse order, and whether the
  character ends a range. -/
  | inside (negated : Bool) (ranges : List (Char × Char)) (toEnd : Bool)

/-- Reads a character at the start of brackets, where all have themselves as meaning. -/
def firstInside (negated : Bool) (c : Char) : Mode := .inside negated [(c, c)] false

/-- Reads a character in brackets. -/
def nextInside (negated : Bool) (ranges : List (Char × Char)) (toEnd : Bool) (c : Char) :
    Except GlobFault Mode :=
  match toEnd, ranges with
  | true, (first, _) :: more =>
    if c < first then .error (.reversedRange first c)
    else .ok (.inside negated ((first, c) :: more) false)
  | _, _ =>
    if c == '-' then .ok (.inside negated ranges true)
    else .ok (.inside negated ((c, c) :: ranges) false)

/-- The part that brackets are. A dash before the closing one stands for itself. -/
def bracketPart (negated : Bool) (ranges : List (Char × Char)) (toEnd : Bool) : Part :=
  .oneOf negated (if toEnd then ('-', '-') :: ranges else ranges).reverse

/-- Reads the characters of a pattern after a previous one. -/
def readFrom (mode : Mode) (previous : Option Char) (d : Draft) :
    List Char → Except GlobFault Draft
  | [] =>
    match mode with
    | .plain => .ok d
    | .escaped => .error .danglingEscape
    | _ => .error .unclosedClass
  | c :: rest =>
    match mode with
    | .escaped => readFrom .plain (some c) (d.push (.literal c)) rest
    | .opened =>
      if c == '!' || c == '^' then readFrom .negated (some c) d rest
      else readFrom (firstInside false c) (some c) d rest
    | .negated => readFrom (firstInside true c) (some c) d rest
    | .inside negated ranges toEnd =>
      if c == ']' then readFrom .plain (some c) (d.push (bracketPart negated ranges toEnd)) rest
      else
        match nextInside negated ranges toEnd c with
        | .ok mode => readFrom mode (some c) d rest
        | .error fault => .error fault
    | .plain =>
      if c == '?' then readFrom .plain (some c) (d.push .one) rest
      else if c == '[' then readFrom .opened (some c) d rest
      else if c == '{' then readFrom .plain (some c) d.openGroup rest
      else if c == '}' then
        match d.closeGroup with
        | .ok d => readFrom .plain (some c) d rest
        | .error fault => .error fault
      else if c == ',' then readFrom .plain (some c) d.nextBranch rest
      else if c == '\\' then readFrom .escaped (some c) d rest
      else if c == '*' then
        match rest with
        | '*' :: rest =>
          let (d, takesSlash) := d.stars previous rest.head?
          match takesSlash, rest with
          | true, slash :: rest => readFrom .plain (some slash) d rest
          | _, rest => readFrom .plain (some c) d rest
        | rest => readFrom .plain (some c) (d.push .run) rest
      else readFrom .plain (some c) (d.push (.literal c)) rest

/-! ## Matching -/

/-- The slash that separates the parts of a path. -/
def slash : UInt8 := 0x2F

/-- A text and all that is left of it after some of its bytes. -/
def tails : List UInt8 → List (List UInt8)
  | [] => [[]]
  | b :: rest => (b :: rest) :: tails rest

/-- A text and all that is left of it after some bytes that are not slashes. -/
def tailsInName : List UInt8 → List (List UInt8)
  | [] => [[]]
  | b :: rest => (b :: rest) :: if b == slash then [] else tailsInName rest

/-- All that is left of a text after one of its slashes. -/
def afterSlashes : List UInt8 → List (List UInt8)
  | [] => []
  | b :: rest => if b == slash then rest :: afterSlashes rest else afterSlashes rest

/-- What is left of a text after some bytes at its start. -/
def restsAfter (start s : List UInt8) : List (List UInt8) :=
  if start.isPrefixOf s then [s.drop start.length] else []

/-- What is left of a text after a byte that a test accepts. -/
def restsAfterOne (test : UInt8 → Bool) : List UInt8 → List (List UInt8)
  | [] => []
  | b :: rest => if test b then [rest] else []

/-- Whether a byte is in a range of characters. The bytes of a character that has several are ranges
of their own, and the range goes from the last byte of one to the first of the other. -/
def inRange (b : UInt8) (range : Char × Char) : Bool :=
  let first := Text.Utf8.encode (String.singleton range.1)
  let last := Text.Utf8.encode (String.singleton range.2)
  if range.1 == range.2 then first.contains b
  else
    first.dropLast.contains b || last.tail.contains b ||
      (first.getLast?.any (· ≤ b) && last.head?.any (b ≤ ·))

mutual

/-- Whether a part stands for nothing: groups with nothing but empty alternatives do. -/
def Part.isVoid : Part → Bool
  | .anyOf branches => areVoid branches
  | _ => false

/-- Whether all parts of a pattern stand for nothing. -/
def isVoid : List Part → Bool
  | [] => true
  | p :: ps => p.isVoid && isVoid ps

/-- Whether all alternatives stand for nothing. -/
def areVoid : List (List Part) → Bool
  | [] => true
  | branch :: branches => isVoid branch && areVoid branches

end

mutual

/-- What can be left of a text after a part. -/
def Part.rests : Part → List UInt8 → List (List UInt8)
  | .literal c, s => restsAfter (Text.Utf8.encode (String.singleton c)) s
  | .one, s => restsAfterOne (· != slash) s
  | .run, s => tailsInName s
  | .leading, s => s :: afterSlashes s
  | .trailing, s => (restsAfterOne (· == slash) s).flatMap tails
  | .between, s => (restsAfterOne (· == slash) s).flatMap fun rest => rest :: afterSlashes rest
  | .oneOf negated ranges, s => restsAfterOne (fun b => ranges.any (inRange b) != negated) s
  | .anyOf branches, s => if areVoid branches then [s] else branchRests branches s

/-- What can be left of some texts after all parts of a pattern. -/
def restsOf : List Part → List (List UInt8) → List (List UInt8)
  | [], texts => texts
  | p :: ps, texts => restsOf ps (texts.flatMap p.rests).eraseDups

/-- What can be left of a text after one of several alternatives that stand for anything. -/
def branchRests : List (List Part) → List UInt8 → List (List UInt8)
  | [], _ => []
  | branch :: branches, s =>
    (if isVoid branch then [] else restsOf branch [s]) ++ branchRests branches s

end

end Glob

/-- A pattern for paths. -/
structure Glob where
  parts : List Glob.Part

namespace Glob

/-- Reads a pattern. -/
def parse (pattern : String) : Except GlobFault Glob := do
  let d ← readFrom .plain none ⟨[], []⟩ pattern.toList
  return ⟨← d.finish⟩

/-- Whether a path fits the whole pattern. Two stars alone fit every path. -/
def accepts (g : Glob) (path : String) : Bool :=
  match g.parts with
  | [.leading] => true
  | parts => (restsOf parts [Text.Utf8.encode path]).any List.isEmpty

end Glob

end HAtom
