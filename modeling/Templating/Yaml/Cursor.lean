import Templating.Yaml.Char

namespace Templating.Yaml

/-- A place in a YAML text: what is still to read, and how far the place is from the start of the text and of its
line. -/
structure Cursor where
  rest : List Char
  index : Nat
  line : Nat
  column : Nat

namespace Cursor

def start (cs : List Char) : Cursor := ⟨cs, 0, 0, 0⟩

def advance (c : Cursor) : Cursor :=
  match c.rest with
  | [] => c
  | char :: rest =>
    if isBreak char then ⟨rest, c.index + 1, c.line + 1, 0⟩ else ⟨rest, c.index + 1, c.line, c.column + 1⟩

def skip (c : Cursor) : Nat → Cursor
  | 0 => c
  | n + 1 => c.advance.skip n

/-- Passes over characters up to a suffix of what is still to read. -/
def moveTo (c : Cursor) (rest : List Char) : Cursor := c.skip (c.rest.length - rest.length)

def skipWhile (c : Cursor) (p : Char → Bool) : Cursor := c.moveTo (c.rest.dropWhile p)

def head? (c : Cursor) : Option Char := c.rest.head?

def sees (c : Cursor) (char : Char) : Bool := c.rest.head? == some char

/-- Whether a line starts here with a word of three characters that stands alone. -/
def seesMarker (c : Cursor) (marker : String) : Bool :=
  c.column == 0 && marker.toList.isPrefixOf c.rest && startsGap (c.rest.drop 3)

/-- Whether the start or the end of a document is marked here. -/
def seesDocument (c : Cursor) : Bool := c.seesMarker "---" || c.seesMarker "..."

/-- Passes over blanks, then over a comment, and over the break that must follow. -/
def endLine? (c : Cursor) : Option Cursor :=
  let blank := c.skipWhile isBlank
  let end? := if blank.sees '#' then blank.skipWhile (!isBreak ·) else blank
  match end?.head? with
  | none => some end?
  | some char => if isBreak char then some end?.advance else none

end Cursor

end Templating.Yaml
