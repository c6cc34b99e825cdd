import Templating.Yaml.Cursor

namespace Templating.Yaml

/-- What the white space between two pieces of a scalar stands for. It is kept where it holds no line break; where it
does, the blanks go and the breaks fold: a single one is a space, and of several the first is dropped. -/
def foldGap (gap : List Char) : List Char :=
  match gap.filter isBreak with
  | [] => gap
  | ['\n'] => [' ']
  | '\n' :: more => more
  | breaks => breaks

/-- A scalar read from a text, and the place behind it. -/
structure Scanned where
  text : List Char
  after : Cursor
  /-- Whether the white space passed over behind the text holds a line break. -/
  lineEnded : Bool

namespace Scanned

def prepend (cs : List Char) (s : Scanned) : Scanned := { s with text := cs ++ s.text }

end Scanned

/-- The leading piece of a plain scalar without white space, with the rest. -/
def plainPiece? (inFlow : Bool) : List Char → Option (List Char × List Char)
  | [] => some ([], [])
  | c :: cs =>
    if isGap c then some ([], c :: cs)
    else if c = ':' ∧ inFlow ∧ cs.head?.any (",?[]\x7b\x7d".toList.contains ·) then none
    else if (c = ':' ∧ startsGap cs) ∨ (inFlow ∧ ",[]\x7b\x7d".toList.contains c) then some ([], c :: cs)
    else (plainPiece? inFlow cs).map fun (piece, rest) => (c :: piece, rest)

/-- Whether white space holds a tab in the indentation of a line. -/
def tabIndents (indent : Int) : (inIndentation : Bool) → (column : Nat) → List Char → Bool
  | _, _, [] => false
  | inIndentation, column, c :: cs =>
    if isBreak c then tabIndents indent true 0 cs
    else (inIndentation && c == '\t' && decide ((column : Int) < indent)) ||
      tabIndents indent inIndentation (column + 1) cs

/-- Reads a plain scalar from a piece on. `gap` stands for the white space before the piece, and
`lineEnded` tells whether it held a break. -/
def plainFrom (inFlow : Bool) (indent : Int) :
    (fuel : Nat) → Cursor → (gap : List Char) → (lineEnded : Bool) → Option Scanned
  | 0, c, _, lineEnded => some ⟨[], c, lineEnded⟩
  | fuel + 1, c, gap, lineEnded =>
    if c.seesDocument || c.sees '#' then some ⟨[], c, lineEnded⟩
    else
      (plainPiece? inFlow c.rest).bind fun (piece, rest) =>
        if piece = [] then some ⟨[], c, lineEnded⟩
        else
          let white := rest.takeWhile isGap
          let before := c.moveTo rest
          let after := before.moveTo (rest.drop white.length)
          if tabIndents indent false before.column white then none
          else if white = [] then some ⟨gap ++ piece, before, false⟩
          else if !inFlow ∧ (after.column : Int) < indent then
            some ⟨gap ++ piece, after, white.any isBreak⟩
          else
            (plainFrom inFlow indent fuel after (foldGap white) (white.any isBreak)).map
              (·.prepend (gap ++ piece))

def plainScalar? (inFlow : Bool) (indent : Int) (c : Cursor) : Option Scanned :=
  plainFrom inFlow (indent + 1) (c.rest.length + 1) c [] false

structure QuotedPiece where
  text : List Char
  rest : List Char
  /-- Whether the piece ends with a line break that a backslash hides. -/
  continued : Bool

/-- The leading piece of a scalar in single quotes; a doubled quote stands for one. -/
def singlePiece : List Char → QuotedPiece
  | '\'' :: '\'' :: cs => let p := singlePiece cs; { p with text := '\'' :: p.text }
  | '\'' :: cs => ⟨[], '\'' :: cs, false⟩
  | [] => ⟨[], [], false⟩
  | c :: cs =>
    if isGap c then ⟨[], c :: cs, false⟩ else let p := singlePiece cs; { p with text := c :: p.text }

/-- The characters that one letter after a backslash stands for. -/
def letterEscape? : Char → Option Char
  | '0' => some '\x00'
  | 'a' => some '\x07'
  | 'b' => some '\x08'
  | 't' | '\t' => some '\t'
  | 'n' => some '\n'
  | 'v' => some '\x0B'
  | 'f' => some '\x0C'
  | 'r' => some '\r'
  | 'e' => some '\x1B'
  | ' ' => some ' '
  | '"' => some '"'
  | '/' => some '/'
  | '\\' => some '\\'
  | 'N' => some '\x85'
  | '_' => some '\xA0'
  | 'L' => some '\u2028'
  | 'P' => some '\u2029'
  | _ => none

/-- How many hexadecimal digits follow a letter after a backslash. -/
def hexEscapeDigits? : Char → Option Nat
  | 'x' => some 2
  | 'u' => some 4
  | 'U' => some 8
  | _ => none

/-- The character of an escape, without its backslash, with the rest. -/
def escape? : List Char → Option (Char × List Char)
  | [] => none
  | c :: cs =>
    match letterEscape? c with
    | some char => some (char, cs)
    | none =>
      (hexEscapeDigits? c).bind fun digits =>
        (hexNumber? digits 0 cs).bind fun (value, rest) =>
          (charOfNat? value).map fun char => (char, rest)

def doublePiece? : (fuel : Nat) → List Char → Option QuotedPiece
  | 0, _ => none
  | _, [] => some ⟨[], [], false⟩
  | fuel + 1, c :: cs =>
    if isGap c || c == '"' then some ⟨[], c :: cs, false⟩
    else if c = '\\' then
      if cs.head?.any isBreak then some ⟨[], cs.tail, true⟩
      else
        (escape? cs).bind fun (char, rest) =>
          (doublePiece? fuel rest).map fun p => { p with text := char :: p.text }
    else (doublePiece? fuel cs).map fun p => { p with text := c :: p.text }

def quotedFrom (quote : Char) : (fuel : Nat) → Cursor → Option Scanned
  | 0, _ => none
  | fuel + 1, c =>
    if c.seesDocument || c.rest.isEmpty then none
    else
      let piece? := if quote = '"' then doublePiece? (c.rest.length + 1) c.rest else some (singlePiece c.rest)
      piece?.bind fun piece =>
        if piece.rest.head? = some quote then some ⟨piece.text, c.moveTo piece.rest.tail, false⟩
        else
          let white := piece.rest.takeWhile isGap
          let gap := if piece.continued then white.filter isBreak else foldGap white
          (quotedFrom quote fuel (c.moveTo (piece.rest.drop white.length))).map
            (·.prepend (piece.text ++ gap))

def quotedScalar? (quote : Char) (c : Cursor) : Option Scanned :=
  quotedFrom quote (c.rest.length + 1) c.advance

/-- What becomes of the line breaks at the end of a block scalar. -/
inductive Chomping
  | strip
  | clip
  | keep
deriving DecidableEq

structure BlockHeader where
  chomping : Chomping
  /-- The indentation beyond that of the collection around it, if it is given. -/
  increment : Option Nat

def chomping? : List Char → Option (Chomping × List Char)
  | '-' :: cs => some (.strip, cs)
  | '+' :: cs => some (.keep, cs)
  | _ => none

def increment? : List Char → Option (Nat × List Char)
  | c :: cs => if c.isDigit then some (c.toNat - '0'.toNat, cs) else none
  | [] => none

/-- Reads the indicators behind `|` or `>`, in either order; the indentation is not zero. -/
def blockHeader? (cs : List Char) : Option (BlockHeader × List Char) :=
  let (chomping, increment, rest) :=
    match chomping? cs with
    | some (chomping, cs) =>
      match increment? cs with
      | some (n, cs) => (chomping, some n, cs)
      | none => (chomping, none, cs)
    | none =>
      match increment? cs with
      | some (n, cs) =>
        match chomping? cs with
        | some (chomping, cs) => (chomping, some n, cs)
        | none => (.clip, some n, cs)
      | none => (.clip, none, cs)
  if increment = some 0 then none else some (⟨chomping, increment⟩, rest)

/-- Passes over spaces up to a column; a column of zero is none. -/
def skipIndentation (indent : Nat) : (fuel : Nat) → Cursor → Cursor
  | 0, c => c
  | fuel + 1, c =>
    if (indent = 0 ∨ c.column < indent) ∧ c.sees ' ' then skipIndentation indent fuel c.advance else c

/-- Passes over empty lines and the indentation of the next line. Gives the breaks, the place, and
the indentation, which the deepest of these lines decides if it was zero. -/
def blockBreaks? (parent : Int) (indent : Nat) :
    (fuel deepest : Nat) → Cursor → Option (List Char × Cursor × Nat)
  | 0, _, _ => none
  | fuel + 1, deepest, c =>
    let c := skipIndentation indent (c.rest.length + 1) c
    let deepest := max deepest c.column
    if (indent = 0 ∨ c.column < indent) ∧ c.sees '\t' then none
    else
      match c.head? with
      | some char =>
        if isBreak char then
          (blockBreaks? parent indent fuel deepest c.advance).map fun (breaks, rest) =>
            (char :: breaks, rest)
        else some ([], c, found deepest)
      | none => some ([], c, found deepest)
where
  /-- The indentation, given or found. -/
  found (deepest : Nat) : Nat := if indent = 0 then max (max deepest (parent + 1).toNat) 1 else indent

/-- The lines of a block scalar, and the breaks behind the last of them. -/
structure BlockLines where
  text : List Char
  /-- The break that ends the last line. -/
  lastBreak : List Char
  /-- The breaks of the empty lines behind it. -/
  emptyLines : List Char
  after : Cursor

/-- Reads the lines of a block scalar. `lastBreak` and `emptyLines` are the breaks before this line,
and `lastBlank` tells whether the line before them started with a blank. -/
def blockLines? (folded : Bool) (parent : Int) (indent : Nat) :
    (fuel : Nat) → Cursor → (lastBreak emptyLines : List Char) → (lastBlank : Bool) → Option BlockLines
  | 0, _, _, _, _ => none
  | fuel + 1, c, lastBreak, emptyLines, lastBlank =>
    if c.column = indent ∧ c.rest ≠ [] then
      let blank := c.head?.any isBlank
      let joint :=
        if folded && lastBreak == ['\n'] && !lastBlank && !blank then
          if emptyLines = [] then [' '] else emptyLines
        else lastBreak ++ emptyLines
      let line := c.rest.takeWhile (!isBreak ·)
      let lineEnd := c.moveTo (c.rest.drop line.length)
      (blockBreaks? parent indent (c.rest.length + 1) 0 lineEnd.advance).bind fun (breaks, next, _) =>
        (blockLines? folded parent indent fuel next (lineEnd.rest.take 1) breaks blank).map fun lines =>
          { lines with text := joint ++ line ++ lines.text }
    else some ⟨[], lastBreak, emptyLines, c⟩

def blockScalar? (folded : Bool) (parent : Int) (c : Cursor) : Option Scanned :=
  (blockHeader? c.advance.rest).bind fun (header, rest) =>
    (c.moveTo rest).endLine?.bind fun body =>
      let indent := match header.increment with
        | some n => (max parent 0).toNat + n
        | none => 0
      (blockBreaks? parent indent (c.rest.length + 1) 0 body).bind fun (breaks, first, indent) =>
        (blockLines? folded parent indent (c.rest.length + 1) first [] breaks false).map fun lines =>
          let tail := match header.chomping with
            | .strip => []
            | .clip => lines.lastBreak
            | .keep => lines.lastBreak ++ lines.emptyLines
          ⟨lines.text ++ tail, lines.after, true⟩

end Templating.Yaml
