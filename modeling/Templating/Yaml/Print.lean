import Templating.Text.Offset
import Templating.Yaml.Value

namespace Templating.Yaml

/-- Text being written, and where its end stands. -/
structure Pen where
  text : List Char
  column : Nat
  /-- Whether the text ends with white space. -/
  spaced : Bool
  /-- Whether nothing but indentation and indicators stands on the line. -/
  indented : Bool

namespace Pen

def new : Pen := ⟨[], 0, true, true⟩

def write (p : Pen) (cs : List Char) : Pen :=
  { p with text := p.text ++ cs, column := p.column + cs.length }

def breakWith (p : Pen) (c : Char) : Pen := { p with text := p.text ++ [c], column := 0 }

/-- Goes to a column of a line with nothing else on it. -/
def indent (p : Pen) (column : Nat) : Pen :=
  let p := if !p.indented || column < p.column || (p.column == column && !p.spaced) then p.breakWith '\n' else p
  { p.write (List.replicate (column - p.column) ' ') with spaced := true, indented := true }

/-- Writes text behind a space, unless there is white space already. -/
def word (p : Pen) (cs : List Char) : Pen :=
  let p := if p.spaced then p else p.write [' ']
  { p.write cs with spaced := false, indented := false }

/-- Writes an indicator that a further indicator may follow on the line. -/
def indicator (p : Pen) (c : Char) : Pen :=
  let p := if p.spaced then p else p.write [' ']
  { p.write [c] with spaced := false }

/-- Writes text right behind what is there. -/
def attach (p : Pen) (cs : List Char) : Pen := { p.write cs with spaced := false, indented := false }

end Pen

/-- Whether a character is written as it is in a scalar. -/
def isPrintable (c : Char) : Bool :=
  let n := c.toNat
  n == 0xA || (0x20 ≤ n && n ≤ 0x7E) || (0xA0 ≤ n && n ≤ 0xFFFD && n != 0xFEFF)

/-- The line breaks that a written scalar may hold. -/
def isWrittenBreak (c : Char) : Bool :=
  c == '\n' || c == '\r' || c == '\x85' || c == '\u2028' || c == '\u2029'

def endsWord (cs : List Char) : Bool := cs.head?.all fun c => isBlank c || isWrittenBreak c

/-- Whether a character that is not the first of a plain scalar makes it read as something else. -/
def breaksPlain (before : Char) (c : Char) (after : List Char) : Bool :=
  (c == ':' && endsWord after) || (c == '#' && (isBlank before || isWrittenBreak before))

/-- Whether the first character of a plain scalar makes it read as something else. -/
def breaksPlainStart (c : Char) (after : List Char) : Bool :=
  "#,[]\x7b\x7d&*!|>'\"%@\x60".toList.contains c || ((c == '?' || c == ':' || c == '-') && endsWord after)

/-- Whether a character inside a plain scalar makes it read as something else. -/
def hasIndicator : Char → List Char → Bool
  | _, [] => false
  | before, c :: cs => breaksPlain before c cs || hasIndicator c cs

def hasPair (p : Char → Char → Bool) : List Char → Bool
  | a :: b :: cs => p a b || hasPair p (b :: cs)
  | _ => false

/-- Whether a text can stand in a block collection without quotes. -/
def isPlain (cs : List Char) : Bool :=
  match cs with
  | [] => true
  | c :: rest =>
    !("---".toList.isPrefixOf cs || "...".toList.isPrefixOf cs || breaksPlainStart c rest ||
      hasIndicator c rest || c == ' ' || cs.getLast? == some ' ' ||
      cs.any fun c => isWrittenBreak c || !isPrintable c)

/-- Whether a text can stand in single quotes. -/
def isSingleQuotable (cs : List Char) : Bool :=
  cs.all isPrintable &&
    !hasPair (fun a b => (a == ' ' && isWrittenBreak b) || (isWrittenBreak a && b == ' ')) cs

/-- Whether a text can be written as lines of their own. -/
def isLiterable (cs : List Char) : Bool :=
  cs != [] && cs.getLast? != some ' ' && cs.all isPrintable &&
    !hasPair (fun a b => a == ' ' && isWrittenBreak b) cs

def hexDigit (n : Nat) : Char := if n < 10 then Char.ofNat ('0'.toNat + n) else Char.ofNat ('A'.toNat + n - 10)

def hexDigits : Nat → Nat → List Char
  | 0, _ => []
  | digits + 1, n => hexDigits digits (n / 16) ++ [hexDigit (n % 16)]

def escaped (c : Char) : List Char :=
  match c with
  | '\x00' => ['\\', '0']
  | '\x07' => ['\\', 'a']
  | '\x08' => ['\\', 'b']
  | '\t' => ['\\', 't']
  | '\n' => ['\\', 'n']
  | '\x0B' => ['\\', 'v']
  | '\x0C' => ['\\', 'f']
  | '\r' => ['\\', 'r']
  | '\x1B' => ['\\', 'e']
  | '"' => ['\\', '"']
  | '\\' => ['\\', '\\']
  | '\x85' => ['\\', 'N']
  | '\u2028' => ['\\', 'L']
  | '\u2029' => ['\\', 'P']
  | c =>
    if isPrintable c then [c]
    else if c.toNat ≤ 0xFF then '\\' :: 'x' :: hexDigits 2 c.toNat
    else if c.toNat ≤ 0xFFFF then '\\' :: 'u' :: hexDigits 4 c.toNat
    else '\\' :: 'U' :: hexDigits 8 c.toNat

/-- Writes the inside of a scalar in single quotes. The first break of a row is doubled. -/
def writeSingle (column : Nat) : (afterBreak : Bool) → Pen → List Char → Pen
  | afterBreak, p, [] => if afterBreak then p.indent column else p
  | afterBreak, p, c :: cs =>
    if isWrittenBreak c then
      let p := if !afterBreak ∧ c = '\n' then p.breakWith '\n' else p
      writeSingle column true { p.breakWith c with indented := true } cs
    else
      let p := if afterBreak then p.indent column else p
      writeSingle column false (p.attach (if c = '\'' then ['\'', '\''] else [c])) cs

def writeLines (column : Nat) : (afterBreak : Bool) → Pen → List Char → Pen
  | _, p, [] => p
  | afterBreak, p, c :: cs =>
    if isWrittenBreak c then writeLines column true { p.breakWith c with indented := true } cs
    else
      let p := if afterBreak then p.indent column else p
      writeLines column false { p.write [c] with indented := false } cs

/-- The marks behind `|`: the indentation if the text starts with white space, and how its end is to
be read. -/
def literalMarks (cs : List Char) : List Char :=
  let start := if cs.head?.any fun c => c == ' ' || isWrittenBreak c then ['2'] else []
  let stop := match cs.reverse with
    | [] => ['-']
    | [last] => if isWrittenBreak last then ['+'] else ['-']
    | last :: before :: _ =>
      if !isWrittenBreak last then ['-'] else if isWrittenBreak before then ['+'] else []
  start ++ stop

inductive Style
  | plain
  | single
  | double
  | literal
deriving DecidableEq

/-- A scalar as text, with the style it asks for. -/
structure ScalarForm where
  text : List Char
  style : Style

/-- A text that reads as something else without quotes asks for them. -/
def stringForm (text : String) : ScalarForm :=
  let cs := text.toList
  let style :=
    if cs.contains '\n' then .literal
    else
      match plainForm text with
      | .string => if isPaddedNumber cs then .single else .plain
      | _ => .single
  ⟨cs, style⟩

/-- The scalar that a value is written as, unless it is a collection or has a tag. -/
def Value.scalarForm? : Value → Option ScalarForm
  | .null => some ⟨"null".toList, .plain⟩
  | .bool b => some ⟨(if b then "true" else "false").toList, .plain⟩
  | .integer n => some ⟨(toString n).toList, .plain⟩
  | .float x => some ⟨(floatText x).toList, .plain⟩
  | .string text => some (stringForm text)
  | .sequence _ | .mapping _ | .tagged .. => none

/-- The style that a scalar gets: the one it asks for if the text can stand in it at this place. -/
def ScalarForm.styleAt (f : ScalarForm) (asKey : Bool) : Style :=
  let multiline := f.text.any isWrittenBreak
  let wanted := if asKey && multiline then .double else f.style
  let wanted :=
    if wanted == .plain && (!isPlain f.text || (f.text.isEmpty && asKey)) then .single else wanted
  if wanted == .single && !isSingleQuotable f.text then .double
  else if wanted == .literal && (!isLiterable f.text || asKey) then .double
  else wanted

/-- Writes a scalar whose continuation lines are indented to a column. -/
def ScalarForm.print (f : ScalarForm) (column : Nat) (asKey : Bool) (p : Pen) : Pen :=
  match f.styleAt asKey with
  | .plain => if f.text.isEmpty then p.attach [] else p.word f.text
  | .single => (writeSingle column false (p.word ['\'']) f.text).attach ['\'']
  | .double => (p.word ('"' :: f.text.flatMap escaped)).attach ['"']
  | .literal =>
    let p := (p.word ['|']).attach (literalMarks f.text)
    writeLines column true { p.breakWith '\n' with spaced := true, indented := true } f.text

/-- The characters of a tag that are written as they are. -/
def isTagChar (c : Char) : Bool := isWord c || ";/?:@&=+$,.~*'()[]!".toList.contains c

/-- A tag with its mark. Characters that a tag cannot hold are written in their bytes. -/
def tagText (name : String) : List Char :=
  if name = "!" then "!<!>".toList
  else '!' :: name.toList.flatMap fun c =>
    if isTagChar c then [c]
    else (String.singleton c).toUTF8.toList.flatMap fun byte => '%' :: hexDigits 2 byte.toNat

/-- Whether a key fits on one line with its colon: it is short, and a scalar of one line or an empty
collection. -/
def isSimpleKey (tagLength : Nat) : Value → Bool
  | .tagged name v => tagLength == 0 && isSimpleKey (name.utf8ByteSize + 1) v
  | .sequence items => items.isEmpty && tagLength ≤ 128
  | .mapping entries => entries.isEmpty && tagLength ≤ 128
  | v =>
    match v.scalarForm? with
    | some f => !f.text.any isWrittenBreak && tagLength + Text.byteLength f.text ≤ 128
    | none => false

structure Place where
  /-- The column of the collection around it, unless there is none. -/
  column : Option Nat
  /-- Whether it is a part of a mapping. -/
  inMapping : Bool
  /-- Whether it is a key on the line of its value. -/
  asKey : Bool

/-- The column of a collection at a place. A sequence that starts on a new line of a mapping is not
indented further. -/
def Place.inner (place : Place) (sameColumn : Bool) : Nat :=
  match place.column with
  | none => 0
  | some column => if sameColumn then column else column + 2

def printScalar (place : Place) (p : Pen) (f : ScalarForm) : Pen :=
  f.print (match place.column with | none => 2 | some column => column + 2) place.asKey p

mutual

def printValue (place : Place) (p : Pen) : Value → Pen
  | .tagged name v => printValue place (p.word (tagText name)) v
  | .sequence [] => p.word ['[', ']']
  | .mapping [] => p.word ['\x7b', '\x7d']
  | .sequence items => printItems (place.inner (place.inMapping && !p.indented)) p items
  | .mapping entries => printEntries (place.inner false) p entries
  | v => (v.scalarForm?.map (printScalar place p)).getD p

def printItems (column : Nat) (p : Pen) : List Value → Pen
  | [] => p
  | item :: items =>
    printItems column (printValue ⟨some column, false, false⟩ ((p.indent column).indicator '-') item) items

def printEntries (column : Nat) (p : Pen) : List (Value × Value) → Pen
  | [] => p
  | (key, value) :: entries =>
    let p := p.indent column
    let p :=
      if isSimpleKey 0 key then (printValue ⟨some column, true, true⟩ p key).attach [':']
      else ((printValue ⟨some column, true, false⟩ (p.indicator '?') key).indent column).indicator ':'
    printEntries column (printValue ⟨some column, true, false⟩ p value) entries

end

/-- A value as YAML text in block style, on lines of any length. A text that would read as something else is quoted.
-/
def Value.print (v : Value) : String := String.ofList (printValue ⟨none, false, false⟩ .new v).text

end Templating.Yaml
