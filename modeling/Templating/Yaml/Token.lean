import Templating.Yaml.Scalar

namespace Templating.Yaml

inductive Token
  | streamEnd
  | versionDirective (major minor : Nat)
  | tagDirective (handle lead : String)
  | documentStart
  | documentEnd
  | blockSequenceStart
  | blockMappingStart
  | blockEnd
  | flowSequenceStart
  | flowSequenceEnd
  | flowMappingStart
  | flowMappingEnd
  | blockEntry
  | flowEntry
  | key
  | value
  | reference (name : String)
  | anchor (name : String)
  | tag (handle suffix : String)
  | scalar (text : String) (plain : Bool)
deriving DecidableEq

/-- A place where a key may have started. -/
structure PendingKey where
  /-- Whether nothing but a key may stand there. -/
  required : Bool
  /-- The number of tokens before the key. -/
  token : Nat
  index : Nat
  line : Nat
  column : Nat

/-- The tokens of a YAML text that have been read so far. Indentation becomes tokens of its own that open and close
the block collections. A key of one line is recognised only at the colon behind it; its tokens are then put in front
of it. -/
structure Lexer where
  cursor : Cursor
  tokens : Array Token
  /-- The column of the innermost block collection, or -1. -/
  indent : Int
  /-- The columns of the collections around it. -/
  outer : List Int
  /-- Whether a key may start here. -/
  keyAllowed : Bool
  /-- The pending key of the block context. -/
  blockKey : Option PendingKey
  /-- The pending keys of the flow collections, innermost first. -/
  flowKeys : List (Option PendingKey)

namespace Lexer

def start (cs : List Char) : Lexer := ⟨.start cs, #[], -1, [], true, none, []⟩

def inFlow (l : Lexer) : Bool := !l.flowKeys.isEmpty

def push (l : Lexer) (t : Token) : Lexer := { l with tokens := l.tokens.push t }

def insert (l : Lexer) (place : Nat) (t : Token) : Lexer :=
  { l with tokens := l.tokens.insertIdxIfInBounds place t }

def advance (l : Lexer) : Lexer := { l with cursor := l.cursor.advance }

def allowKey (l : Lexer) (allowed : Bool) : Lexer := { l with keyAllowed := allowed }

def pending? (l : Lexer) : Option PendingKey :=
  match l.flowKeys with
  | key :: _ => key
  | [] => l.blockKey

def setPending (l : Lexer) (key : Option PendingKey) : Lexer :=
  match l.flowKeys with
  | _ :: more => { l with flowKeys := key :: more }
  | [] => { l with blockKey := key }

/-- Gives up the pending key, unless it is required. -/
def dropKey? (l : Lexer) : Option Lexer :=
  if l.pending?.any (·.required) then none else some (l.setPending none)

/-- A key is over with its line, and after 1024 characters. -/
def isStale (c : Cursor) (key : PendingKey) : Bool :=
  key.line < c.line || key.index + 1024 < c.index

/-- Gives up the keys that are over, unless one of them is required. -/
def dropStaleKeys? (l : Lexer) : Option Lexer :=
  let stale := isStale l.cursor
  if (l.blockKey :: l.flowKeys).any fun key => key.any fun k => stale k && k.required then none
  else
    let fresh (key : Option PendingKey) := key.filter (!stale ·)
    some { l with blockKey := fresh l.blockKey, flowKeys := l.flowKeys.map fresh }

def noteKey? (l : Lexer) : Option Lexer :=
  if l.keyAllowed then
    let c := l.cursor
    let required := !l.inFlow && l.indent == (c.column : Int)
    l.dropKey?.map (·.setPending (some ⟨required, l.tokens.size, c.index, c.line, c.column⟩))
  else some l

/-- Closes the block collections that are indented more than a column. -/
def unroll (l : Lexer) (column : Int) : Lexer :=
  if l.inFlow then l else close l l.outer
where
  close (l : Lexer) : List Int → Lexer
    | [] => l
    | outer :: more =>
      if column < l.indent then close { l.push .blockEnd with indent := outer, outer := more } more else l

/-- Opens a block collection at a column, unless one is open there. Its token goes to a place among
the tokens. -/
def roll (l : Lexer) (column place : Nat) (t : Token) : Lexer :=
  if !l.inFlow ∧ l.indent < (column : Int) then
    { l.insert place t with indent := column, outer := l.indent :: l.outer }
  else l

/-- Passes over blanks, comments and line breaks up to the next token. Tabs count as blanks only where
they cannot be mistaken for indentation. A byte order mark at the start of the text takes a column as
any other character does. -/
def toNextToken : (fuel : Nat) → Lexer → Lexer
  | 0, l => l
  | fuel + 1, l =>
    let c := l.cursor
    let c := if c.index = 0 ∧ c.sees '\uFEFF' then c.advance else c
    let c := c.skipWhile fun char => char == ' ' || ((l.inFlow || !l.keyAllowed) && char == '\t')
    let c := if c.sees '#' then c.skipWhile (!isBreak ·) else c
    if c.head?.any isBreak then
      toNextToken fuel { l with cursor := c.advance, keyAllowed := l.keyAllowed || !l.inFlow }
    else { l with cursor := c }

/-- Puts the next character aside as a token of its own. -/
def take (l : Lexer) (t : Token) : Lexer := (l.push t).advance

def streamEnd? (l : Lexer) : Option Lexer :=
  (l.unroll (-1)).dropKey?.map fun l => (l.allowKey false).push .streamEnd

def documentMarker? (l : Lexer) (t : Token) : Option Lexer :=
  (l.unroll (-1)).dropKey?.map fun l =>
    { (l.allowKey false).push t with cursor := l.cursor.skip 3 }

def openFlow? (l : Lexer) (t : Token) : Option Lexer :=
  l.noteKey?.map fun l => ({ l with flowKeys := none :: l.flowKeys }.allowKey true).take t

def closeFlow? (l : Lexer) (t : Token) : Option Lexer :=
  l.dropKey?.map fun l => ({ l with flowKeys := l.flowKeys.tail }.allowKey false).take t

def flowEntry? (l : Lexer) : Option Lexer := l.dropKey?.map fun l => (l.allowKey true).take .flowEntry

/-- Opens a block collection here, where one may start. -/
def rollHere? (l : Lexer) (t : Token) : Option Lexer :=
  if l.inFlow then some l
  else if l.keyAllowed then some (l.roll l.cursor.column l.tokens.size t)
  else none

def blockEntry? (l : Lexer) : Option Lexer :=
  (l.rollHere? .blockSequenceStart).bind fun l => l.dropKey?.map fun l => (l.allowKey true).take .blockEntry

def key? (l : Lexer) : Option Lexer :=
  (l.rollHere? .blockMappingStart).bind fun l => l.dropKey?.map fun l => (l.allowKey !l.inFlow).take .key

def value? (l : Lexer) : Option Lexer :=
  match l.pending? with
  | some key =>
    let l := (l.insert key.token .key).roll key.column key.token .blockMappingStart
    some (((l.setPending none).allowKey false).take .value)
  | none => (l.rollHere? .blockMappingStart).map fun l => (l.allowKey !l.inFlow).take .value

/-- Reads a name behind `&` or `*`. -/
def name? (l : Lexer) (t : String → Token) : Option Lexer :=
  l.noteKey?.bind fun l =>
    let name := l.cursor.rest.tail.takeWhile isWord
    let rest := l.cursor.rest.tail.dropWhile isWord
    if name ≠ [] ∧ (startsGap rest ∨ rest.head?.any ("?:,]\x7d%@\x60".toList.contains ·)) then
      some { (l.allowKey false).push (t (String.ofList name)) with cursor := l.cursor.moveTo rest }
    else none

/-- How many bytes follow the first one of a character, and the leading bits of its code point. -/
def leadByte? (byte : Nat) : Option (Nat × Nat) :=
  if byte < 0x80 then some (0, byte)
  else if byte / 0x20 = 6 then some (1, byte % 0x20)
  else if byte / 0x10 = 14 then some (2, byte % 0x10)
  else if byte / 0x08 = 30 then some (3, byte % 0x08)
  else none

/-- Reads the further bytes of a character, each written as `%` and two digits. -/
def trailBytes? : Nat → Nat → List Char → Option (Nat × List Char)
  | 0, value, cs => some (value, cs)
  | n + 1, value, '%' :: cs =>
    (hexNumber? 2 0 cs).bind fun (byte, rest) =>
      if byte / 0x40 = 2 then trailBytes? n (0x40 * value + byte % 0x40) rest else none
  | _ + 1, _, _ => none

def uriEscape? (cs : List Char) : Option (Char × List Char) :=
  (hexNumber? 2 0 cs).bind fun (byte, rest) =>
    (leadByte? byte).bind fun (more, bits) =>
      (trailBytes? more bits rest).bind fun (value, rest) =>
        (charOfNat? value).map fun char => (char, rest)

/-- The characters of a tag beyond letters, digits, `_` and `-`. -/
def isTagMark (verbatim : Bool) (c : Char) : Bool :=
  ";/?:@&=+$.%!~*'()".toList.contains c || (verbatim && ",[]".toList.contains c)

def tagText? (verbatim : Bool) : (fuel : Nat) → List Char → Option (List Char × List Char)
  | 0, _ => none
  | _, [] => some ([], [])
  | fuel + 1, c :: cs =>
    if c = '%' then
      (uriEscape? cs).bind fun (char, rest) =>
        (tagText? verbatim fuel rest).map fun (text, rest) => (char :: text, rest)
    else if isWord c || isTagMark verbatim c then
      (tagText? verbatim fuel cs).map fun (text, rest) => (c :: text, rest)
    else some ([], c :: cs)

/-- Reads `!`, or a word between two of them. What follows the first `!` may also be the start of a
suffix, and the word is then given without a second one. -/
def tagHandle? : List Char → Option (List Char × List Char)
  | '!' :: cs =>
    match cs.dropWhile isWord with
    | '!' :: rest => some ('!' :: cs.takeWhile isWord ++ ['!'], rest)
    | rest => some ('!' :: cs.takeWhile isWord, rest)
  | _ => none

/-- Whether a handle is a word between two `!`. -/
def isNamedHandle (handle : List Char) : Bool := 2 ≤ handle.length && handle.getLast? == some '!'

/-- Reads a tag in one of its three forms. -/
def tagToken? (cs : List Char) : Option (Token × List Char) :=
  match cs with
  | '!' :: '<' :: inner =>
    (tagText? true (inner.length + 1) inner).bind fun (suffix, rest) =>
      match rest with
      | '>' :: rest =>
        if suffix = [] then none else some (.tag "" (String.ofList suffix), rest)
      | _ => none
  | _ =>
    (tagHandle? cs).bind fun (handle, rest) =>
      (tagText? false (rest.length + 1) rest).bind fun (suffix, rest) =>
        if isNamedHandle handle then
          if suffix = [] then none
          else some (.tag (String.ofList handle) (String.ofList suffix), rest)
        else
          match handle.tail ++ suffix with
          | [] => some (.tag "" "!", rest)
          | suffix => some (.tag "!" (String.ofList suffix), rest)

def tag? (l : Lexer) : Option Lexer :=
  l.noteKey?.bind fun l =>
    (tagToken? l.cursor.rest).bind fun (t, rest) =>
      if startsGap rest || (l.inFlow && rest.head? == some ',') then
        some { (l.allowKey false).push t with cursor := l.cursor.moveTo rest }
      else none

def pushScalar (l : Lexer) (s : Scanned) (plain : Bool) : Lexer :=
  { l.push (.scalar (String.ofList s.text) plain) with cursor := s.after }

def blockScalar? (l : Lexer) (folded : Bool) : Option Lexer :=
  l.dropKey?.bind fun l =>
    (Yaml.blockScalar? folded l.indent l.cursor).map fun s => (l.allowKey true).pushScalar s false

def quotedScalar? (l : Lexer) (quote : Char) : Option Lexer :=
  l.noteKey?.bind fun l =>
    (Yaml.quotedScalar? quote l.cursor).map fun s => (l.allowKey false).pushScalar s false

def plainScalar? (l : Lexer) : Option Lexer :=
  l.noteKey?.bind fun l =>
    (Yaml.plainScalar? l.inFlow l.indent l.cursor).map fun s =>
      (l.allowKey s.lineEnded).pushScalar s true

/-- Reads a number of at most nine digits. -/
def versionNumber? (cs : List Char) : Option (Nat × List Char) :=
  let digits := cs.takeWhile Char.isDigit
  if digits = [] ∨ 9 < digits.length then none
  else (String.ofList digits).toNat?.map fun n => (n, cs.dropWhile Char.isDigit)

def versionToken? (cs : List Char) : Option (Token × List Char) :=
  (versionNumber? (cs.dropWhile isBlank)).bind fun (major, rest) =>
    match rest with
    | '.' :: rest => (versionNumber? rest).map fun (minor, rest) => (.versionDirective major minor, rest)
    | _ => none

def tagDirectiveToken? (cs : List Char) : Option (Token × List Char) :=
  (tagHandle? (cs.dropWhile isBlank)).bind fun (handle, rest) =>
    if (isNamedHandle handle || handle == ['!']) && rest.head?.any isBlank then
      let rest := rest.dropWhile isBlank
      (tagText? true (rest.length + 1) rest).bind fun (lead, rest) =>
        if lead ≠ [] ∧ startsGap rest then
          some (.tagDirective (String.ofList handle) (String.ofList lead), rest)
        else none
    else none

/-- Reads a directive; there are two kinds of them. -/
def directive? (l : Lexer) : Option Lexer :=
  (l.unroll (-1)).dropKey?.bind fun l =>
    let cs := l.cursor.rest.tail
    let name := cs.takeWhile isWord
    let rest := cs.dropWhile isWord
    let token? :=
      if !startsGap rest then none
      else if name = "YAML".toList then versionToken? rest
      else if name = "TAG".toList then tagDirectiveToken? rest
      else none
    token?.bind fun (t, rest) =>
      (l.cursor.moveTo rest).endLine?.map fun c => { (l.allowKey false).push t with cursor := c }

/-- Whether a plain scalar starts here. -/
def startsPlain (inFlow : Bool) : List Char → Bool
  | [] => false
  | c :: cs =>
    !(isGap c || "-?:,[]\x7b\x7d#&*!|>'\"%@\x60".toList.contains c) ||
      (c == '-' && !cs.head?.any isBlank) ||
      (!inFlow && (c == '?' || c == ':') && !startsGap cs)

def token? (l : Lexer) (c : Char) : Option Lexer :=
  let flow := l.inFlow
  let aloneOrFlow := flow || startsGap l.cursor.rest.tail
  if l.cursor.column = 0 ∧ c = '%' then l.directive?
  else if l.cursor.seesMarker "---" then l.documentMarker? .documentStart
  else if l.cursor.seesMarker "..." then l.documentMarker? .documentEnd
  else if c = '[' then l.openFlow? .flowSequenceStart
  else if c = '\x7b' then l.openFlow? .flowMappingStart
  else if c = ']' then l.closeFlow? .flowSequenceEnd
  else if c = '\x7d' then l.closeFlow? .flowMappingEnd
  else if c = ',' then l.flowEntry?
  else if c = '-' ∧ startsGap l.cursor.rest.tail then l.blockEntry?
  else if c = '?' ∧ aloneOrFlow then l.key?
  else if c = ':' ∧ aloneOrFlow then l.value?
  else if c = '*' then l.name? .reference
  else if c = '&' then l.name? .anchor
  else if c = '!' then l.tag?
  else if c = '|' ∧ !flow then l.blockScalar? false
  else if c = '>' ∧ !flow then l.blockScalar? true
  else if c = '\'' ∨ c = '"' then l.quotedScalar? c
  else if startsPlain flow l.cursor.rest then l.plainScalar?
  else none

/-- Reads all tokens. Each one takes a character at least, so the characters bound their number. -/
def run? : (fuel : Nat) → Lexer → Option (List Token)
  | 0, _ => none
  | fuel + 1, l =>
    (toNextToken (l.cursor.rest.length + 1) l).dropStaleKeys?.bind fun l =>
      let l := l.unroll l.cursor.column
      match l.cursor.head? with
      | none => l.streamEnd?.map (·.tokens.toList)
      | some c => (l.token? c).bind (run? fuel)

end Lexer

/-- The tokens of a text, if it is made of readable characters and well-formed tokens. -/
def tokens? (text : String) : Option (List Token) :=
  let cs := text.toList
  if cs.all isReadable then (Lexer.start (unifyBreaks cs)).run? (cs.length + 2) else none

end Templating.Yaml
