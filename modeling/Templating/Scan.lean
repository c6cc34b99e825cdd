import Templating.Directive
import Templating.Tags
import Templating.Text.Offset

namespace Templating

/-- A directive and where it stands, in bytes. -/
structure Hit where
  start : Nat
  stop : Nat
  directive : Directive
deriving DecidableEq

/-- The text of a hit, delimiters included. -/
def Hit.text (hit : Hit) (source : String) : String := Text.slice source hit.start hit.stop

/-- What a scan looks for: delimiters that are not empty, and data keys in the order of trial. -/
structure Scanner where
  tags : Tags
  keys : List String
  data_usable : tags.data.hasEmpty = false
  directive_usable : tags.directive.hasEmpty = false

namespace Scanner
open Text Directive

def new (tags : Tags) (keys : List String) : Except TagError Scanner :=
  if data : tags.data.hasEmpty then .error .emptyData
  else if directive : tags.directive.hasEmpty then .error .emptyDirective
  else .ok ⟨tags, scanKeys tags keys, by simpa using data, by simpa using directive⟩

/-- Takes an opening delimiter, a phrase and a closing delimiter off the front. -/
def enclosed? {α : Type} (d : Delimiters) (phrase? : List Char → Option (α × List Char))
    (cs : List Char) : Option (α × List Char) :=
  (word? d.opening.toList cs).bind fun inner =>
    (phrase? (dropSpaces inner)).bind fun (found, rest) =>
      (closing? d.closing.toList rest).map fun rest => (found, rest)

/-- Takes the first key that has its closing delimiter behind it off the front. -/
def keyed? (d : Delimiters) (keys : List String) (cs : List Char) : Option (Phrase × List Char) :=
  (word? d.opening.toList cs).bind fun inner =>
    keys.findSome? fun key =>
      (keyPhrase? key.toList (dropSpaces inner)).bind fun (found, rest) =>
        (closing? d.closing.toList rest).map fun rest => (found, rest)

/-- Takes a match off the front. At one place a directive in directive delimiters comes before a data key, and the
data keys come in the order of `scanKeys`. -/
def match? (s : Scanner) (cs : List Char) : Option (Phrase × List Char) :=
  (enclosed? s.tags.directive phrase? cs).or (keyed? s.tags.data s.keys cs)

def layoutMatch? (s : Scanner) (cs : List Char) : Option (Phrase × List Char) :=
  enclosed? s.tags.directive layoutPhrase? cs

/-- The characters that a match took off `cs`, if `rest` remains. -/
def taken (cs rest : List Char) : List Char := cs.take (cs.length - rest.length)

/-- The first match that is a directive. A scan goes from left to right and never looks inside a match again: the
first `covered` characters lie inside an earlier match, and `place` is the offset of the front. -/
def firstHit (recognise : List Char → Option (Phrase × List Char)) :
    (covered place : Nat) → List Char → Option Hit
  | _, _, [] => none
  | covered + 1, place, c :: cs => firstHit recognise covered (place + c.utf8Size) cs
  | 0, place, c :: cs =>
    match recognise (c :: cs) with
    | none => firstHit recognise 0 (place + c.utf8Size) cs
    | some (phrase, rest) =>
      match ofPhrase? phrase with
      | some directive => some ⟨place, place + byteLength (taken (c :: cs) rest), directive⟩
      | none => firstHit recognise ((taken (c :: cs) rest).length - 1) (place + c.utf8Size) cs

/-- The last match that is a directive, none of them overlapping an earlier one. -/
def lastHit (recognise : List Char → Option (Phrase × List Char)) :
    (covered place : Nat) → List Char → Option Hit
  | _, _, [] => none
  | covered + 1, place, c :: cs => lastHit recognise covered (place + c.utf8Size) cs
  | 0, place, c :: cs =>
    match recognise (c :: cs) with
    | none => lastHit recognise 0 (place + c.utf8Size) cs
    | some (phrase, rest) =>
      (lastHit recognise ((taken (c :: cs) rest).length - 1) (place + c.utf8Size) cs).or
        ((ofPhrase? phrase).map fun directive =>
          ⟨place, place + byteLength (taken (c :: cs) rest), directive⟩)

def next? (s : Scanner) (source : String) (start : Nat) : Option Hit :=
  firstHit s.match? 0 start (dropBytes start source.toList)

/-- The layout directive in effect for a text: the last one. -/
def layout? (s : Scanner) (source : String) : Option Hit :=
  lastHit s.layoutMatch? 0 0 source.toList

def occurs {α : Type} (recognise : List Char → Option α) : List Char → Bool
  | [] => false
  | c :: cs => (recognise (c :: cs)).isSome || occurs recognise cs

/-- Whether a text asks to be left alone. -/
def skips (s : Scanner) (source : String) : Bool :=
  occurs (enclosed? s.tags.directive skipPhrase?) source.toList

end Scanner

end Templating
