import Templating.Text.Space
import Templating.Text.Folding

namespace Templating

/-- What a directive asks for. -/
inductive Directive
  /-- The value of a data key, as written. -/
  | data (key : String)
  | inclusion (target : String)
  | layout (target : String)
  | noLayout
  /-- The text that this one wraps. -/
  | slot
deriving DecidableEq

namespace Directive
open Text

/-- Takes a word off the front, whose letters are compared by case folding. -/
def word? : List Char → List Char → Option (List Char)
  | [], cs => some cs
  | _ :: _, [] => none
  | w :: ws, c :: cs => if sameFold w c then word? ws cs else none

/-- Takes white space and a closing delimiter off the front. The delimiter may itself start with
white space: the longest run that leaves it whole is passed over. -/
def closing? (close : List Char) : List Char → Option (List Char)
  | [] => word? close []
  | c :: cs =>
    if isSpace c then (closing? close cs).or (word? close (c :: cs)) else word? close (c :: cs)

def isParenthesis (c : Char) : Bool := c == '(' || c == ')'

/-- Takes a parenthesised argument off the front, white space before it included. Nothing but the
closing parenthesis ends the argument, and it holds at least one character. -/
def argument? (cs : List Char) : Option (List Char × List Char) :=
  match dropSpaces cs with
  | '(' :: inner =>
    match inner.takeWhile (!isParenthesis ·), inner.dropWhile (!isParenthesis ·) with
    | c :: argument, ')' :: rest => some (c :: argument, rest)
    | _, _ => none
  | _ => none

/-- A directive as found between its delimiters, its argument not yet judged. -/
inductive Phrase
  | data (key : List Char)
  | inclusion (argument : List Char)
  | layout (argument : List Char)
  | noLayout
  | slot

/-- Takes `layout(…)` or `!layout` off the front. -/
def layoutPhrase? (cs : List Char) : Option (Phrase × List Char) :=
  match word? "layout".toList cs with
  | some rest => (argument? rest).map fun (argument, rest) => (.layout argument, rest)
  | none => (word? "!layout".toList cs).map fun rest => (.noLayout, rest)

/-- Takes `include(…)`, `slot`, `layout(…)` or `!layout` off the front. White space around a phrase belongs to the
delimiters. -/
def phrase? (cs : List Char) : Option (Phrase × List Char) :=
  match word? "include".toList cs with
  | some rest => (argument? rest).map fun (argument, rest) => (.inclusion argument, rest)
  | none =>
    match word? "slot".toList cs with
    | some rest => some (.slot, rest)
    | none => layoutPhrase? cs

def skipPhrase? (cs : List Char) : Option (Unit × List Char) :=
  (word? "skip".toList cs).map fun rest => ((), rest)

def keyPhrase? (key : List Char) (cs : List Char) : Option (Phrase × List Char) :=
  (word? key cs).map fun rest => (.data (cs.take key.length), rest)

/-- The text between a pair of quotes, if it is enclosed in one. -/
def quoted? (quote : Char) : List Char → Option (List Char)
  | c :: cs => if c = quote ∧ cs.getLast? = some quote then some cs.dropLast else none
  | [] => none

/-- The text without one pair of quotes around it. -/
def unquote (cs : List Char) : List Char :=
  ((quoted? '"' cs).or (quoted? '\'' cs)).getD cs

/-- What an argument names; an argument that is empty without its quotes names nothing. -/
def target? (argument : List Char) : Option String :=
  match trimSpaces (unquote (trimSpaces argument)) with
  | [] => none
  | target => some (String.ofList target)

/-- The directive of a phrase, unless its argument names nothing. -/
def ofPhrase? : Phrase → Option Directive
  | .data key => some (.data (String.ofList key))
  | .inclusion argument => (target? argument).map .inclusion
  | .layout argument => (target? argument).map .layout
  | .noLayout => some .noLayout
  | .slot => some .slot

end Directive

end Templating
