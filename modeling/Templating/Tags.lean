import Templating.Text.Space
import Templating.Text.Lowercase

namespace Templating

structure Delimiters where
  opening : String
  closing : String
deriving DecidableEq

/-- One pair of delimiters for data keys and one for the other directives. -/
structure Tags where
  data : Delimiters
  directive : Delimiters
deriving DecidableEq

inductive TagError
  | emptyData
  | emptyDirective
deriving DecidableEq

def TagError.message : TagError → String
  | .emptyData => "data delimiters must not be empty"
  | .emptyDirective => "directive delimiters must not be empty"

namespace Tags

def default : Tags := ⟨⟨"\x7b\x7b", "\x7d\x7d"⟩, ⟨"<!--", "-->"⟩⟩

instance : Inhabited Tags := ⟨default⟩

def coincide (tags : Tags) : Bool := tags.data == tags.directive

end Tags

def Delimiters.hasEmpty (d : Delimiters) : Bool := d.opening == "" || d.closing == ""

/-- The words that mean a directive, and are no data keys where the delimiters coincide. -/
def directiveWords : List String := ["skip", "slot", "layout", "include", "!layout"]

/-- The form in which keys are compared: without white space around it and in lower case. -/
def keyForm (key : String) : String := Text.lowercase (Text.trim key)

/-- Longer keys come first, and keys of one length in alphabetical order. -/
def keyBefore (a b : String) : Bool :=
  b.utf8ByteSize < a.utf8ByteSize || (a.utf8ByteSize == b.utf8ByteSize && decide (a ≤ b))

/-- The keys a scan looks for, in the order in which it tries them. -/
def scanKeys (tags : Tags) (keys : List String) : List String :=
  let usable := (keys.map keyForm).filter fun key =>
    key != "" && !(tags.coincide && directiveWords.contains key)
  usable.eraseDups.mergeSort keyBefore

end Templating
