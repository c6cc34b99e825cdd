namespace Templating.Yaml

/-- Whether a character may stand in a YAML text at all. -/
def isReadable (c : Char) : Bool :=
  let n := c.toNat
  n == 0x9 || n == 0xA || n == 0xD || (0x20 ≤ n && n ≤ 0x7E) || n == 0x85 ||
    (0xA0 ≤ n && n ≤ 0xFFFD) || 0x10000 ≤ n

/-- Brings the line breaks to one form: the pairs and single characters that end a line become a line feed, and the
two separators of Unicode stay as they are. -/
def unifyBreaks : List Char → List Char
  | [] => []
  | '\r' :: '\n' :: cs => '\n' :: unifyBreaks cs
  | c :: cs => (if c = '\r' ∨ c = '\x85' then '\n' else c) :: unifyBreaks cs

/-- Whether a character ends a line, once the breaks have one form. -/
def isBreak (c : Char) : Bool := c == '\n' || c == '\u2028' || c == '\u2029'

def isBlank (c : Char) : Bool := c == ' ' || c == '\t'

def isGap (c : Char) : Bool := isBlank c || isBreak c

/-- Whether a text is at its end or starts with white space. -/
def startsGap (cs : List Char) : Bool := cs.head?.all isGap

/-- Letters, digits, `_` and `-`, of ASCII alone. -/
def isWord (c : Char) : Bool := c.isAlphanum || c == '_' || c == '-'

def hexValue? (c : Char) : Option Nat :=
  if c.isDigit then some (c.toNat - '0'.toNat)
  else if 'a' ≤ c ∧ c ≤ 'f' then some (c.toNat - 'a'.toNat + 10)
  else if 'A' ≤ c ∧ c ≤ 'F' then some (c.toNat - 'A'.toNat + 10)
  else none

/-- The value of a number of hexadecimal digits at the front, with the rest. -/
def hexNumber? : Nat → Nat → List Char → Option (Nat × List Char)
  | 0, value, cs => some (value, cs)
  | _ + 1, _, [] => none
  | n + 1, value, c :: cs => (hexValue? c).bind fun digit => hexNumber? n (16 * value + digit) cs

def charOfNat? (n : Nat) : Option Char := if n.isValidChar then some (Char.ofNat n) else none

end Templating.Yaml
