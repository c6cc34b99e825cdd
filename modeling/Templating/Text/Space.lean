import Templating.Text.Ranges

namespace Templating.Text

/-- The characters with the property White_Space. The zero width space and the byte order mark are not among them. -/
def whiteSpace : Ranges :=
  [(0x9, 0xD), (0x20, 0x20), (0x85, 0x85), (0xA0, 0xA0), (0x1680, 0x1680), (0x2000, 0x200A),
    (0x2028, 0x2029), (0x202F, 0x202F), (0x205F, 0x205F), (0x3000, 0x3000)]

def isSpace (c : Char) : Bool := whiteSpace.has c

def dropSpaces (cs : List Char) : List Char := cs.dropWhile isSpace

/-- The text without white space at its end. -/
def dropSpacesRight : List Char → List Char
  | [] => []
  | c :: cs =>
    match dropSpacesRight cs with
    | [] => if isSpace c then [] else [c]
    | kept => c :: kept

/-- The text without white space at either end. -/
def trimSpaces (cs : List Char) : List Char := dropSpacesRight (dropSpaces cs)

def trim (s : String) : String := String.ofList (trimSpaces s.toList)

end Templating.Text
