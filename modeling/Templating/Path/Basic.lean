namespace Templating

/-- A Unix path. It is kept as it was written; its meaning is the list of its components, in which repeated and
trailing separators and inner `.` segments are gone. -/
structure Path where
  text : String
deriving DecidableEq, Inhabited

namespace Path

inductive Component
  /-- The leading separator of a rooted path. -/
  | root
  /-- A leading `.` of a relative path. -/
  | current
  | parent
  | name (text : String)
deriving DecidableEq

/-- The parts of a text between its `/` characters, the empty ones included. -/
def segments : List Char → List (List Char)
  | [] => [[]]
  | c :: cs =>
    match segments cs with
    | [] => [[c]]
    | first :: more => if c = '/' then [] :: first :: more else (c :: first) :: more

/-- The component of an inner segment; empty and `.` segments have none. -/
def Component.ofSegment? (segment : List Char) : Option Component :=
  if segment = [] ∨ segment = ['.'] then none
  else if segment = ['.', '.'] then some .parent
  else some (.name (String.ofList segment))

def Component.text : Component → String
  | .root => ""
  | .current => "."
  | .parent => ".."
  | .name text => text

def isRooted (p : Path) : Bool := p.text.toList.head? == some '/'

/-- What a path starts from: the root, a leading `.`, or nothing. -/
def start (p : Path) : List Component :=
  if p.isRooted then [.root]
  else if (segments p.text.toList).head? = some ['.'] then [.current]
  else []

def components (p : Path) : List Component :=
  p.start ++ (segments p.text.toList).filterMap Component.ofSegment?

/-- The path written with one separator between neighbouring components. -/
def ofComponents : List Component → Path
  | .root :: rest => ⟨"/" ++ "/".intercalate (rest.map Component.text)⟩
  | cs => ⟨"/".intercalate (cs.map Component.text)⟩

/-- Adds a component to a canonical list, both in reverse: a `.` adds nothing, a `..` takes back a
name, stays at the root, and is kept where there is nothing to take back. -/
def collapseStep (done : List Component) : Component → List Component
  | .current => done
  | .parent =>
    match done with
    | .name _ :: below => below
    | .root :: _ => done
    | _ => .parent :: done
  | step => step :: done

def collapse (cs : List Component) : List Component := (cs.foldl collapseStep []).reverse

/-- The canonical form of a path, found without looking at any file. -/
def normalize (p : Path) : Path := ofComponents (collapse p.components)

/-- The path `p` as seen from `base`; a rooted `p` stands for itself. -/
def join (base p : Path) : Path :=
  if p.isRooted then p
  else if base.text = "" ∨ base.text.toList.getLast? = some '/' then ⟨base.text ++ p.text⟩
  else ⟨base.text ++ "/" ++ p.text⟩

def startsWith (p base : Path) : Bool := base.components.isPrefixOf p.components

def relativeTo? (p base : Path) : Option (List Component) :=
  if p.startsWith base then some (p.components.drop base.components.length) else none

/-- Segments without the empty and `.` ones at the end, given in reverse. The last one left is kept
if it is what the path starts from. -/
def dropIdle : List (List Char) → List (List Char)
  | [] => []
  | [first] => [first]
  | last :: more => if last = [] ∨ last = ['.'] then dropIdle more else last :: more

def ofSegments : List (List Char) → Path
  | [[]] => ⟨"/"⟩
  | reversed => ⟨String.ofList (['/'].intercalate reversed.reverse)⟩

/-- The path without its last component, as written; the root and the empty path have none. -/
def parent? (p : Path) : Option Path :=
  match dropIdle (segments p.text.toList).reverse with
  | [] => none
  | [[]] => none
  | [_] => some ⟨""⟩
  | _ :: above => some (ofSegments (dropIdle above))

def fileName? (p : Path) : Option String :=
  match p.components.getLast? with
  | some (.name text) => some text
  | _ => none

/-- A name cut at its last dot, unless there is none or it is the first character. -/
def splitName (name : String) : String × Option String :=
  let reversed := name.toList.reverse
  match reversed.dropWhile (· != '.') with
  | [] | [_] => (name, none)
  | _ :: stem =>
    (String.ofList stem.reverse, some (String.ofList (reversed.takeWhile (· != '.')).reverse))

/-- The file name up to its last dot, or empty. -/
def stem (p : Path) : String :=
  match p.fileName? with
  | some name => (splitName name).1
  | none => ""

def extension? (p : Path) : Option String := p.fileName?.bind fun name => (splitName name).2

end Path

end Templating
