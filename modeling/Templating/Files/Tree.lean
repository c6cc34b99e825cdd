import Templating.Path.Basic

namespace Templating

inductive FileError
  | notFound
  | alreadyExists
  | notDirectory
  | isDirectory
  | nameTooLong
  | nulByte
  /-- The bytes of a file are no text. -/
  | notText
  /-- Any other reason, in the system's words. -/
  | other (message : String)
deriving DecidableEq

def FileError.message : FileError → String
  | .notFound => "No such file or directory (os error 2)"
  | .alreadyExists => "File exists (os error 17)"
  | .notDirectory => "Not a directory (os error 20)"
  | .isDirectory => "Is a directory (os error 21)"
  | .nameTooLong => "File name too long (os error 36)"
  | .nulByte => "file name contained an unexpected NUL byte"
  | .notText => "stream did not contain valid UTF-8"
  | .other message => message

inductive Entry
  | file (bytes : List UInt8)
  | directory
deriving DecidableEq

/-- The names that lead from the root of a tree to an entry. -/
abbrev Location := List String

/-- The entries of a tree of files and directories by location, without links. The root is a directory that is not
listed. -/
structure FileTree where
  entries : List (Location × Entry)

namespace FileTree

def empty : FileTree := ⟨[]⟩

def entry? (t : FileTree) (loc : Location) : Option Entry :=
  if loc = [] then some .directory else t.entries.lookup loc

/-- Adds an entry, or replaces the one at its location. -/
def put (t : FileTree) (loc : Location) (e : Entry) : FileTree :=
  ⟨(loc, e) :: t.entries.filter (·.1 != loc)⟩

def longestName : Nat := 255

def longestPath : Nat := 4095

/-- Where a segment of a path leads from a directory; whether something is there is not asked. -/
def enter (dir : Location) (segment : List Char) : Except FileError Location :=
  if segment = [] ∨ segment = ['.'] then .ok dir
  else if segment = ['.', '.'] then .ok dir.dropLast
  else
    let name := String.ofList segment
    if longestName < name.utf8ByteSize then .error .nameTooLong else .ok (dir ++ [name])

/-- Where the segments of a path lead from a location. All but the last must lead to directories. A path is walked
name by name, as the system does it, so `x/..` is found only where `x` is a directory. -/
def walk (t : FileTree) : Location → List (List Char) → Except FileError Location
  | loc, [] => .ok loc
  | loc, segment :: more =>
    match t.entry? loc with
    | none => .error .notFound
    | some (.file _) => .error .notDirectory
    | some .directory => (enter loc segment).bind fun next => walk t next more

/-- The segments of a path that the system takes, and where they start. -/
def route (dir : Location) (p : Path) : Except FileError (Location × List (List Char)) :=
  if p.text = "" then .error .notFound
  else if p.text.toList.contains '\x00' then .error .nulByte
  else if longestPath < p.text.utf8ByteSize then .error .nameTooLong
  else .ok (if p.isRooted then [] else dir, Path.segments p.text.toList)

/-- The entry at a path, as seen from a directory. -/
def find (t : FileTree) (dir : Location) (p : Path) : Except FileError (Location × Entry) :=
  (route dir p).bind fun (start, segments) =>
    (t.walk start segments).bind fun loc =>
      match t.entry? loc with
      | some e => .ok (loc, e)
      | none => .error .notFound

def present (t : FileTree) (dir : Location) (p : Path) : Bool :=
  match t.find dir p with
  | .ok _ => true
  | .error _ => false

def isFile (t : FileTree) (dir : Location) (p : Path) : Bool :=
  match t.find dir p with
  | .ok (_, .file _) => true
  | _ => false

def isDirectory (t : FileTree) (dir : Location) (p : Path) : Bool :=
  match t.find dir p with
  | .ok (_, .directory) => true
  | _ => false

def read (t : FileTree) (dir : Location) (p : Path) : Except FileError (List UInt8) :=
  (t.find dir p).bind fun
    | (_, .file bytes) => .ok bytes
    | (_, .directory) => .error .isDirectory

/-- A place for an entry that may be new. -/
structure Spot where
  location : Location
  /-- Whether the path ends in a name. -/
  named : Bool
  /-- Whether there are separators behind the name. -/
  closed : Bool

/-- The place that a path ends in. The directory of the place must be there. -/
def spot (t : FileTree) (dir : Location) (p : Path) : Except FileError Spot :=
  (route dir p).bind fun (start, segments) =>
    let reversed := segments.reverse.dropWhile (· == [])
    let closed := reversed.length < segments.length
    match reversed with
    | [] => .ok ⟨[], false, closed⟩
    | last :: before =>
      (t.walk start (before.reverse ++ [last])).bind fun loc =>
        if last = ['.'] ∨ last = ['.', '.'] then
          match t.entry? loc with
          | some _ => .ok ⟨loc, false, closed⟩
          | none => .error .notFound
        else .ok ⟨loc, true, closed⟩

def write (t : FileTree) (dir : Location) (p : Path) (bytes : List UInt8) : Except FileError FileTree :=
  (t.spot dir p).bind fun spot =>
    if !spot.named || spot.closed then .error .isDirectory
    else
      match t.entry? spot.location with
      | some .directory => .error .isDirectory
      | _ => .ok (t.put spot.location (.file bytes))

/-- Makes a new directory in one that is there. -/
def makeDirectory (t : FileTree) (dir : Location) (p : Path) : Except FileError FileTree :=
  (t.spot dir p).bind fun spot =>
    if !spot.named || (t.entry? spot.location).isSome then .error .alreadyExists
    else .ok (t.put spot.location .directory)

/-- Makes a directory and those above it that are missing. Those that were made stay, also if a
further one cannot be made. -/
def makeDirectories (dir : Location) : (fuel : Nat) → FileTree → Path → Except FileError Unit × FileTree
  | 0, t, _ => (.error .notFound, t)
  | fuel + 1, t, p =>
    if p.text = "" then (.ok (), t)
    else
      match t.makeDirectory dir p with
      | .ok made => (.ok (), made)
      | .error .notFound =>
        match p.parent? with
        | none => (.error (.other "failed to create whole tree"), t)
        | some above =>
          match makeDirectories dir fuel t above with
          | (.error e, t) => (.error e, t)
          | (.ok (), t) =>
            match t.makeDirectory dir p with
            | .ok made => (.ok (), made)
            | .error e => (if t.isDirectory dir p then .ok () else .error e, t)
      | .error e => (if t.isDirectory dir p then .ok () else .error e, t)

def copy (t : FileTree) (dir : Location) (source target : Path) : Except FileError FileTree :=
  (t.read dir source).bind fun bytes => t.write dir target bytes

/-- The order of locations: name by name, and a directory before what it holds. -/
def comesBefore : Location → Location → Bool
  | [], _ => true
  | _ :: _, [] => false
  | a :: as, b :: bs => if a = b then comesBefore as bs else decide (a ≤ b)

def files (t : FileTree) : List (List UInt8) :=
  t.entries.filterMap fun
    | (_, .file bytes) => some bytes
    | (_, .directory) => none

end FileTree

end Templating
