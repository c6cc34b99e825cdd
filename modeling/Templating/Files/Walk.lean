import Templating.Files.Tree

namespace Templating

def Path.ofLocation (loc : Location) : Path := .ofComponents (.root :: loc.map .name)

namespace FileTree

/-- Why a directory cannot be read, if so: the system does not take its path. -/
def unread? (t : FileTree) (loc : Location) : Option FileError :=
  match t.find [] (.ofLocation loc) with
  | .ok _ => none
  | .error e => some e

/-- Whether a walk stops at an entry, and with which error: it comes to files, and gets no further at a directory that
cannot be read. A file is not looked at, so that it comes up also if the system does not take its path. -/
def stop? (t : FileTree) (loc : Location) : Entry → Option (Option FileError)
  | .file _ => some none
  | .directory => (t.unread? loc).map some

/-- What a walk through a directory comes to at an entry, as seen from that directory. -/
def visit? (t : FileTree) (top : Location) : Location × Entry → Option (Location × Option FileError)
  | (loc, e) =>
    if top.isPrefixOf loc ∧ loc ≠ top ∧ t.unread? loc.dropLast = none then
      (t.stop? loc e).map fun fault? => (loc.drop top.length, fault?)
    else none

/-- All that a walk through a directory comes to, in order. -/
def visits (t : FileTree) (top : Location) : List (Location × Option FileError) :=
  (t.entries.filterMap (t.visit? top)).mergeSort fun a b => comesBefore a.1 b.1

end FileTree

end Templating
