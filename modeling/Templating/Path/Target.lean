import Templating.Path.Basic

namespace Templating.Path

/-- The separators that a directive argument may start with. -/
def isSeparator (c : Char) : Bool := c == '/' || c == '\\'

/-- An argument without its leading separators. -/
def stripRoot (argument : String) : Path := ⟨String.ofList (argument.toList.dropWhile isSeparator)⟩

/-- The target of a layout argument: always below the root directory. -/
def layoutTarget (argument : String) (root : Path) : Path := (root.join (stripRoot argument)).normalize

/-- The target of an include argument: below the root directory when it starts with a separator, else
below the directory of the including text. -/
def includeTarget (argument : String) (dirname root : Path) : Path :=
  if argument.toList.head?.any isSeparator then layoutTarget argument root
  else (dirname.join ⟨argument⟩).normalize

/-- The names below `root` that lead to `dirname`, each followed by a separator; empty when `dirname`
is `root` or does not begin with it. -/
def relativeDirname (dirname root : Path) : String :=
  match dirname.relativeTo? root with
  | none => ""
  | some below =>
    String.join <| below.filterMap fun
      | .name text => some (text ++ "/")
      | _ => none

/-- The text of a path with every backslash turned into a separator. -/
def toSlash (p : Path) : String := p.text.map fun c => if c = '\\' then '/' else c

/-- Whether `p` does not begin with `root`, both in canonical form. No file is looked at. -/
def isOutside (p root : Path) : Bool := !p.normalize.startsWith root.normalize

end Templating.Path
