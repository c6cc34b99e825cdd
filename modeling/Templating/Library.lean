import Templating.Machine

namespace Templating

/-- Texts by canonical path, each path once. -/
structure Library where
  texts : List (Path × String)

namespace Library

def empty : Library := ⟨[]⟩

/-- Adds a text, or replaces the one at its path. -/
def insert (l : Library) (path : Path) (text : String) : Library :=
  ⟨(path.normalize, text) :: l.texts.filter (·.1 != path.normalize)⟩

def load (l : Library) : Loader := fun path =>
  match l.texts.lookup path.normalize with
  | some text => .ok text
  | none => .error ("no such document: " ++ path.text)

end Library

/-- The loader that refuses some paths with a message. -/
def Loader.refusing (load : Loader) (refused : List (Path × String)) : Loader := fun path =>
  match refused.find? fun (p, _) => p.components == path.components with
  | some (_, message) => .error message
  | none => load path

end Templating
