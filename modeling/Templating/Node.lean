import Templating.Event
import Templating.Path.Basic

namespace Templating

/-- How far the work on a node has come. -/
inductive Phase
  /-- Nothing is decided yet. -/
  | pending
  /-- The layout is decided, and the cursor moves through the source. -/
  | scanning
  | finished
deriving DecidableEq

/-- The place of a node in the list of nodes. -/
abbrev NodeId := Nat

/-- A text at work in a document, with a cursor. Nodes name each other by their place in the list of all nodes, and
are never removed. -/
structure Node where
  src : Path
  /-- The directory that rooted targets lie in. -/
  root : Path
  source : String
  role : Role
  /-- The cursor into the source, in bytes. -/
  index : Nat
  phase : Phase
  /-- The source of the layout around this node, once it is accepted. -/
  layoutTarget : Option Path
  /-- The node that includes this one. -/
  parent : Option NodeId
  /-- The node that this one wraps. -/
  slot : Option NodeId
  /-- The node that wraps this one. -/
  layout : Option NodeId
deriving DecidableEq

namespace Node

def new (src root : Path) (source : String) (role : Role) : Node :=
  ⟨src, root, source, role, 0, .pending, none, none, none, none⟩

/-- The directory of the source, or the empty path where it has none. -/
def dirname (n : Node) : Path := n.src.parent?.getD ⟨""⟩

def filename (n : Node) : String := n.src.stem

/-- The extension with its dot, or nothing. -/
def extname (n : Node) : String :=
  match n.src.extension? with
  | some extension => "." ++ extension
  | none => ""

end Node

end Templating
