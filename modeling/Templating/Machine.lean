import Templating.Node
import Templating.Path.Target
import Templating.Scan
import Templating.Text.Lowercase
import Templating.Text.Offset

namespace Templating

/-- What answers for the text at a path: the text, or why there is none. -/
abbrev Loader := Path → Except String String

/-- What stays fixed while a document is put together. -/
structure Setting where
  scanner : Scanner
  /-- The values of the data keys, by key in lower case; a later pair comes before an earlier one. -/
  values : List (String × String)
  /-- The layout of a page that has no layout directive. -/
  defaultLayout : Option Path

/-- The value of a key as written, in any letter case. -/
def Setting.value? (s : Setting) (key : String) : Option String :=
  s.values.reverse.lookup (Text.lowercase key)

/-- A moment of the work on a document. One node is at work at any time. It hands over to a text it includes, to the
layout that is to wrap it, or, at a slot, to the node it wraps; since every hand-over happens where the output
belongs, events come out in the order of the document. -/
structure State where
  nodes : Array Node
  /-- The node at work. -/
  current : NodeId
  /-- The events sent so far. -/
  sent : Array Event
  /-- The targets asked of the loader so far. -/
  loads : Array Path
  /-- Whether the end has been sent. -/
  ended : Bool

inductive Move
  | step (next : State)
  /-- The loader is asked for a target, and its answer decides. -/
  | load (target : Path) (answer : Except String String → State)
  | stop

namespace State

def start (page : Node) : State := ⟨#[page], 0, #[], #[], false⟩

/-- Sends a piece of text, unless it is empty. -/
def emit (s : State) (text : String) (origin : Role) : State :=
  match Event.ofText? text origin with
  | some event => { s with sent := s.sent.push event }
  | none => s

def report (s : State) (e : ResolveError) : State := { s with sent := s.sent.push (.error e) }

def goto (s : State) (id : NodeId) : State := { s with current := id }

def modify (s : State) (f : Node → Node) : State := { s with nodes := s.nodes.modify s.current f }

def enter (s : State) (node : Node) : State :=
  { s with nodes := s.nodes.push node, current := s.nodes.size }

def asked (s : State) (target : Path) : State := { s with loads := s.loads.push target }

/-- Whether a path is the source of a node or of one that repeated links lead to. Links lead to older
nodes, so there are no more of them than `fuel` if that is the number of nodes. -/
def onChain (nodes : Array Node) (link : Node → Option NodeId) (path : Path) :
    (fuel : Nat) → NodeId → Bool
  | 0, _ => false
  | fuel + 1, id =>
    match nodes[id]? with
    | none => false
    | some node => node.src == path || (link node).any (onChain nodes link path fuel)

def includesItself (s : State) (path : Path) : Bool :=
  onChain s.nodes Node.parent path s.nodes.size s.current

def wrapsItself (s : State) (path : Path) : Bool :=
  onChain s.nodes Node.slot path s.nodes.size s.current

/-- Goes on after the node at work has passed its source: with its layout, else with the node that
includes it, else there is nothing left to do. -/
def complete (s : State) (node : Node) : State :=
  match node.layout, node.parent with
  | some layout, _ => s.goto layout
  | none, some parent => s.goto parent
  | none, none => { s with sent := s.sent.push .finish, ended := true }

/-- Marks the node at work as passed and goes on. -/
def finish (s : State) (node : Node) : State :=
  (s.modify fun n => { n with index := Text.size n.source, phase := .finished }).complete node

end State

namespace Setting

/-- The layout that a node asks for, with the text of its directive. An included text never has one,
the last layout directive of a text is in effect, and a page without one has the default layout. -/
def requestedLayout (setting : Setting) (node : Node) : Option (Path × Option String) :=
  if node.role = .included then none
  else
    match setting.scanner.layout? node.source with
    | some hit =>
      match hit.directive with
      | .layout target => some (Path.layoutTarget target node.root, some (hit.text node.source))
      | _ => none
    | none =>
      if node.role = .root then setting.defaultLayout.map fun target => (target, none) else none

/-- The first move of a node: a text that skips is sent as it is, and any other text asks for its
layout. -/
def begin (setting : Setting) (s : State) (node : Node) : Move :=
  if setting.scanner.skips node.source then
    .step ((s.emit node.source node.role).finish node)
  else
    let s := s.modify fun n => { n with phase := .scanning }
    match setting.requestedLayout node with
    | none => .step s
    | some (target, directive) =>
      if s.wrapsItself target then .step (s.report ⟨.circle, node.src, target, directive⟩)
      else
        .load target fun
          | .ok source =>
            let wrapped := (s.asked target).modify fun n =>
              { n with layout := some s.nodes.size, layoutTarget := some target }
            wrapped.enter { Node.new target node.root source .layout with slot := some s.current }
          | .error message =>
            (s.asked target).report ⟨.unreadable message, node.src, target, directive⟩

/-- The move at an include directive. A target that is not used leaves the directive as it is. -/
def inclusion (s : State) (node : Node) (target text : String) : Move :=
  let path := Path.includeTarget target node.dirname node.root
  if s.includesItself path then
    .step ((s.report ⟨.circle, node.src, path, some text⟩).emit text node.role)
  else
    .load path fun
      | .ok source =>
        (s.asked path).enter { Node.new path node.root source .included with parent := some s.current }
      | .error message =>
        ((s.asked path).report ⟨.unreadable message, node.src, path, some text⟩).emit text node.role

/-- The move at a slot: the wrapped node goes on, unless it has been through already. A text that
wraps nothing keeps the directive. -/
def slot (s : State) (node : Node) (text : String) : Move :=
  match node.slot with
  | none => .step (s.emit text node.role)
  | some wrapped =>
    if (s.nodes[wrapped]?).any (·.phase == .finished) then .step s else .step (s.goto wrapped)

/-- One move through the source: to the next directive and past it, or to the end. -/
def advance (setting : Setting) (s : State) (node : Node) : Move :=
  match setting.scanner.next? node.source node.index with
  | none =>
    .step ((s.emit (Text.slice node.source node.index (Text.size node.source)) node.role).finish node)
  | some hit =>
    let text := hit.text node.source
    let s := (s.emit (Text.slice node.source node.index hit.start) node.role).modify fun n =>
      { n with index := hit.stop }
    match hit.directive with
    | .data key => .step (s.emit ((setting.value? key).getD text) node.role)
    | .slot => slot s node text
    | .inclusion target => inclusion s node target text
    | .layout _ | .noLayout => .step s

def move (setting : Setting) (s : State) : Move :=
  if s.ended then .stop
  else
    match s.nodes[s.current]? with
    | none => .stop
    | some node =>
      match node.phase with
      | .pending => setting.begin s node
      | .scanning => setting.advance s node
      | .finished => .step (s.complete node)

/-- The moment after the next move; the last moment stays. -/
def next (setting : Setting) (load : Loader) (s : State) : State :=
  match setting.move s with
  | .step s => s
  | .load target answer => answer (load target)
  | .stop => s

/-- The moment after a number of moves, or the last moment if it comes earlier. -/
def after (setting : Setting) (load : Loader) : Nat → State → State
  | 0, s => s
  | n + 1, s => if s.ended then s else after setting load n (setting.next load s)

end Setting

end Templating
