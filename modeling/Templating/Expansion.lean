import Templating.Document

namespace Templating

namespace Run

def empty : Run := ⟨[], []⟩

def append (a b : Run) : Run := ⟨a.events ++ b.events, a.loads ++ b.loads⟩

instance : Append Run := ⟨append⟩

def text (text : String) (origin : Role) : Run := ⟨(Event.ofText? text origin).toList, []⟩

def error (e : ResolveError) : Run := ⟨[.error e], []⟩

def asked (target : Path) : Run := ⟨[], [target]⟩

end Run

/-- What a text has to offer to its slots. -/
inductive Filling
  /-- It wraps nothing. -/
  | nothing
  /-- It wraps a node, which in turn wraps others, the nearest first. -/
  | wrapped (node : Node) (more : List Node)
  /-- What it wraps is in an earlier slot. -/
  | placed

def Filling.ofList : List Node → Filling
  | [] => .nothing
  | node :: more => .wrapped node more

namespace Setting

/-- The text of a node from an offset on. `includers` are the sources of the texts that include it. -/
def expand (setting : Setting) (load : Loader) :
    (fuel : Nat) → (includers : List Path) → Filling → Node → (start : Nat) → Option Run
  | 0, _, _, _, _ => none
  | fuel + 1, includers, filling, node, start =>
    match setting.scanner.next? node.source start with
    | none => some (.text (Text.slice node.source start (Text.size node.source)) node.role)
    | some hit => do
      let text := hit.text node.source
      let kept := Run.text text node.role
      let before := Run.text (Text.slice node.source start hit.start) node.role
      let (here, filling) ← match hit.directive with
        | .data key => some (Run.text ((setting.value? key).getD text) node.role, filling)
        | .layout _ | .noLayout => some (Run.empty, filling)
        | .slot =>
          match filling with
          | .nothing => some (kept, filling)
          | .placed => some (Run.empty, filling)
          | .wrapped inner more =>
            (expand setting load fuel [] (.ofList more) inner 0).map fun run => (run, .placed)
        | .inclusion target =>
          let path := Path.includeTarget target node.dirname node.root
          if node.src = path ∨ path ∈ includers then
            some (.error ⟨.circle, node.src, path, some text⟩ ++ kept, filling)
          else
            match load path with
            | .error message =>
              some (.asked path ++ .error ⟨.unreadable message, node.src, path, some text⟩ ++ kept, filling)
            | .ok source =>
              let run :=
                if setting.scanner.skips source then some (Run.text source .included)
                else
                  expand setting load fuel (node.src :: includers) .nothing
                    (.new path node.root source .included) 0
              run.map fun run => (.asked path ++ run, filling)
      let after ← expand setting load fuel includers filling node hit.stop
      return before ++ here ++ after

/-- A node with the layouts around it. `inner` are the nodes that it wraps, the nearest first. -/
def wrap (setting : Setting) (load : Loader) : (fuel : Nat) → (inner : List Node) → Node → Option Run
  | 0, _, _ => none
  | fuel + 1, inner, node =>
    if setting.scanner.skips node.source then some (.text node.source node.role)
    else
      let bare := expand setting load fuel [] (.ofList inner) node 0
      match setting.requestedLayout node with
      | none => bare
      | some (target, directive) =>
        if (node :: inner).any (·.src == target) then
          bare.map fun run => .error ⟨.circle, node.src, target, directive⟩ ++ run
        else
          match load target with
          | .error message =>
            bare.map fun run =>
              .asked target ++ .error ⟨.unreadable message, node.src, target, directive⟩ ++ run
          | .ok source =>
            (wrap setting load fuel (node :: inner) (.new target node.root source .layout)).map fun run =>
              .asked target ++ run

end Setting

/-- The run of a document put together directly, if `fuel` is enough: first the chain of layouts around the page, then
the text of the outermost one, with the texts it asks for in their places. There is no list of nodes and no handing
over; what a text needs to know of the others is passed down to it. -/
def Document.expand? (d : Document) (load : Loader) (fuel : Nat) : Option Run :=
  (d.setting.wrap load fuel [] d.page).map fun run => run ++ ⟨[.finish], []⟩

end Templating
