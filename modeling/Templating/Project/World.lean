import Templating.Files.Walk
import Templating.Project.Command

namespace Templating

/-- A workspace as a value: a tree of files, and all that commands have told so far. -/
structure World where
  tree : FileTree
  here : Location
  printed : String
  printedErrors : String
  logged : List LogEntry

namespace World

/-- What commands are as functions on workspaces. -/
abbrev Action := EStateM Failure World

/-- The text of a file, with replacement characters for what is no text. -/
def load (w : World) : Loader := fun p =>
  match w.tree.read w.here p with
  | .ok bytes => .ok (Utf8.decodeLossy bytes)
  | .error e => .error e.message

def texts (w : World) : List String := w.tree.files.map Utf8.decodeLossy

/-- Changes the tree, or leaves it as it is. -/
def change (f : World → Except FileError FileTree) : Action (Except FileError Unit) := do
  match f (← get) with
  | .ok tree => modifyGet fun w => (.ok (), { w with tree := tree })
  | .error e => return .error e

instance : Workspace Action where
  workingDirectory := do
    let w ← get
    match w.tree.entry? w.here with
    | some .directory => return .ok (.ofLocation w.here)
    | _ => return .error .notFound
  present p := do let w ← get; return w.tree.present w.here p
  isFile p := do let w ← get; return w.tree.isFile w.here p
  readFile p := do let w ← get; return w.tree.read w.here p
  writeFile p bytes := change fun w => w.tree.write w.here p bytes
  makeDirectories p :=
    modifyGet fun w =>
      let (result, tree) := FileTree.makeDirectories w.here (p.text.length + 1) w.tree p
      (result, { w with tree := tree })
  copyFile source target := change fun w => w.tree.copy w.here source target
  walk p := do
    let w ← get
    match w.tree.find w.here p with
    | .ok (top, .directory) =>
      return (w.tree.visits top).map fun (below, fault?) => ⟨.ofComponents (below.map .name), fault?⟩
    | _ => return []
  load p := do return (← get).load p
  compose d := do let w ← get; return d.run w.load w.texts
  print text := modify fun w => { w with printed := w.printed ++ text }
  printError text := modify fun w => { w with printedErrors := w.printedErrors ++ text }
  log entry := modify fun w => { w with logged := w.logged ++ [entry] }

/-- Runs a command: how it ends, and what it leaves behind. A command that fails leaves behind what it has done up to
there. -/
def run (w : World) (c : Command) : Except Failure Unit × World :=
  match (c.run : Action Unit).run w with
  | .ok () w => (.ok (), w)
  | .error e w => (.error e, w)

end World

end Templating
