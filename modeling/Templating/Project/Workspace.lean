import Templating.Document
import Templating.Project.Report
import Templating.Text.Utf8

namespace Templating

/-- What a walk through a directory comes to, as seen from it: a file, or a directory that cannot be read. -/
structure Visit where
  below : Path
  fault? : Option FileError

/-- What commands need from the outside: files, a working directory, two streams of output and a log. A command is
written for any monad that has these, so that it can be run on a real system and, for reasoning, on a value. -/
class Workspace (m : Type → Type) where
  workingDirectory : m (Except FileError Path)
  present : Path → m Bool
  isFile : Path → m Bool
  readFile : Path → m (Except FileError (List UInt8))
  writeFile : Path → List UInt8 → m (Except FileError Unit)
  /-- Makes a directory and those above it that are missing. -/
  makeDirectories : Path → m (Except FileError Unit)
  copyFile : Path → Path → m (Except FileError Unit)
  /-- Comes to all files below a directory, name by name in order. A directory that cannot be read comes in the place of
  what it holds. -/
  walk : Path → m (List Visit)
  /-- The text of a file, with replacement characters for what is no text. -/
  load : Path → m (Except String String)
  /-- Runs a document that reads its files. -/
  compose : Document → m Run
  print : String → m Unit
  printError : String → m Unit
  log : LogEntry → m Unit

namespace Workspace
variable {m : Type → Type} [Monad m] [MonadExceptOf Failure m]

/-- Goes on with a result, or fails for its error. -/
def orFail {α : Type} (failure : FileError → Failure) : Except FileError α → m α
  | .ok a => pure a
  | .error e => throw (failure e)

variable [Workspace m]

/-- A path from the root, in canonical form. -/
def absolute (p : Path) : m Path := do
  let here ← workingDirectory >>= orFail .noWorkingDirectory
  return (here.join p).normalize

def makeParent (p : Path) : m Unit :=
  match p.parent? with
  | some above => makeDirectories above >>= orFail (.cannotCreate above)
  | none => pure ()

def writeOutput (p : Path) (text : String) : m Unit := do
  makeParent p
  writeFile p (Utf8.encode text) >>= orFail (.cannotWrite p)

def composeFile (c : Composer) (p : Path) : m Run := do
  if p.text = "" then throw (.compose .missingPath)
  match ← load (c.resolve p) with
  | .error message => throw (.compose (.unreadable (c.resolve p) message))
  | .ok source =>
    match c.document (c.resolve p) source with
    | .ok d => compose d
    | .error e => throw (.compose e)

end Workspace

end Templating
