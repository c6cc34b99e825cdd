import Templating.Project.Command

namespace Templating.Disk

/-- What commands are on a real system. -/
abbrev Action := ExceptT Failure IO

/-- Why the system does not do something. -/
def errorOf : IO.Error → FileError
  | .noFileOrDirectory .. => .notFound
  | .alreadyExists .. => .alreadyExists
  | .inappropriateType _ 20 _ => .notDirectory
  | .inappropriateType _ 21 _ => .isDirectory
  | .invalidArgument _ 36 _ => .nameTooLong
  | e => .other (toString e)

/-- Does something to a path that the system can take. -/
def attempt {α : Type} (p : Path) (act : IO α) : Action (Except FileError α) := do
  if p.text.toList.contains '\x00' then return .error .nulByte
  match ← act.toBaseIO with
  | .ok a => return .ok a
  | .error e => return .error (errorOf e)

/-- What kind of entry is at a path. -/
def kind? (p : Path) : IO (Option IO.FS.FileType) := do
  if p.text.toList.contains '\x00' then return none
  match ← (System.mkFilePath [p.text]).metadata.toBaseIO with
  | .ok about => return some about.type
  | .error _ => return none

def readBytes (p : Path) : IO (List UInt8) := do
  return (← IO.FS.readBinFile ⟨p.text⟩).toList

def writeBytes (p : Path) (bytes : List UInt8) : IO Unit :=
  IO.FS.writeBinFile ⟨p.text⟩ bytes.toByteArray

/-- Walks through a directory. An entry that the system says nothing about is passed over. -/
partial def walkFrom (top below : Path) : IO (List Visit) := do
  match ← (System.mkFilePath [(top.join below).text]).readDir.toBaseIO with
  | .error e => return [⟨if below.text = "" then top else below, some (errorOf e)⟩]
  | .ok entries =>
    let names := (entries.map (·.fileName)).toList.mergeSort fun a b => FileTree.comesBefore [a] [b]
    names.flatMapM fun name => do
      let inner := below.join ⟨name⟩
      match ← kind? (top.join inner) with
      | some .dir => walkFrom top inner
      | some .file => return [⟨inner, none⟩]
      | _ => return []

/-- The text of a file, with replacement characters for what is no text. -/
def loadText (p : Path) : Action (Except String String) := do
  match ← attempt p (readBytes p) with
  | .ok bytes => return .ok (Utf8.decodeLossy bytes)
  | .error e => return .error e.message

/-- Makes the moves of a document until it ends. -/
partial def runFrom (setting : Setting) (s : State) : Action Run := do
  match setting.move s with
  | .stop => return ⟨s.sent.toList, s.loads.toList⟩
  | .step next => runFrom setting next
  | .load target answer => runFrom setting (answer (← loadText target))

/-- The line of a log message. -/
def logLine (entry : LogEntry) : String :=
  " ".intercalate ([entry.level.text, entry.text] ++ entry.fields.map fun (name, value) => name ++ "=" ++ value)

instance : Workspace Action where
  workingDirectory := do
    match ← IO.currentDir.toBaseIO with
    | .ok here => return .ok ⟨here.toString⟩
    | .error e => return .error (errorOf e)
  present p := do return (← kind? p).isSome
  isFile p := do return (← kind? p) == some .file
  readFile p := attempt p (readBytes p)
  writeFile p bytes := attempt p (writeBytes p bytes)
  makeDirectories p := if p.text = "" then return .ok () else attempt p (IO.FS.createDirAll ⟨p.text⟩)
  copyFile source target := attempt source do writeBytes target (← readBytes source)
  walk p := do
    if (← kind? p) == some .dir then walkFrom p ⟨""⟩ else return []
  load := loadText
  compose d := runFrom d.setting (.start d.page)
  print text := do (← IO.getStdout).putStr text
  printError text := IO.eprint text
  log entry := IO.eprintln (logLine entry)

end Templating.Disk

/-- How the commands are written. -/
def usage : String :=
  "usage: weft init [PATH]
       weft validate [-f FILE]
       weft render INPUT [-f FILE] [-o OUTPUT] [--events]
       weft build [-f FILE] [-o OUTPUT]
"

def main (arguments : List String) : IO UInt32 := do
  match Templating.Command.parse? arguments with
  | none =>
    IO.eprint usage
    return 2
  | some command =>
    match ← (command.run : Templating.Disk.Action Unit).run with
    | .ok () => return 0
    | .error e =>
      IO.eprintln ("error: " ++ e.message)
      return 1
