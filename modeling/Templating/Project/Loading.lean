import Templating.Config.Read
import Templating.Project.Workspace

namespace Templating

/-- A configuration with the place of its file. -/
structure Project where
  config : Config
  file : Path
  dir : Path

namespace Project
open Workspace

def base (p : Project) : Path := p.config.baseDir p.dir

/-- What makes the documents of the project. -/
def composer (p : Project) : Except ComposeError Composer := Composer.new (.ofConfig p.config p.dir)

variable {m : Type → Type} [Monad m] [MonadExceptOf Failure m] [Workspace m]

/-- The directory that a path lies in, from the root. -/
def dirOf (file : Path) : m Path := do return ((← absolute file).parent?).getD ⟨""⟩

def readConfig (file : Path) : m Config := do
  let bytes ← readFile file >>= orFail (.cannotReadConfig file)
  match Utf8.decode? bytes with
  | none => throw (.cannotReadConfig file .notText)
  | some text =>
    match Config.read? text with
    | none => throw .malformedConfig
    | some config => return config

def faults (config : Config) (dir : Path) : m (List ConfigError) := do
  match config.layoutPath? dir with
  | none => return config.errors (fun _ => false) dir
  | some layout =>
    let there ← isFile layout
    return config.errors (fun _ => there) dir

def printFaults (errors : List ConfigError) : m Unit :=
  errors.forM fun e => printError ("  ERROR: " ++ e.message ++ "\n")

/-- Leaves out a default layout that is not there. -/
def dropMissingLayout (config : Config) (dir : Path) : m Config := do
  match config.layoutPath? dir with
  | none => return config
  | some layout =>
    if ← isFile layout then return config
    else
      log (.missingLayout layout)
      return { config with layout := none }

/-- The project of a configuration file; one that is not there leaves every default in place. -/
def load (file : Path) : m Project := do
  let file ← absolute file
  let dir ← dirOf file
  let config ← if ← present file then readConfig file else pure Config.default
  let config ← dropMissingLayout config dir
  let errors ← faults config dir
  if errors.isEmpty then return ⟨config, file, dir⟩
  printFaults errors
  throw .invalidProject

/-- The composer of the project, or the failure that there is none. -/
def composerOrFail (p : Project) : m Composer :=
  match p.composer with
  | .ok c => pure c
  | .error e => throw (.compose e)

def validate (file : Path) : m Unit := do
  let config ← readConfig file
  let errors ← faults config (← dirOf file)
  if errors.isEmpty then
    print <| "OK: " ++ file.text ++ " (" ++ toString config.data.length ++ " data keys, watching " ++
      ", ".intercalate config.watchedExtensions ++ ")\n"
  else
    printFaults errors
    throw (.invalidConfig errors.length)

end Project

end Templating
