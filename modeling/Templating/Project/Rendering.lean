import Templating.Project.EventLine
import Templating.Project.Loading

namespace Templating.Project
open Workspace

variable {m : Type → Type} [Monad m] [MonadExceptOf Failure m] [Workspace m]

/-- Composes one page and prints it, or writes it to a file. The events of its run are printed in its
stead if they are asked for. -/
def render (configFile input : Path) (output : Option Path) (events : Bool) : m Unit := do
  let project ← load configFile
  let composer ← project.composerOrFail
  let run ← composeFile composer (← absolute input)
  run.events.forM fun event => do
    if events then print (event.line ++ "\n")
    match event with
    | .error e => log (e.logged composer.options.root)
    | _ => pure ()
  let text := (Rendering.ofEvents run.events).text
  match output with
  | some file => writeOutput file text
  | none => if events then pure () else print text

/-- What a build has done so far. -/
structure Tally where
  composed : Nat
  copied : Nat
  errors : Nat
deriving DecidableEq

/-- Whether a file of the base directory takes part in a build: results, the configuration and the
default layout do not. -/
def takesPart (p : Project) (out file : Path) : Bool :=
  !file.startsWith out && file.components != p.file.components &&
    !(p.config.layoutPath? p.dir).any (·.components == file.components)

/-- Builds the file that lies at `below` in the base directory: it is composed if it is watched, and
copied if not. -/
def buildFile (p : Project) (composer : Composer) (out below : Path) (tally : Tally) : m Tally := do
  let file := composer.options.root.join below
  let result := out.join below
  if p.config.isWatched file then
    log (.composing below.toSlash)
    let rendering := Rendering.ofEvents (← composeFile composer file).events
    rendering.errors.forM fun e => log (e.logged composer.options.root)
    writeOutput result rendering.text
    return { tally with composed := tally.composed + 1, errors := tally.errors + rendering.errors.length }
  else
    makeParent result
    copyFile file result >>= orFail (.cannotCopy file)
    return { tally with copied := tally.copied + 1 }

/-- Builds what a walk has come to. It ends at a directory that cannot be read; a file that is not found to be one is
passed over, like those that take no part. -/
def buildFiles (p : Project) (composer : Composer) (out : Path) : List Visit → Tally → m Tally
  | [], tally => pure tally
  | ⟨below, fault?⟩ :: rest, tally => do
    let file := composer.options.root.join below
    match fault? with
    | some e => throw (.cannotWalk composer.options.root file e)
    | none =>
      if (← isFile file) && p.takesPart out file then
        buildFiles p composer out rest (← p.buildFile composer out below tally)
      else buildFiles p composer out rest tally

/-- Builds all files of the base directory into `out`. -/
def buildAll (p : Project) (out : Path) : m Tally := do
  let composer ← p.composerOrFail
  p.buildFiles composer out (← walk composer.options.root) ⟨0, 0, 0⟩

/-- Builds a project into a directory, else into the one that its configuration names. -/
def build (configFile : Path) (output : Option Path) : m Unit := do
  let project ← load configFile
  let out ← match output with
    | some dir => absolute dir
    | none => pure (project.config.outputDir project.dir)
  let tally ← project.buildAll out
  print <| "Built " ++ project.base.text ++ " -> " ++ out.text ++ ": " ++ toString tally.composed ++
    " composed, " ++ toString tally.copied ++ " copied, " ++ toString tally.errors ++ " error(s)\n"

end Templating.Project
