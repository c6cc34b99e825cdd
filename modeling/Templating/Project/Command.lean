import Templating.Project.Rendering
import Templating.Project.Starter

namespace Templating

/-- The commands, with what their command lines say. -/
inductive Command
  | start (dir : Path)
  | validate (file : Path)
  | render (file input : Path) (output : Option Path) (events : Bool)
  | build (file : Path) (output : Option Path)
deriving DecidableEq

namespace Command

/-- What a command line may hold besides paths. -/
inductive Flag
  | file
  | output
  | events
deriving DecidableEq

def Flag.takesValue : Flag → Bool
  | .events => false
  | _ => true

def Flag.long : Flag → String
  | .file => "file"
  | .output => "output"
  | .events => "events"

/-- The letter of an option, if it has one. -/
def Flag.letter? : Flag → Option Char
  | .file => some 'f'
  | .output => some 'o'
  | .events => none

structure Arguments where
  flags : List (Flag × String)
  paths : List String

namespace Arguments

def empty : Arguments := ⟨[], []⟩

/-- Adds a path, which may not be empty. -/
def addPath (a : Arguments) (p : String) : Option Arguments :=
  if p = "" then none else some { a with paths := a.paths ++ [p] }

/-- Adds an option. None may be given twice, and no value may be empty. -/
def addFlag (a : Arguments) (flag : Flag) (value : String) : Option Arguments :=
  if (a.flags.lookup flag).isSome || (flag.takesValue && value = "") then none
  else some { a with flags := (flag, value) :: a.flags }

def value? (a : Arguments) (flag : Flag) : Option Path := (a.flags.lookup flag).map Path.mk

end Arguments

/-- Whether an argument can only be an option; a single `-` is a path. -/
def isDashed (argument : String) : Bool := argument.toList.head? == some '-' && argument != "-"

/-- What an argument says about options. -/
inductive Dashed
  /-- An option, and what is attached to it. -/
  | given (flag : Flag) (value : Option String)
  /-- All that follows is paths. -/
  | closing
  | unknown

/-- Reads an argument that starts with `-` among the options that a command has. -/
def Dashed.of (known : List Flag) (argument : String) : Dashed :=
  match argument.toList with
  | ['-', '-'] => .closing
  | '-' :: '-' :: rest =>
    let value :=
      match rest.dropWhile (· != '=') with
      | [] => none
      | _ :: value => some (String.ofList value)
    match known.find? (·.long.toList = rest.takeWhile (· != '=')) with
    | some flag => .given flag value
    | none => .unknown
  | '-' :: letter :: rest =>
    match known.find? (·.letter? == some letter) with
    | some flag =>
      .given flag <|
        match rest with
        | [] => none
        | '=' :: value => some (String.ofList value)
        | value => some (String.ofList value)
    | none => .unknown
  | _ => .unknown

/-- Sorts the arguments of a command that has these options. -/
def sortArguments (known : List Flag) (sorted : Arguments) : List String → Option Arguments
  | [] => some sorted
  | argument :: rest =>
    if isDashed argument then
      match Dashed.of known argument with
      | .unknown => none
      | .closing => rest.foldlM Arguments.addPath sorted
      | .given flag (some value) =>
        if flag.takesValue then (sorted.addFlag flag value).bind (sortArguments known · rest) else none
      | .given flag none =>
        if flag.takesValue then
          match rest with
          | [] => none
          | value :: rest =>
            if isDashed value then none else (sorted.addFlag flag value).bind (sortArguments known · rest)
        else (sorted.addFlag flag "").bind (sortArguments known · rest)
    else (sorted.addPath argument).bind (sortArguments known · rest)

def configOf (a : Arguments) : Path := (a.value? .file).getD ⟨Starter.configName⟩

/-- The command of a command line. -/
def parse? : List String → Option Command
  | "init" :: rest => do
    match (← sortArguments [] .empty rest).paths with
    | [] => some (.start ⟨"."⟩)
    | [dir] => some (.start ⟨dir⟩)
    | _ => none
  | "validate" :: rest => do
    let a ← sortArguments [.file] .empty rest
    if a.paths.isEmpty then some (.validate (configOf a)) else none
  | "render" :: rest => do
    let a ← sortArguments [.file, .output, .events] .empty rest
    match a.paths with
    | [input] =>
      some (.render (configOf a) ⟨input⟩ (a.value? .output) (a.flags.lookup .events).isSome)
    | _ => none
  | "build" :: rest => do
    let a ← sortArguments [.file, .output] .empty rest
    if a.paths.isEmpty then some (.build (configOf a) (a.value? .output)) else none
  | _ => none

variable {m : Type → Type} [Monad m] [MonadExceptOf Failure m] [Workspace m]

def run : Command → m Unit
  | .start dir => Starter.make dir
  | .validate file => Project.validate file
  | .render file input output events => Project.render file input output events
  | .build file output => Project.build file output

end Command

end Templating
