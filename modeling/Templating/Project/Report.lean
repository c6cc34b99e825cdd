import Templating.Composer
import Templating.Config.Check
import Templating.Files.Tree

namespace Templating

/-- What ends a command before its time. -/
inductive Failure
  | noWorkingDirectory (error : FileError)
  | configExists (file : Path)
  | noSourceDirectory (error : FileError)
  | cannotWrite (file : Path) (error : FileError)
  | cannotCreate (directory : Path) (error : FileError)
  | cannotCopy (file : Path) (error : FileError)
  | cannotWalk (base directory : Path) (error : FileError)
  | cannotReadConfig (file : Path) (error : FileError)
  /-- The configuration is no YAML, or not of its form. -/
  | malformedConfig
  | invalidConfig (errors : Nat)
  | invalidProject
  | compose (error : ComposeError)

def Failure.message : Failure → String
  | .noWorkingDirectory e => "cannot read current dir: " ++ e.message
  | .configExists file => file.text ++ " already exists"
  | .noSourceDirectory e => "cannot create src dir: " ++ e.message
  | .cannotWrite file e => "cannot write " ++ file.text ++ ": " ++ e.message
  | .cannotCreate directory e => "cannot create " ++ directory.text ++ ": " ++ e.message
  | .cannotCopy file e => "cannot copy " ++ file.text ++ ": " ++ e.message
  | .cannotWalk base directory e =>
    "cannot walk " ++ base.text ++ ": attempting to read `" ++ directory.text ++ "` resulted in an error: " ++ e.message
  | .cannotReadConfig file e => "failed to read " ++ file.text ++ ": " ++ e.message
  | .malformedConfig => "YAML parse error"
  | .invalidConfig errors => toString errors ++ " validation error(s)"
  | .invalidProject => "validation failed"
  | .compose e => e.message

/-- What a command tells besides its output. -/
inductive LogEntry
  | composing (page : String)
  | missingLayout (target : Path)
  /-- An error of a document, with its source and its target as they are shown. -/
  | unresolved (error : ResolveError) (src target : String)
deriving DecidableEq

inductive LogLevel
  | info
  | warn
  | error
deriving DecidableEq

def LogLevel.text : LogLevel → String
  | .info => "INFO"
  | .warn => "WARN"
  | .error => "ERROR"

namespace LogEntry

def level : LogEntry → LogLevel
  | .composing _ => .info
  | .missingLayout _ => .warn
  | .unresolved e _ _ =>
    match e.cause with
    | .circle => .warn
    | .unreadable _ => .error

def text : LogEntry → String
  | .composing _ => "composing"
  | .missingLayout _ => "default layout file does not exist"
  | .unresolved e _ _ =>
    match e.cause with
    | .circle => "cyclic directive left unresolved"
    | .unreadable _ => "cannot read target"

def fields : LogEntry → List (String × String)
  | .composing page => [("page", page)]
  | .missingLayout target => [("layout", target.text)]
  | .unresolved e src target =>
    [("kind", e.cause.kind), ("src", src), ("target", target),
      ("directive", e.directive.getD "default layout")] ++
    match e.cause with
    | .circle => []
    | .unreadable message => [("message", message)]

end LogEntry

/-- A path as it is shown: as seen from a base directory that it lies in. -/
def Path.shownFrom (p base : Path) : String :=
  if p.isOutside base then p.toSlash
  else
    match p.relativeTo? base with
    | some below => (Path.ofComponents below).toSlash
    | none => p.toSlash

/-- The message about an error of a document that lies in a base directory. -/
def ResolveError.logged (e : ResolveError) (base : Path) : LogEntry :=
  .unresolved e (e.src.shownFrom base) (e.target.shownFrom base)

end Templating
