import Templating.Path.Basic

namespace Templating

/-- Why a text takes part in a document. -/
inductive Role
  /-- It is the requested page. -/
  | root
  /-- An include directive asked for it. -/
  | included
  /-- It wraps another text. -/
  | layout
deriving DecidableEq

/-- Why the target of a directive was not used. -/
inductive Cause
  /-- The target is already at work in the chain that leads to the directive. -/
  | circle
  /-- The loader gave no text for it. -/
  | unreadable (message : String)
deriving DecidableEq

def Cause.kind : Cause → String
  | .circle => "circle"
  | .unreadable _ => "io"

/-- A condition that a run reports and goes on from. -/
structure ResolveError where
  cause : Cause
  /-- The text that asked for the target. -/
  src : Path
  target : Path
  /-- The text of the directive, or nothing for the default layout. -/
  directive : Option String
deriving DecidableEq

/-- What asked for the target, in words. -/
def ResolveError.request (e : ResolveError) : String :=
  match e.directive with
  | some text => "directive '" ++ text ++ "'"
  | none => "default layout"

def ResolveError.message (e : ResolveError) : String :=
  match e.cause with
  | .circle => "found cyclic " ++ e.request ++ " at " ++ e.src.text
  | .unreadable reason =>
    "cannot read " ++ e.target.text ++ " for " ++ e.request ++ " at " ++ e.src.text ++ ": " ++ reason

/-- What a run of a document reports: pieces of text, recoverable errors, and the end. -/
inductive Event
  | data (text : String) (origin : Role)
  | error (error : ResolveError)
  | finish
deriving DecidableEq

/-- The event for a piece of text; an empty piece has none. -/
def Event.ofText? (text : String) (origin : Role) : Option Event :=
  if text = "" then none else some (.data text origin)

/-- A document put together: its text, and the errors met on the way. -/
structure Rendering where
  text : String
  errors : List ResolveError
deriving DecidableEq

/-- The text and errors of the events before the first end. -/
def Rendering.ofEvents : List Event → Rendering
  | [] | .finish :: _ => ⟨"", []⟩
  | .data text _ :: rest => let r := ofEvents rest; ⟨text ++ r.text, r.errors⟩
  | .error e :: rest => let r := ofEvents rest; ⟨r.text, e :: r.errors⟩

end Templating
