import Templating.Event
import Templating.Text.Quoted

namespace Templating

def Role.text : Role → String
  | .root => "root"
  | .included => "include"
  | .layout => "layout"

/-- A JSON object of fields whose values are JSON already. -/
def jsonObject (fields : List (String × String)) : String :=
  "\x7b" ++ ",".intercalate (fields.map fun (name, value) => Text.quoted name ++ ":" ++ value) ++ "\x7d"

def ResolveError.json (e : ResolveError) : String :=
  let message :=
    match e.cause with
    | .circle => []
    | .unreadable message => [("message", Text.quoted message)]
  jsonObject <|
    [("kind", Text.quoted e.cause.kind), ("src", Text.quoted e.src.text),
      ("target", Text.quoted e.target.text),
      ("directive", (e.directive.map Text.quoted).getD "null")] ++ message

/-- The line of an event as JSON, for programs that read them, without a line break. -/
def Event.line : Event → String
  | .data text origin =>
    jsonObject [("event", Text.quoted "data"), ("text", Text.quoted text),
      ("origin", Text.quoted origin.text)]
  | .error e => jsonObject [("event", Text.quoted "error"), ("error", e.json)]
  | .finish => jsonObject [("event", Text.quoted "end")]

end Templating
