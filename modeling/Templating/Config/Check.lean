import Templating.Config.Basic

namespace Templating

/-- What may be wrong with a configuration that can be read. -/
inductive ConfigError
  | tags (error : TagError)
  /-- An entry to watch that is no extension. -/
  | watch (entry : String)
  | emptyKey
  | spacedKey (key : String)
  /-- A key that a directive would be taken for. -/
  | shadowedKey (key : String)
  | emptyLayout
  | missingLayout (layout : String) (target : Path)
deriving DecidableEq

def ConfigError.message : ConfigError → String
  | .tags .emptyData => "data tags must not be empty"
  | .tags .emptyDirective => "directive tags must not be empty"
  | .watch entry => "watch entry '" ++ entry ++ "' must be an extension like '.html'"
  | .emptyKey => "data key must not be empty"
  | .spacedKey key => "data key '" ++ key ++ "' must not contain whitespace"
  | .shadowedKey key =>
    "data key '" ++ key ++ "' is shadowed by the directive of the same name (tags coincide)"
  | .emptyLayout => "layout must not be empty"
  | .missingLayout layout target => "layout '" ++ layout ++ "' not found at " ++ target.text

namespace Config

def tagErrors (tags : Tags) : List ConfigError :=
  (if tags.data.hasEmpty then [.tags .emptyData] else []) ++
    (if tags.directive.hasEmpty then [.tags .emptyDirective] else [])

/-- Whether an entry to watch is a dot with something behind it. -/
def isExtension (entry : String) : Bool := entry.toList.head? == some '.' && 2 ≤ entry.utf8ByteSize

def watchErrors (watch : List String) : List ConfigError :=
  (watch.filter (!isExtension ·)).map .watch

def keyErrors (coincide : Bool) (key : String) : List ConfigError :=
  if Text.trim key = "" then [.emptyKey]
  else
    (if key.toList.any Text.isSpace then [.spacedKey key] else []) ++
      (if coincide && directiveWords.contains (Text.lowercase key) then [.shadowedKey key] else [])

/-- The default layout must be a file. -/
def layoutErrors (isFile : Path → Bool) (layout : Option String) (base : Path) : List ConfigError :=
  match layout with
  | none => []
  | some layout =>
    if Text.trim layout = "" then [.emptyLayout]
    else
      let target := Path.layoutTarget layout base
      if isFile target then [] else [.missingLayout layout target]

def errors (isFile : Path → Bool) (c : Config) (dir : Path) : List ConfigError :=
  tagErrors c.tags ++ watchErrors c.watch ++ c.data.keys.flatMap (keyErrors c.tags.coincide) ++
    layoutErrors isFile c.layout (c.baseDir dir)

end Config

end Templating
