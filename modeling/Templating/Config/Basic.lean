import Templating.Composer
import Templating.Yaml.Print

namespace Templating

/-- The configuration of a project: where its texts lie, how they are composed, and which files are composed at all.
-/
structure Config where
  /-- The directory of the texts, as seen from that of the configuration. -/
  base : Option Path
  /-- The default layout, as seen from the directory of the texts. -/
  layout : Option String
  data : OrderedMap Yaml.Value
  tags : Tags
  /-- The extensions of the files that are composed, with their dots. -/
  watch : List String
  /-- The directory of the results, as seen from that of the configuration. -/
  output : Path

namespace Config

def alwaysWatched : List String := [".htm", ".html"]

/-- The configuration of a project that has none. -/
def default : Config := ⟨none, none, [], .default, alwaysWatched, ⟨"dist"⟩⟩

/-- The extensions of the files that are composed, in lower case, each once. -/
def watchedExtensions (c : Config) : List String :=
  ((c.watch ++ alwaysWatched).map Text.lowercase).eraseDups

def isWatched (c : Config) (p : Path) : Bool :=
  match p.extension? with
  | some extension => c.watchedExtensions.contains ("." ++ Text.lowercase extension)
  | none => false

/-- The directory of the texts, for a configuration that lies in `dir`. -/
def baseDir (c : Config) (dir : Path) : Path := (dir.join (c.base.getD ⟨""⟩)).normalize

/-- The directory of the results, for a configuration that lies in `dir`. -/
def outputDir (c : Config) (dir : Path) : Path := (dir.join c.output).normalize

/-- The path of the default layout, for a configuration that lies in `dir`. -/
def layoutPath? (c : Config) (dir : Path) : Option Path :=
  c.layout.map fun layout => Path.layoutTarget layout (c.baseDir dir)

end Config

/-- The text that stands for a value in a document. Collections are written as YAML. -/
def Yaml.Value.text : Yaml.Value → String
  | .string s => s
  | .null => ""
  | .bool b => if b then "true" else "false"
  | .integer n => toString n
  | .float x => Yaml.floatText x
  | v => String.ofList (Text.dropSpacesRight v.print.toList)

/-- The options of a project whose configuration lies in `dir`. -/
def Options.ofConfig (c : Config) (dir : Path) : Options :=
  let plain := (Options.new (c.baseDir dir)).withTags c.tags
  let options := c.data.foldl (fun o (key, value) => o.withData key (.text value.text)) plain
  match c.layout.filter (· != "") with
  | some layout => options.withLayout (.path (Path.layoutTarget layout options.root))
  | none => options

end Templating
