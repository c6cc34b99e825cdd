import Templating.Project.Workspace

namespace Templating.Starter
open Workspace

def configName : String := "weft.yaml"

def config : String :=
  "base: src
layout: layout.html
output: dist

data:
  title: My Site

tags:
  data: [\"\x7b\x7b\", \"\x7d\x7d\"]
  directive: [\"<!--\", \"-->\"]

watch: [\".html\"]
"

def layout : String :=
  "<!doctype html>
<html>
<head><title>\x7b\x7btitle\x7d\x7d</title></head>
<body>
<!-- slot -->
</body>
</html>
"

def page : String :=
  "<h1>\x7b\x7btitle\x7d\x7d</h1>
<p>Rendered from \x7b\x7bdirname\x7d\x7d\x7b\x7bfilename\x7d\x7d\x7b\x7bextname\x7d\x7d</p>
"

/-- The files of a new project in `dir`, in the order of their making. -/
def files (dir : Path) : List (Path × String) :=
  let source := dir.join ⟨"src"⟩
  [(dir.join ⟨configName⟩, config), (source.join ⟨"layout.html"⟩, layout),
    (source.join ⟨"index.html"⟩, page)]

/-- What is said when a project has been made. -/
def summary (dir : Path) : String :=
  "Initialized weft project at " ++ dir.text ++ "\n" ++
    String.join ((files dir).map fun (file, _) => "  Created: " ++ file.text ++ "\n")

variable {m : Type → Type} [Monad m] [MonadExceptOf Failure m] [Workspace m]

/-- Makes a new project: its configuration, a layout and a first page. -/
def make (dir : Path) : m Unit := do
  let config := dir.join ⟨configName⟩
  if ← present config then throw (.configExists config)
  makeDirectories (dir.join ⟨"src"⟩) >>= orFail .noSourceDirectory
  (files dir).forM fun (file, text) => writeFile file (Utf8.encode text) >>= orFail (.cannotWrite file)
  print (summary dir)

end Templating.Starter
