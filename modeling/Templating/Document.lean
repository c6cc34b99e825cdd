import Templating.Machine

namespace Templating

/-- A page with all that is needed to put it together. -/
structure Document where
  setting : Setting
  page : Node

/-- What a run leaves behind. -/
structure Run where
  events : List Event
  loads : List Path
deriving DecidableEq

namespace Document

/-- The run of a document if it takes at most `fuel` moves. -/
def run? (d : Document) (load : Loader) (fuel : Nat) : Option Run :=
  let last := d.setting.after load fuel (.start d.page)
  if last.ended then some ⟨last.sent.toList, last.loads.toList⟩ else none

/-- A number of moves that is enough where the loader can read one path for each of these texts: no
chain holds one path twice, and no text has more directives than characters. -/
def moves (d : Document) (texts : List String) : Nat :=
  let longest := (d.page.source :: texts).foldl (fun n text => max n text.length) 0
  (texts.length + 2) * Nat.pow (longest + 2) (texts.length + 3)

/-- The run of a document whose loader can read one path for each of these texts. Files that can be read bound the
number of moves, so that no caller has to know a bound. -/
def run (d : Document) (load : Loader) (texts : List String) : Run :=
  (d.run? load (d.moves texts)).getD ⟨[], []⟩

end Document

end Templating
