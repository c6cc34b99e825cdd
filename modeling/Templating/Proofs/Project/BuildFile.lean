import Templating.Proofs.Project.Outputs
import Templating.Proofs.Project.Reading

namespace Templating
open Workspace

namespace World
variable {w v : World}

theorem SameFiles.load (same : SameFiles w v) : v.load = w.load := by
  funext p
  unfold World.load
  rw [same.tree, same.here]

theorem SameFiles.texts (same : SameFiles w v) : v.texts = w.texts := by
  unfold World.texts
  rw [same.tree]

def rendering (w : World) (c : Composer) (file : Path) : Rendering :=
  match c.load w.load file with
  | .ok d => .ofEvents (d.run w.load w.texts).events
  | .error _ => ⟨"", []⟩

theorem rendering_of_load {c : Composer} {file : Path} {d : Document} (loaded : c.load w.load file = .ok d) :
    w.rendering c file = .ofEvents (d.run w.load w.texts).events := by
  rw [rendering, loaded]

end World

/-- A build of a project from its base directory into another one, as it begins. -/
structure Build where
  project : Project
  composer : Composer
  base : Location
  out : Location
  start : World

namespace Build
variable (b : Build) (below : Location)

def file : Path := .ofLocation (b.base ++ below)

def takes : Bool := b.project.takesPart (.ofLocation b.out) (b.file below)

/-- Whether a file of the base directory is built: it is found to be a file, and takes part. -/
def picks : Bool := b.start.tree.isFile b.start.here (b.file below) && b.takes below

def composes : Bool := b.project.config.isWatched (b.file below)

/-- The bytes of a file at the beginning. -/
def source : List UInt8 :=
  match b.start.tree.entry? (b.base ++ below) with
  | some (.file bytes) => bytes
  | _ => []

def rendering : Rendering := b.start.rendering b.composer (b.file below)

/-- What a file comes to. -/
def result : List UInt8 := if b.composes below then Utf8.encode (b.rendering below).text else b.source below

def counted (tally : Project.Tally) : Project.Tally :=
  if b.composes below then
    { tally with composed := tally.composed + 1, errors := tally.errors + (b.rendering below).errors.length }
  else { tally with copied := tally.copied + 1 }

def buildOne (tally : Project.Tally) : World.Action Project.Tally :=
  b.project.buildFile b.composer (.ofLocation b.out) (.relative below) tally

end Build

namespace World
variable {s : World} {p : Project} {c : Composer} {out below : Path} {file target : Location} {bytes : List UInt8}
  {d : Document}

/-- A watched file leaves the text of its page behind, and is counted as composed with its errors. -/
theorem lays_buildFile_composed (tally : Project.Tally) (watched : p.config.isWatched (.ofLocation file) = true)
    (sound : s.tree.Sound) (named : target.Named) (inner : target ≠ [])
    (fileAt : c.options.root.join below = .ofLocation file) (targetAt : out.join below = .ofLocation target)
    (loaded : c.load s.load (.ofLocation file) = .ok d) :
    Lays (p.buildFile c out below tally) s
      { tally with
        composed := tally.composed + 1
        errors := tally.errors + (s.rendering c (.ofLocation file)).errors.length }
      target (Utf8.encode (s.rendering c (.ofLocation file)).text) := by
  rw [rendering_of_load loaded]
  unfold Project.buildFile
  rw [fileAt, targetAt, if_pos watched]
  obtain ⟨v, told, same⟩ := run_log_ok s (.composing below.toSlash)
  refine Lays.before told same ?_
  have composed : (composeFile c (.ofLocation file) : Action Run).run v = .ok (d.run s.load s.texts) v :=
    run_composeFile_ok.mpr ⟨d, by rw [same.load, loaded], by rw [same.load, same.texts], rfl⟩
  refine Lays.before composed (.refl v) ?_
  obtain ⟨u, logged, same'⟩ := exists_run_logs (fun e : ResolveError => e.logged c.options.root)
    (Rendering.ofEvents (d.run s.load s.texts).events).errors v
  refine Lays.before logged same' ?_
  have sound' : u.tree.Sound := by rwa [(same.trans same').tree]
  exact (lays_writeOutput sound' named inner _).giving _

/-- A file that is not watched leaves its bytes behind, and is counted as copied. -/
theorem lays_buildFile_copied (tally : Project.Tally) (unwatched : p.config.isWatched (.ofLocation file) = false)
    (sound : s.tree.Sound) (namedFile : file.Named) (fits : file.Fits) (named : target.Named) (inner : target ≠ [])
    (fileAt : c.options.root.join below = .ofLocation file) (targetAt : out.join below = .ofLocation target)
    (there : s.tree.entry? file = some (.file bytes)) :
    Lays (p.buildFile c out below tally) s { tally with copied := tally.copied + 1 } target bytes := by
  unfold Project.buildFile
  rw [fileAt, targetAt, if_neg (Bool.eq_false_iff.mp unwatched)]
  have copied := (lays_copy sound named inner namedFile fits there (.cannotCopy (.ofLocation file))).giving
    { tally with copied := tally.copied + 1 }
  rwa [bind_assoc] at copied

end World

namespace Build
variable {b : Build} {done : List Location} {s s' : World} {below l : Location} {tally : Project.Tally}

/-- The files that a build has to do with: those below the base directory that take part, if the system takes their
paths. -/
structure Processes (b : Build) (below : Location) : Prop where
  inner : below ≠ []
  there : ∃ bytes, b.start.tree.entry? (b.base ++ below) = some (.file bytes)
  fits : (b.base ++ below).Fits
  takes : b.takes below = true

/-- The workspace is in order, and the directories are given from the root. -/
structure Sound (b : Build) : Prop where
  tree : b.start.tree.Sound
  root : b.composer.options.root = .ofLocation b.base
  base : b.base.Named
  out : b.out.Named

theorem Sound.isRooted_root (sound : b.Sound) : b.composer.options.root.isRooted = true := by
  rw [sound.root, Path.isRooted_ofLocation]

/-- No page that is composed asks for anything in the directory of the results. -/
def ReadsApart (b : Build) : Prop :=
  ∀ below, b.Processes below → b.composes below = true → ∀ d,
    b.composer.load b.start.load (b.file below) = .ok d →
      ∀ p ∈ (d.run b.start.load b.start.texts).loads, p.startsWith (.ofLocation b.out) = false

def targets (b : Build) (done : List Location) : List Location := done.map (b.out ++ ·)

/-- What comes to lie at a target. -/
def content (b : Build) (target : Location) : List UInt8 := b.result (target.drop b.out.length)

@[simp] theorem content_target (b : Build) (below : Location) : b.content (b.out ++ below) = b.result below := by
  rw [content, List.drop_left]

theorem mem_targets : l ∈ b.targets done ↔ ∃ below ∈ done, b.out ++ below = l := List.mem_map

theorem Processes.named (processes : b.Processes below) (sound : b.Sound) : (b.base ++ below).Named := by
  obtain ⟨bytes, there⟩ := processes.there
  exact sound.tree.named there

theorem Processes.namedBelow (processes : b.Processes below) (sound : b.Sound) : below.Named :=
  (Location.named_append.mp (processes.named sound)).2

theorem Processes.join_relative (processes : b.Processes below) (sound : b.Sound) :
    b.composer.options.root.join (.relative below) = .ofLocation (b.base ++ below) := by
  rw [sound.root, Path.join_relative sound.base (processes.namedBelow sound) processes.inner]

/-- What takes part in a build does not lie in the directory of the results. -/
theorem outside_of_takes (sound : b.Sound) (named : (b.base ++ below).Named) (takes : b.takes below = true) :
    ¬b.out <+: b.base ++ below := by
  intro inside
  have started := (Path.startsWith_ofLocation named sound.out).mpr inside
  have taken : b.project.takesPart (.ofLocation b.out) (.ofLocation (b.base ++ below)) = true := takes
  rw [Project.takesPart, started] at taken
  cases taken

theorem Processes.outside (processes : b.Processes below) (sound : b.Sound) : ¬b.out <+: b.base ++ below :=
  outside_of_takes sound (processes.named sound) processes.takes

theorem processes_iff (sound : b.Sound) (named : below.Named) (inner : below ≠ []) :
    b.Processes below ↔ b.picks below = true := by
  have whole : (b.base ++ below).Named := Location.named_append.mpr ⟨sound.base, named⟩
  rw [picks, Bool.and_eq_true, file, sound.tree.isFile_iff whole]
  exact ⟨fun processes => ⟨⟨processes.fits, processes.there⟩, processes.takes⟩,
    fun ⟨⟨fits, there⟩, takes⟩ => ⟨inner, there, fits, takes⟩⟩

/-- Where files have come and gone among the results alone, the same files are picked. -/
theorem picks_eq (sound : b.Sound) (sound' : s.tree.Sound)
    (files : ∀ l bytes, ¬b.out <+: l →
      (s.tree.entry? l = some (.file bytes) ↔ b.start.tree.entry? l = some (.file bytes)))
    (named : below.Named) : (s.tree.isFile s.here (b.file below) && b.takes below) = b.picks below := by
  have whole : (b.base ++ below).Named := Location.named_append.mpr ⟨sound.base, named⟩
  rw [picks]
  cases takes : b.takes below with
  | false => rw [Bool.and_false, Bool.and_false]
  | true =>
    have outside := outside_of_takes sound whole takes
    rw [Bool.and_true, Bool.and_true, Bool.eq_iff_iff, file, sound'.isFile_iff whole, sound.tree.isFile_iff whole]
    exact and_congr_right fun _ => exists_congr fun bytes => files _ bytes outside

/-- The targets of files stand apart, because files do: one path does not lead through another file. -/
theorem apart_targets (sound : b.Sound) (processes : ∀ below ∈ done, b.Processes below) :
    FileTree.Apart (b.targets done) := by
  intro l member l' member' prefixed
  obtain ⟨below, inside, rfl⟩ := mem_targets.mp member
  obtain ⟨below', inside', rfl⟩ := mem_targets.mp member'
  rw [List.prefix_append_right_inj] at prefixed
  -- The files themselves do not lie below one another.
  by_contra apart
  obtain ⟨bytes, there⟩ := (processes below inside).there
  obtain ⟨bytes', there'⟩ := (processes below' inside').there
  have higher : b.base ++ below <+: b.base ++ below' := (List.prefix_append_right_inj b.base).mpr prefixed
  have other : b.base ++ below ≠ b.base ++ below' := fun same => apart (by rw [List.append_cancel_left same])
  exact sound.tree.not_file_above there' higher other there

theorem named_of_mem_targets (sound : b.Sound) (processes : ∀ below ∈ done, b.Processes below) :
    ∀ l ∈ b.targets done, l.Named := by
  intro l member
  obtain ⟨below, inside, rfl⟩ := mem_targets.mp member
  exact Location.named_append.mpr ⟨sound.out, (processes below inside).namedBelow sound⟩

/-- The workspace while the files are built one by one. Where files have been written since the build began, but none
that a page asks for, each further file comes to the same as at the beginning. -/
structure During (b : Build) (done : List Location) (s : World) : Prop where
  processes : ∀ below ∈ done, b.Processes below
  receives : ∀ below ∈ done, b.start.tree.Receives (b.out ++ below)
  laid : FileTree.Laid b.start.tree s.tree b.content (b.targets done)
  here : s.here = b.start.here

namespace During
variable (during : b.During done s)
include during

theorem receives_targets : ∀ l ∈ b.targets done, b.start.tree.Receives l := by
  intro l member
  obtain ⟨below, inside, rfl⟩ := mem_targets.mp member
  exact during.receives below inside

/-- Outside the directory of the results the same files are there as at the beginning, with the same bytes. -/
theorem file_iff (outside : ¬b.out <+: l) (bytes : List UInt8) :
    s.tree.entry? l = some (.file bytes) ↔ b.start.tree.entry? l = some (.file bytes) := by
  refine during.laid.file_iff during.receives_targets fun member => ?_
  obtain ⟨below, _, rfl⟩ := mem_targets.mp member
  exact outside (List.prefix_append ..)

/-- Outside the directory of the results the same texts are loaded as at the beginning. -/
theorem load_iff (sound : b.Sound) (named : l.Named) (outside : ¬b.out <+: l) (text : String) :
    s.load (.ofLocation l) = .ok text ↔ b.start.load (.ofLocation l) = .ok text := by
  rw [World.load_ok_iff during.laid.sound named, World.load_ok_iff sound.tree named]
  exact and_congr_right fun _ => exists_congr fun bytes => and_congr_left fun _ => during.file_iff outside bytes

/-- A page comes to the same text as at the beginning, with as many errors. -/
theorem exists_rendering (sound : b.Sound) (apart : b.ReadsApart) (processes : b.Processes below)
    (composes : b.composes below = true) :
    ∃ d, b.composer.load s.load (b.file below) = .ok d ∧
      (s.rendering b.composer (b.file below)).text = (b.rendering below).text ∧
      (s.rendering b.composer (b.file below)).errors.length = (b.rendering below).errors.length := by
  have named := processes.named sound
  have fits := processes.fits
  obtain ⟨bytes, there⟩ := processes.there
  have read := (World.load_ok_iff sound.tree named).mpr ⟨fits, bytes, there, rfl⟩
  have read' := (during.load_iff sound named (processes.outside sound) _).mpr read
  obtain ⟨d, made, rooted, ran, opens⟩ := World.exists_document sound.tree sound.isRooted_root named fits there
  have absolute := rooted.absolute_of_run? made (World.refusesRoot sound.tree) ran
  have alike : ∀ p ∈ (d.run b.start.load b.start.texts).loads, ∀ text,
      s.load p = .ok text ↔ b.start.load p = .ok text := by
    intro p asked text
    obtain ⟨l, named, rfl⟩ := Path.exists_location (absolute p asked).rooted (absolute p asked).canonical
    refine during.load_iff sound named (fun inside => ?_) text
    have away := apart _ processes composes d (opens _ read) _ asked
    rw [(Path.startsWith_ofLocation named sound.out).mpr inside] at away
    cases away
  -- Only the messages of errors may be others, and a rendering counts errors whatever their messages.
  obtain ⟨r, ran', same⟩ := made.exists_run?_alike ran alike
  have whole := made.run?_unique ran' (World.run?_eq_run during.laid.sound made rooted)
  rw [whole] at same
  refine ⟨d, opens _ read', ?_⟩
  rw [rendering, file, World.rendering_of_load (opens _ read'), World.rendering_of_load (opens _ read)]
  exact Rendering.ofEvents_of_muted same

/-- A file that the build has to do with leaves its result behind at its target, in whatever workspace of the build
its turn comes. -/
theorem lays_buildOne (sound : b.Sound) (apart : b.ReadsApart) (processes : b.Processes below)
    (tally : Project.Tally) :
    World.Lays (b.buildOne below tally) s (b.counted below tally) (b.out ++ below) (b.result below) := by
  have namedBelow := processes.namedBelow sound
  have named : (b.out ++ below).Named := Location.named_append.mpr ⟨sound.out, namedBelow⟩
  have inner : b.out ++ below ≠ [] := List.append_ne_nil_of_right_ne_nil b.out processes.inner
  have fileAt := processes.join_relative sound
  have targetAt := Path.join_relative sound.out namedBelow processes.inner
  cases composes : b.composes below with
  | true =>
    obtain ⟨d, loaded, text, errors⟩ := during.exists_rendering sound apart processes composes
    rw [counted, if_pos composes, result, if_pos composes, ← text, ← errors]
    exact World.lays_buildFile_composed tally composes during.laid.sound named inner fileAt targetAt loaded
  | false =>
    obtain ⟨bytes, there⟩ := processes.there
    have source : b.source below = bytes := by rw [Build.source, there]
    rw [counted, composes, if_neg Bool.false_ne_true, result, composes, if_neg Bool.false_ne_true, source]
    exact World.lays_buildFile_copied tally composes during.laid.sound (processes.named sound) processes.fits named
      inner fileAt targetAt ((during.file_iff (processes.outside sound) bytes).mpr there)

/-- A file can be built exactly if its place can receive a file at the beginning. -/
theorem buildOne (sound : b.Sound) (apart : b.ReadsApart) (processes : b.Processes below) (tally : Project.Tally) :
    (∀ tally' s', (b.buildOne below tally).run s = .ok tally' s' →
        tally' = b.counted below tally ∧ b.During (below :: done) s') ∧
      (b.start.tree.Receives (b.out ++ below) → ∃ tally' s', (b.buildOne below tally).run s = .ok tally' s') := by
  have all : ∀ f ∈ below :: done, b.Processes f := List.forall_mem_cons.mpr ⟨processes, during.processes⟩
  have targets := apart_targets sound all
  have receives := during.laid.receives_iff during.receives_targets targets
  have lays := during.lays_buildOne sound apart processes tally
  constructor
  · intro tally' s' ran
    obtain ⟨same, free, placed, here⟩ := lays.effect tally' s' ran
    rw [← b.content_target below] at placed
    exact ⟨same, all, List.forall_mem_cons.mpr ⟨receives.mp free, during.receives⟩,
      during.laid.place targets placed, here.trans during.here⟩
  · exact fun free => lays.possible (receives.mpr free)

end During

end Build

end Templating
