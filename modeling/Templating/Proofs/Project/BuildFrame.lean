import Templating.Proofs.Project.BuildExact
import Templating.Proofs.Project.Frame

namespace Templating

namespace Location

/-- A location is somewhere inside a directory. -/
def Below (loc out : Location) : Prop := ∃ below : Location, below ≠ [] ∧ loc = out ++ below

/-- One of two locations leads to the other. -/
def InLine (loc out : Location) : Prop := loc <+: out ∨ out <+: loc

variable {loc higher out : Location}

theorem InLine.above (line : loc.InLine out) (prefixed : higher <+: loc) : higher.InLine out := by
  rcases line with before | behind
  · exact .inl (prefixed.trans before)
  · exact List.prefix_or_prefix_of_prefix prefixed behind

theorem InLine.before (line : loc.InLine out) (outside : ¬loc.Below out) : loc <+: out := by
  rcases line with before | ⟨below, rfl⟩
  · exact before
  · by_cases same : below = []
    · simp only [same, List.append_nil, List.prefix_refl]
    · exact absurd ⟨below, same, rfl⟩ outside

/-- The paths at which a build makes directories. -/
def Paths (out : Location) (p : Path) : Prop :=
  ∃ loc : Location, loc.Named ∧ loc.InLine out ∧ p = .ofLocation loc

theorem Paths.parent {p up : Path} (path : Paths out p) (parent : p.parent? = some up) : Paths out up := by
  obtain ⟨loc, named, line, rfl⟩ := path
  rcases List.eq_nil_or_concat loc with rfl | ⟨above, name, rfl⟩
  · cases parent
  · rw [List.concat_eq_append] at named line parent
    cases (Path.parent?_ofLocation named).symm.trans parent
    exact ⟨above, (named_concat.mp named).1, InLine.above line (List.prefix_append ..), rfl⟩

theorem Paths.inLine {p : Path} (path : Paths out p) (here : Location) : Location.InLine (p.location here) out := by
  obtain ⟨loc, named, line, rfl⟩ := path
  rwa [Path.location_ofLocation named]

end Location

/-- Outside a directory nothing is changed or removed, and only the directory and those above it are new. -/
structure FileTree.KeepsBeside (t : FileTree) (out : Location) (t' : FileTree) : Prop where
  kept : ∀ {l : Location} {e : Entry}, ¬l.Below out → t.entry? l = some e → t'.entry? l = some e
  added : ∀ {l : Location} {e : Entry}, ¬l.Below out → t.entry? l = none → t'.entry? l = some e →
    e = .directory ∧ l <+: out
  /-- Inside it, too, nothing is removed, and files and directories do not replace each other. -/
  stays : ∀ {l : Location} {e : Entry}, t.entry? l = some e →
    ∃ e', t'.entry? l = some e' ∧ (e' = .directory ↔ e = .directory)

/-- What touches nothing but directories in line with the results and files below them leaves the rest alone. -/
theorem FileTree.Touches.keepsBeside {out : Location} {t t' : FileTree}
    (touches : t.Touches (·.InLine out) (fun l _ => l.Below out) t') : t.KeepsBeside out t' := by
  constructor
  · intro l e outside there
    rcases touches l with same | ⟨_, missing, _⟩ | ⟨_, inside, _⟩
    · rw [same, there]
    · cases there.symm.trans missing
    · exact absurd inside outside
  · intro l e outside missing there
    rcases touches l with same | ⟨line, _, made⟩ | ⟨_, inside, _⟩
    · cases (same.trans missing).symm.trans there
    · cases made.symm.trans there
      exact ⟨rfl, line.before outside⟩
    · exact absurd inside outside
  · intro l e there
    rcases touches l with same | ⟨_, missing, _⟩ | ⟨bytes, _, other, wrote⟩
    · exact ⟨e, same.trans there, Iff.rfl⟩
    · cases there.symm.trans missing
    · exact ⟨_, wrote, iff_of_false nofun fun directory => other (directory ▸ there)⟩

namespace World
open Workspace

variable {w v : World} {out below here : Location} {p : Project} {c : Composer}

theorem keeps_composeFile (c : Composer) (file : Path) : Keeps (composeFile c file : Action Run) := by
  have loads : Keeps (Workspace.load (c.resolve file) : Action (Except String String)) :=
    keeps_of_run fun w => ⟨_, w, rfl, .refl w⟩
  have composes (d : Document) : Keeps (compose d : Action Run) := keeps_of_run fun w => ⟨_, w, rfl, .refl w⟩
  unfold composeFile
  split
  · exact keeps_throw (.compose .missingPath)
  · refine loads.bind fun answer => ?_
    split
    · exact keeps_throw _
    · split
      · exact composes _
      · exact keeps_throw _

/-- Building one file makes directories in line with the results and writes below them, if it comes to that. -/
theorem touching_buildFile (named : out.Named) (namedBelow : below.Named) (inner : below ≠ [])
    (tally : Project.Tally) :
    Touching here (·.InLine out) (fun l _ => l.Below out)
      (p.buildFile c (.ofLocation out) (.relative below) tally) := by
  have whole := Location.named_append.mpr ⟨named, namedBelow⟩
  have target : (Path.ofLocation out).join (.relative below) = .ofLocation (out ++ below) :=
    Path.join_relative named namedBelow inner
  have path : Location.Paths out (.ofLocation (out ++ below)) :=
    ⟨_, whole, .inr (List.prefix_append ..), rfl⟩
  have inside : Location.Below ((Path.ofLocation (out ++ below)).location here) out := by
    rw [Path.location_ofLocation whole]
    exact ⟨below, inner, rfl⟩
  have logs (entry : LogEntry) : Keeps (log entry : Action Unit) :=
    keeps_of_run fun w => ⟨(), run_log_ok w entry⟩
  unfold Project.buildFile
  rw [target]
  dsimp only
  split
  · refine (logs _).touching.bind fun _ => (keeps_composeFile c _).touching.bind fun run => ?_
    refine (keeps_of_run fun w => ⟨(), exists_run_logs _ _ w⟩).touching.bind fun _ => ?_
    exact (touching_writeOutput Location.Paths.parent (Location.Paths.inLine · here) path inside).bind fun _ =>
      (keeps_pure _).touching
  · refine (touching_makeParent Location.Paths.parent (Location.Paths.inLine · here) path).bind fun _ => ?_
    exact ((touching_copyFile _ fun _ => inside).orFail _).bind fun _ => (keeps_pure _).touching

theorem touching_buildFiles (named : out.Named) (walked : List (Location × Option FileError))
    (inside : ∀ visit ∈ walked, visit.1.Named ∧ visit.1 ≠ []) (tally : Project.Tally) :
    Touching here (·.InLine out) (fun l _ => l.Below out)
      (p.buildFiles c (.ofLocation out) (walked.map .of) tally) := by
  have looks (file : Path) : Keeps (isFile file : Action Bool) := keeps_of_run fun w => ⟨_, w, run_isFile file, .refl w⟩
  induction walked generalizing tally with
  | nil => exact (keeps_pure tally).touching
  | cons visit walked ih =>
    obtain ⟨below, fault?⟩ := visit
    obtain ⟨⟨namedBelow, inner⟩, others⟩ := List.forall_mem_cons.mp inside
    cases fault? with
    | some e => exact (keeps_throw (.cannotWalk c.options.root (c.options.root.join (.relative below)) e)).touching
    | none =>
      refine (looks (c.options.root.join (.relative below))).touching.bind fun there => ?_
      split
      · exact (touching_buildFile named namedBelow inner tally).bind fun tally => ih others tally
      · exact ih others tally

/-- The same holds of the whole build of a loaded project, whether it succeeds or fails. -/
theorem touches_buildAll (sound : w.tree.Sound) (p : Project) (named : out.Named) :
    (∀ {tally w'}, (p.buildAll (.ofLocation out) : Action Project.Tally).run w = .ok tally w' →
      w.tree.Touches (·.InLine out) (fun l _ => l.Below out) w'.tree) ∧
    ∀ {e w'}, (p.buildAll (.ofLocation out) : Action Project.Tally).run w = .error e w' →
      w.tree.Touches (·.InLine out) (fun l _ => l.Below out) w'.tree := by
  cases new : p.composer with
  | error fault =>
    have failed : (p.buildAll (.ofLocation out) : Action Project.Tally).run w = .error (.compose fault) w := by
      unfold Project.buildAll Project.composerOrFail
      rw [new]
      rfl
    refine ⟨fun ran => ?_, fun ran => ?_⟩
    · cases failed.symm.trans ran
    · cases failed.symm.trans ran
      exact .refl _
  | ok c =>
    have touching : Touching w.here _ _
        (p.buildFiles c (.ofLocation out) ((w.visitsAt c.options.root).map .of) ⟨0, 0, 0⟩) :=
      touching_buildFiles named _ (named_of_mem_visitsAt sound _) ⟨0, 0, 0⟩
    rw [run_buildAll new]
    exact ⟨fun ran => (touching.ok rfl ran).2, fun ran => (touching.error rfl ran).2⟩

/-- A build leaves everything alone that is not below its directory, however it ends. If it does not come to load the
project the files are as before; else this directory and those above it may be new, and nothing else. The tree is
assumed to be in order, but nothing is assumed of the configuration, of the walk or of where the directories lie. -/
theorem build_keeps_beside (inOrder : w.tree.Sound) (file : Path) (output : Option Path) :
    (∃ e v, (Project.load file : Action Project).run w = .error e v ∧
      w.run (.build file output) = (.error e, v) ∧ v.tree = w.tree) ∨
    ∃ p v out, (Project.load file : Action Project).run w = .ok p v ∧
      p.target w.here output = .ofLocation out ∧ out.Named ∧
        w.tree.KeepsBeside out (w.run (.build file output)).2.tree := by
  cases loaded : (Project.load file : Action Project).run w with
  | error e v => exact .inl ⟨e, v, rfl, run_build_unloaded loaded output, ((keeps_load file).error loaded).tree⟩
  | ok p v =>
    have same := (keeps_load file).ok loaded
    have dir := (loads_of_run_load loaded).isRooted_dir inOrder
    obtain ⟨named, target⟩ := (Project.absolute_target dir w.here output).ofLocation_location
    generalize (p.target w.here output).location [] = out at named target
    refine .inr ⟨p, v, out, rfl, target, named, FileTree.Touches.keepsBeside ?_⟩
    obtain ⟨built, stopped⟩ := touches_buildAll (same.tree ▸ inOrder) p named
    rw [← target, ← same.here, same.tree] at built stopped
    cases ran : (p.buildAll (p.target v.here output) : Action Project.Tally).run v with
    | ok tally u =>
      obtain ⟨w', ended, told⟩ := run_build_ok loaded ran
      rw [ended, told.tree]
      exact built ran
    | error e u =>
      rw [run_build_error loaded ran]
      exact stopped ran

/-- The note beside the results is as before. -/
theorem build_keeps_beside_noteSite : noteSite.tree.Sound ∧
    noteSite.tree.KeepsBeside ["site", "dist"] (noteSite.run (.build ⟨"weft.yaml"⟩ none)).2.tree ∧
      (noteSite.run (.build ⟨"weft.yaml"⟩ none)).2.tree.entry? ["site", "note.txt"] =
        some (.file (Utf8.encode "Hello")) := by
  rcases build_keeps_beside sound_noteSite ⟨"weft.yaml"⟩ none with
    ⟨e, v, failed, _⟩ | ⟨p, v, out, loaded, target, named, keeps⟩
  · cases load_noteSite.symm.trans failed
  · cases load_noteSite.symm.trans loaded
    have place : (noteProject.target noteSite.here none).location [] = ["site", "dist"] := by decide +kernel
    rw [target, Path.location_ofLocation named] at place
    subst place
    refine ⟨sound_noteSite, keeps, keeps.kept ?_ rfl⟩
    rintro ⟨below, _, inside⟩
    exact absurd (List.prefix_append ["site", "dist"] below) (inside ▸ by decide)

end World

end Templating
