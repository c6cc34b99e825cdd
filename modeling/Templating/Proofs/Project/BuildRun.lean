import Templating.Proofs.Project.BuildFiles
import Templating.Proofs.Project.Loaded

namespace Templating
open Workspace

/-- The directory that a build writes to. -/
def Project.target (p : Project) (here : Location) : Option Path → Path
  | some dir => ((Path.ofLocation here).join dir).normalize
  | none => p.config.outputDir p.dir

theorem Project.absolute_target {p : Project} (rooted : p.dir.isRooted = true) (here : Location)
    (output : Option Path) : (p.target here output).Absolute := by
  cases output with
  | none =>
    rw [target, Config.outputDir]
    exact Path.absolute_normalize_join rooted _
  | some dir =>
    rw [target]
    exact Path.absolute_normalize_join (Path.isRooted_ofLocation here) dir

namespace World
variable {w w' v u : World} {file : Path} {output : Option Path} {p : Project} {c : Composer} {tally : Project.Tally} {e : Failure}

theorem run_composerOrFail (new : p.composer = .ok c) : (p.composerOrFail : Action Composer).run w = .ok c w := by
  rw [Project.composerOrFail, new]
  rfl

theorem run_buildAll (new : p.composer = .ok c) (w : World) (out : Path) :
    (p.buildAll out : Action Project.Tally).run w =
      (p.buildFiles c out ((w.visitsAt c.options.root).map .of) ⟨0, 0, 0⟩ : Action Project.Tally).run w := by
  unfold Project.buildAll
  rw [EStateM.run_bind, run_composerOrFail new]
  dsimp only
  rw [EStateM.run_bind, run_walk]

theorem exists_run_build (loaded : (Project.load file : Action Project).run w = .ok p v) (output : Option Path) :
    ∃ summary : Project.Tally → String, (Project.build file output : Action Unit).run w =
      (p.buildAll (p.target v.here output) >>= fun tally => print (summary tally) : Action Unit).run v := by
  unfold Project.build
  rw [EStateM.run_bind, loaded]
  cases output with
  | none => exact ⟨_, rfl⟩
  | some dir =>
    have stands := ((keeps_load file).ok loaded).stands (stands_of_run_load loaded)
    dsimp only
    rw [EStateM.run_bind, run_absolute stands]
    exact ⟨_, rfl⟩

/-- A build succeeds if the project is loaded and its files are built; what is told at the end changes no file. -/
theorem run_build_ok (loaded : (Project.load file : Action Project).run w = .ok p v)
    (built : (p.buildAll (p.target v.here output) : Action Project.Tally).run v = .ok tally u) :
    ∃ w', w.run (.build file output) = (.ok (), w') ∧ SameFiles u w' := by
  obtain ⟨summary, ran⟩ := exists_run_build loaded output
  rw [EStateM.run_bind, built] at ran
  refine ⟨{ u with printed := u.printed ++ summary tally }, ?_, rfl, rfl⟩
  have ended : (Command.run (.build file output) : Action Unit).run w =
      .ok () { u with printed := u.printed ++ summary tally } := ran
  rw [World.run, ended]

theorem run_build_error (loaded : (Project.load file : Action Project).run w = .ok p v)
    (failed : (p.buildAll (p.target v.here output) : Action Project.Tally).run v = .error e u) :
    w.run (.build file output) = (.error e, u) := by
  obtain ⟨summary, ran⟩ := exists_run_build loaded output
  rw [EStateM.run_bind, failed] at ran
  have ended : (Command.run (.build file output) : Action Unit).run w = .error e u := ran
  rw [World.run, ended]

/-- A build that succeeds has built the files of its project, in the workspace that loading left. -/
theorem run_buildAll_of_run_build (loaded : (Project.load file : Action Project).run w = .ok p v)
    (ran : w.run (.build file output) = (.ok (), w')) :
    ∃ tally u, (p.buildAll (p.target v.here output) : Action Project.Tally).run v = .ok tally u ∧ SameFiles u w' := by
  cases built : (p.buildAll (p.target v.here output) : Action Project.Tally).run v with
  | ok tally u =>
    obtain ⟨_, ran', told⟩ := run_build_ok loaded built
    cases ran.symm.trans ran'
    exact ⟨tally, u, rfl, told⟩
  | error e u =>
    rw [run_build_error loaded built] at ran
    cases ran

theorem run_build_unloaded (failed : (Project.load file : Action Project).run w = .error e v) (output : Option Path) :
    w.run (.build file output) = (.error e, v) := by
  have ended : (Command.run (.build file output) : Action Unit).run w = .error e v := by
    change (Project.build file output : Action Unit).run w = _
    unfold Project.build
    rw [EStateM.run_bind, failed]
  rw [World.run, ended]

end World

namespace Build
variable {w : World} {p : Project} {c : Composer} {file : Path} {output : Option Path}

/-- The build of a project into a directory. -/
@[irreducible] def of (p : Project) (c : Composer) (output : Option Path) (w : World) : Build :=
  ⟨p, c, p.base.location [], (p.target w.here output).location [], w⟩

/-- The build of a loaded project in a workspace that is in order has its directories given from the root. -/
theorem of_eq (sound : w.tree.Sound) (loads : w.Loads file p) (new : p.composer = .ok c) (output : Option Path) :
    ∃ b : Build, of p c output w = b ∧ b.Sound ∧ b.project = p ∧ b.composer = c ∧ b.start = w ∧
      p.target w.here output = .ofLocation b.out := by
  have dir := loads.isRooted_dir sound
  obtain ⟨namedBase, base⟩ := (loads.absolute_base sound).ofLocation_location
  obtain ⟨namedOut, out⟩ := (Project.absolute_target dir w.here output).ofLocation_location
  have root : c.options.root = p.base := by
    rw [(Composer.new_eq new).1, Options.root_ofConfig, Project.base]
  rw [of]
  generalize p.base.location [] = baseAt at namedBase base
  generalize (p.target w.here output).location [] = outAt at namedOut out
  exact ⟨_, rfl, ⟨sound, root.trans base, namedBase, namedOut⟩, rfl, rfl, rfl, out⟩

theorem run_buildAll {b : Build} (sound : b.Sound) (new : b.project.composer = .ok b.composer) (s : World) :
    (b.project.buildAll (.ofLocation b.out) : World.Action Project.Tally).run s =
      (b.buildEach (b.visits s) ⟨0, 0, 0⟩).run s := by
  rw [World.run_buildAll new, sound.root]
  rfl

end Build

end Templating
