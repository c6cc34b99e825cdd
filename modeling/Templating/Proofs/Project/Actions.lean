import Templating.Project.World

namespace Templating

/-- The configuration without a default layout that is not there. -/
def Config.withPresentLayout (c : Config) (isFile : Path → Bool) (dir : Path) : Config :=
  if (c.layoutPath? dir).all isFile then c else { c with layout := none }

namespace World
open Workspace

variable {α β : Type} {w w' : World}

/-- Nothing is different but what has been told. -/
structure SameFiles (w w' : World) : Prop where
  tree : w'.tree = w.tree
  here : w'.here = w.here

theorem SameFiles.refl (w : World) : SameFiles w w := ⟨rfl, rfl⟩

theorem SameFiles.trans {v : World} (first : SameFiles w v) (second : SameFiles v w') : SameFiles w w' :=
  ⟨second.tree.trans first.tree, second.here.trans first.here⟩

/-- Two actions one after the other succeed exactly if both do. -/
theorem run_bind_ok {x : Action α} {f : α → Action β} {b : β} :
    (x >>= f).run w = .ok b w' ↔ ∃ a v, x.run w = .ok a v ∧ (f a).run v = .ok b w' := by
  rw [EStateM.run_bind]
  cases x.run w with
  | ok a v => exact ⟨fun ran => ⟨a, v, rfl, ran⟩, fun ⟨_, _, same, ran⟩ => by cases same; exact ran⟩
  | error e v => exact ⟨nofun, fun ⟨_, _, ran, _⟩ => nomatch ran⟩

theorem run_bind_error {x : Action α} {f : α → Action β} {e : Failure} :
    (x >>= f).run w = .error e w' ↔
      x.run w = .error e w' ∨ ∃ a v, x.run w = .ok a v ∧ (f a).run v = .error e w' := by
  rw [EStateM.run_bind]
  cases x.run w with
  | ok a v =>
    refine ⟨fun ran => .inr ⟨a, v, rfl, ran⟩, ?_⟩
    rintro (ran | ⟨_, _, same, ran⟩)
    · cases ran
    · cases same
      exact ran
  | error e' v =>
    constructor
    · intro ran
      cases ran
      exact .inl rfl
    · rintro (ran | ⟨_, _, ran, _⟩)
      · cases ran
        rfl
      · cases ran

section Changes
variable {f : World → Except FileError FileTree}

theorem run_change_of_ok {t : FileTree} (changed : f w = .ok t) :
    (change f).run w = .ok (.ok ()) { w with tree := t } := by
  unfold change
  rw [EStateM.run_bind]
  dsimp only [EStateM.run_get]
  rw [changed]
  rfl

/-- A change that is not possible leaves everything as it is and gives the error of the system. -/
theorem run_change_of_error {e : FileError} (failed : f w = .error e) :
    (change f).run w = .ok (.error e) w := by
  unfold change
  rw [EStateM.run_bind]
  dsimp only [EStateM.run_get]
  rw [failed]
  rfl

end Changes

theorem run_pure_ok {a b : α} : (pure a : Action α).run w = .ok b w' ↔ a = b ∧ w = w' := by
  rw [EStateM.run_pure, EStateM.Result.ok.injEq]

theorem run_orFail_ok {failure : FileError → Failure} {r : Except FileError α} {a : α} :
    (orFail failure r : Action α).run w = .ok a w' ↔ r = .ok a ∧ w = w' := by
  cases r with
  | ok b => rw [orFail, run_pure_ok, Except.ok.injEq]
  | error e => exact ⟨nofun, fun both => nomatch both.1⟩

theorem run_isFile (p : Path) : (isFile p : Action Bool).run w = .ok (w.tree.isFile w.here p) w := rfl

theorem run_present (p : Path) : (present p : Action Bool).run w = .ok (w.tree.present w.here p) w := rfl

/-- The working directory is in the tree. -/
def Stands (w : World) : Prop := w.tree.entry? w.here = some .directory

/-- A path from the root, in canonical form. -/
def whole (w : World) (p : Path) : Path := ((Path.ofLocation w.here).join p).normalize

theorem SameFiles.stands (same : SameFiles w w') (stands : w.Stands) : w'.Stands := by
  rw [Stands, same.tree, same.here]
  exact stands

theorem run_workingDirectory (stands : w.Stands) :
    (workingDirectory : Action (Except FileError Path)).run w = .ok (.ok (.ofLocation w.here)) w := by
  unfold workingDirectory instWorkspaceAction
  dsimp only
  rw [EStateM.run_bind]
  dsimp only [EStateM.run_get]
  rw [stands]
  rfl

theorem run_workingDirectory_gone (gone : ¬w.Stands) :
    (workingDirectory : Action (Except FileError Path)).run w = .ok (.error .notFound) w := by
  unfold workingDirectory instWorkspaceAction
  dsimp only
  rw [EStateM.run_bind]
  dsimp only [EStateM.run_get]
  split
  next there => exact absurd there gone
  next => rfl

/-- Where the working directory stands, every path has one from the root, in canonical form. -/
theorem run_absolute (stands : w.Stands) (p : Path) : (absolute p : Action Path).run w = .ok (w.whole p) w := by
  unfold absolute
  rw [EStateM.run_bind, EStateM.run_bind, run_workingDirectory stands]
  rfl

/-- Without a working directory no path can be made one from the root, not even if it is one already. -/
theorem run_absolute_gone (gone : ¬w.Stands) (p : Path) :
    (absolute p : Action Path).run w = .error (.noWorkingDirectory .notFound) w := by
  unfold absolute
  rw [EStateM.run_bind, EStateM.run_bind, run_workingDirectory_gone gone]
  rfl

/-- The faults of a configuration are found in the tree as it stands, and nothing is told. -/
theorem run_faults (c : Config) (dir : Path) :
    (Project.faults c dir : Action (List ConfigError)).run w =
      .ok (c.errors (w.tree.isFile w.here) dir) w := by
  unfold Project.faults
  cases layout : c.layout with
  | none =>
    rw [Config.layoutPath?, layout]
    simp only [Option.map_none, Config.errors, Config.layoutErrors, layout]
    rfl
  | some text =>
    rw [Config.layoutPath?, layout]
    simp only [Option.map_some, Config.errors, Config.layoutErrors, layout]
    rfl

/-- A default layout that is no file is left out, and no file is changed by it. -/
theorem exists_run_dropMissingLayout (c : Config) (dir : Path) :
    ∃ v, (Project.dropMissingLayout c dir : Action Config).run w =
      .ok (c.withPresentLayout (w.tree.isFile w.here) dir) v ∧ SameFiles w v := by
  unfold Project.dropMissingLayout Config.withPresentLayout
  cases c.layoutPath? dir with
  | none => exact ⟨w, rfl, .refl w⟩
  | some layout =>
    dsimp only
    rw [EStateM.run_bind, run_isFile, Option.all_some]
    dsimp only
    split
    · exact ⟨w, rfl, .refl w⟩
    · exact ⟨_, rfl, rfl, rfl⟩

end World

end Templating
