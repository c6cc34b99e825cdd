import Templating.Proofs.Control.Rooted
import Templating.Proofs.Files.Access
import Templating.Proofs.Project.DefaultLayout

namespace Templating
open Workspace

/-- The last part of loading a project, when there is a configuration. -/
def Project.settle (file dir : Path) (config : Config) : World.Action Project := do
  let config ← dropMissingLayout config dir
  let errors ← faults config dir
  if errors.isEmpty then return ⟨config, file, dir⟩
  printFaults errors
  throw .invalidProject

/-- Loading a project whose file and directory are known. -/
def Project.configure (file dir : Path) : World.Action Project := do
  if ← present file then readConfig file >>= settle file dir else settle file dir .default

/-- Loading a project is to find out where its file and its directory are, and then to read and check the
configuration. -/
theorem Project.load_eq (file : Path) :
    (load file : World.Action Project) = (do
      let file ← absolute file
      configure file (← dirOf file)) := rfl

theorem Config.withPresentLayout_congr {c : Config} {isFile isFile' : Path → Bool} {dir : Path}
    (same : ∀ p ∈ c.layoutPath? dir, isFile' p = isFile p) :
    c.withPresentLayout isFile' dir = c.withPresentLayout isFile dir := by
  unfold withPresentLayout
  cases layout : c.layoutPath? dir with
  | none => rfl
  | some p => rw [Option.all_some, Option.all_some, same p layout]

namespace World
variable {α β : Type} {w w' : World} {file dir : Path} {loc : Location} {config c : Config} {p : Project}

/-- However an action ends, the files are as before. -/
structure Keeps (act : Action α) : Prop where
  ok : ∀ {w a w'}, act.run w = .ok a w' → SameFiles w w'
  error : ∀ {w e w'}, act.run w = .error e w' → SameFiles w w'

theorem keeps_of_run {act : Action α} (run : ∀ w, ∃ a v, act.run w = .ok a v ∧ SameFiles w v) : Keeps act := by
  constructor
  · intro w a w' ran
    obtain ⟨_, v, ran', same⟩ := run w
    cases ran.symm.trans ran'
    exact same
  · intro w e w' ran
    obtain ⟨_, v, ran', _⟩ := run w
    cases ran.symm.trans ran'

theorem keeps_pure (a : α) : Keeps (pure a : Action α) := keeps_of_run fun w => ⟨a, w, rfl, .refl w⟩

theorem keeps_throw (e : Failure) : Keeps (throw e : Action α) := by
  refine ⟨fun ran => (by cases ran), fun ran => ?_⟩
  cases ran
  exact .refl _

theorem Keeps.bind {first : Action β} {next : β → Action α} (keeps : Keeps first) (later : ∀ b, Keeps (next b)) :
    Keeps (first >>= next) := by
  constructor
  · intro w a w' ran
    obtain ⟨b, v, ran, rest⟩ := run_bind_ok.mp ran
    exact (keeps.ok ran).trans ((later b).ok rest)
  · intro w e w' ran
    rcases run_bind_error.mp ran with ran | ⟨b, v, ran, rest⟩
    · exact keeps.error ran
    · exact (keeps.ok ran).trans ((later b).error rest)

theorem keeps_orFail (failure : FileError → Failure) (r : Except FileError α) : Keeps (orFail failure r : Action α) := by
  cases r with
  | ok a => exact keeps_pure a
  | error e => exact keeps_throw (failure e)

theorem keeps_readConfig (file : Path) : Keeps (Project.readConfig file : Action Config) := by
  have reads : Keeps (readFile file : Action (Except FileError (List UInt8))) :=
    keeps_of_run fun w => ⟨_, w, rfl, .refl w⟩
  refine (reads.bind fun _ => keeps_orFail _ _).bind fun bytes => ?_
  cases Utf8.decode? bytes with
  | none => exact keeps_throw _
  | some text =>
    dsimp only
    cases Config.read? text with
    | none => exact keeps_throw _
    | some config => exact keeps_pure config

theorem keeps_printFaults (errors : List ConfigError) : Keeps (Project.printFaults errors : Action Unit) := by
  induction errors with
  | nil => exact keeps_pure ()
  | cons e errors ih =>
    have first : Keeps (printError ("  ERROR: " ++ e.message ++ "\n") : Action Unit) :=
      keeps_of_run fun w => ⟨(), _, rfl, rfl, rfl⟩
    exact first.bind fun _ => ih

theorem keeps_settle (file dir : Path) (config : Config) : Keeps (Project.settle file dir config) := by
  have drops (config : Config) : Keeps (Project.dropMissingLayout config dir : Action Config) :=
    keeps_of_run fun w => ⟨_, exists_run_dropMissingLayout config dir⟩
  have faults (config : Config) : Keeps (Project.faults config dir : Action (List ConfigError)) :=
    keeps_of_run fun w => ⟨_, w, run_faults config dir, .refl w⟩
  refine (drops config).bind fun config => (faults config).bind fun errors => ?_
  split
  · exact keeps_pure _
  · exact (keeps_printFaults errors).bind fun _ => keeps_throw _

theorem keeps_absolute (p : Path) : Keeps (absolute p : Action Path) := by
  have asks : Keeps (workingDirectory : Action (Except FileError Path)) := keeps_of_run fun w => by
    by_cases stands : w.Stands
    · exact ⟨_, w, run_workingDirectory stands, .refl w⟩
    · exact ⟨_, w, run_workingDirectory_gone stands, .refl w⟩
  exact (asks.bind fun r => keeps_orFail _ r).bind fun here => keeps_pure _

theorem keeps_load (file : Path) : Keeps (Project.load file : Action Project) := by
  have looks (p : Path) : Keeps (present p : Action Bool) := keeps_of_run fun w => ⟨_, w, run_present p, .refl w⟩
  rw [Project.load_eq]
  refine (keeps_absolute file).bind fun file => ((keeps_absolute file).bind fun _ => keeps_pure _).bind fun dir => ?_
  refine (looks file).bind fun there => ?_
  split
  · exact (keeps_readConfig file).bind fun config => keeps_settle file dir config
  · exact keeps_settle file dir .default

/-- The configuration in a file, or all defaults where there is nothing. -/
def configured? (w : World) (file : Path) : Option Config :=
  if w.tree.present w.here file then
    match w.tree.read w.here file with
    | .ok bytes => (Utf8.decode? bytes).bind Config.read?
    | .error _ => none
  else some .default

theorem configured?_of_run_readConfig (there : w.tree.present w.here file = true)
    (ran : (Project.readConfig file : Action Config).run w = .ok config w') : w.configured? file = some config := by
  obtain ⟨bytes, v, opened, decoded⟩ := run_bind_ok.mp ran
  obtain ⟨r, u, read, taken⟩ := run_bind_ok.mp opened
  cases read
  obtain ⟨same, rfl⟩ := run_orFail_ok.mp taken
  rw [configured?, if_pos there, same]
  dsimp only
  cases found : Utf8.decode? bytes with
  | none =>
    rw [found] at decoded
    cases decoded
  | some text =>
    rw [found] at decoded
    dsimp only at decoded
    rw [Option.bind_some]
    cases config' : Config.read? text with
    | none =>
      rw [config'] at decoded
      cases decoded
    | some config' =>
      rw [config'] at decoded
      rw [(run_pure_ok.mp decoded).1]

/-- The project that comes out has the configuration without a default layout that is not there. -/
theorem run_settle_ok (ran : (Project.settle file dir config).run w = .ok p w') :
    p = ⟨config.withPresentLayout (w.tree.isFile w.here) dir, file, dir⟩ := by
  obtain ⟨v, dropped, _⟩ := exists_run_dropMissingLayout (w := w) config dir
  obtain ⟨config', u, dropped', rest⟩ := run_bind_ok.mp ran
  cases dropped.symm.trans dropped'
  obtain ⟨errors, u, _, rest⟩ := run_bind_ok.mp rest
  split at rest
  next => exact (run_pure_ok.mp rest).1.symm
  next =>
    obtain ⟨_, _, _, thrown⟩ := run_bind_ok.mp rest
    cases thrown

/-- The directory that a file lies in, from the root. -/
def directoryOf (w : World) (file : Path) : Path := (w.whole file).parent?.getD ⟨""⟩

/-- The project that is loaded from a file. -/
structure Loads (w : World) (file : Path) (p : Project) : Prop where
  file : p.file = w.whole file
  dir : p.dir = p.file.parent?.getD ⟨""⟩
  config : ∃ c, w.configured? p.file = some c ∧ p.config = c.withPresentLayout (w.tree.isFile w.here) p.dir

theorem isRooted_whole (w : World) (file : Path) : (w.whole file).isRooted = true := by
  rw [whole, Path.isRooted_normalize, Path.isRooted_join, Path.isRooted_ofLocation, Bool.or_true]

theorem whole_whole (w : World) (file : Path) : w.whole (w.whole file) = w.whole file := by
  rw [whole, Path.join_of_isRooted (w.isRooted_whole file), whole, Path.normalize_normalize]

theorem run_dirOf (stands : w.Stands) (file : Path) :
    (Project.dirOf file : Action Path).run w = .ok (w.directoryOf file) w := by
  unfold Project.dirOf
  rw [EStateM.run_bind, run_absolute stands]
  rfl

theorem run_load (stands : w.Stands) (file : Path) :
    (Project.load file : Action Project).run w = (Project.configure (w.whole file) (w.directoryOf file)).run w := by
  rw [Project.load_eq, EStateM.run_bind, run_absolute stands]
  dsimp only
  rw [EStateM.run_bind, run_dirOf stands, directoryOf, whole_whole]
  rfl

theorem run_load_gone (gone : ¬w.Stands) (file : Path) :
    (Project.load file : Action Project).run w = .error (.noWorkingDirectory .notFound) w := by
  rw [Project.load_eq, EStateM.run_bind, run_absolute_gone gone]

theorem stands_of_run_load (ran : (Project.load file : Action Project).run w = .ok p w') : w.Stands := by
  by_contra gone
  rw [run_load_gone gone] at ran
  cases ran

/-- Where there is no configuration, the project has every default. -/
theorem run_load_missing (stands : w.Stands) (file : Path) (missing : w.tree.present w.here (w.whole file) = false) :
    (Project.load file : Action Project).run w = .ok ⟨.default, w.whole file, w.directoryOf file⟩ w := by
  rw [run_load stands, Project.configure, EStateM.run_bind, run_present, missing]
  rfl

theorem configured_of_run_configure (ran : (Project.configure file dir).run w = .ok p w') :
    p.file = file ∧ p.dir = dir ∧
      ∃ c, w.configured? file = some c ∧ p.config = c.withPresentLayout (w.tree.isFile w.here) dir := by
  rw [Project.configure, EStateM.run_bind, run_present] at ran
  dsimp only at ran
  split at ran
  next there =>
    obtain ⟨c, v, read, settled⟩ := run_bind_ok.mp ran
    have same := (keeps_readConfig file).ok read
    rw [run_settle_ok settled, same.tree, same.here]
    exact ⟨rfl, rfl, c, configured?_of_run_readConfig there read, rfl⟩
  next missing =>
    rw [run_settle_ok ran]
    exact ⟨rfl, rfl, .default, if_neg missing, rfl⟩

/-- What is loaded is decided by two files: the configuration, and the default layout that it names. -/
theorem loads_of_run_load (ran : (Project.load file : Action Project).run w = .ok p w') : w.Loads file p := by
  rw [run_load (stands_of_run_load ran)] at ran
  obtain ⟨atFile, atDir, c, configured, config⟩ := configured_of_run_configure ran
  exact ⟨atFile, by rw [atDir, atFile, directoryOf], c, by rw [atFile, configured], by rw [atDir, config]⟩

/-- A configuration is read from what is there as a file in proper encoding, or has all defaults where nothing is
there at all. -/
theorem configured?_eq_some_iff :
    w.configured? file = some c ↔
      w.tree.present w.here file = false ∧ c = .default ∨
        ∃ bytes, w.tree.read w.here file = .ok bytes ∧ (Utf8.decode? bytes).bind Config.read? = some c := by
  unfold configured?
  cases there : w.tree.present w.here file with
  | true =>
    rw [if_pos rfl, or_iff_right fun both => absurd both.1 Bool.true_eq_false.mp]
    cases w.tree.read w.here file with
    | ok bytes => simp
    | error e => simp
  | false =>
    rw [if_neg Bool.false_ne_true, Option.some.injEq, eq_comm]
    refine ⟨fun same => .inl ⟨rfl, same⟩, fun either => either.elim And.right fun ⟨bytes, read, _⟩ => ?_⟩
    rw [FileTree.present_of_read read] at there
    cases there

namespace Loads
variable (loads : w.Loads file p)
include loads

theorem absolute_file : p.file.Absolute := by
  rw [loads.file, whole]
  exact Path.absolute_normalize_join (Path.isRooted_ofLocation _) file

theorem isRooted_dir (sound : w.tree.Sound) : p.dir.isRooted = true := by
  have absolute := loads.absolute_file
  rw [loads.dir]
  refine Path.isRooted_parent? absolute.rooted absolute.canonical fun root => ?_
  obtain ⟨c, configured, _⟩ := loads.config
  have named : Location.Named [] := fun name member => absurd member List.not_mem_nil
  have top := FileTree.entry?_root w.tree
  rw [root, configured?_eq_some_iff] at configured
  obtain ⟨missing, _⟩ | ⟨bytes, read, _⟩ := configured
  · rw [(sound.present_iff named).mpr ⟨Location.fits_root, _, top⟩] at missing
    cases missing
  · cases top.symm.trans ((sound.read_ok_iff named).mp read).2

theorem absolute_base (sound : w.tree.Sound) : p.base.Absolute :=
  Path.absolute_normalize_join (loads.isRooted_dir sound) _

theorem absolute_layoutPath? (sound : w.tree.Sound) (c : Config) : ∀ layout ∈ c.layoutPath? p.dir, layout.Absolute := by
  intro layout configured
  obtain ⟨text, _, same⟩ := Option.map_eq_some_iff.mp configured
  rw [← same]
  exact Path.absolute_layoutTarget text (c.isRooted_baseDir (loads.isRooted_dir sound))

end Loads

end World

end Templating
