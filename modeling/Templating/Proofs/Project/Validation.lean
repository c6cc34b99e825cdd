import Templating.Proofs.Files.Touches
import Templating.Proofs.Project.AcceptedKeys
import Templating.Proofs.Project.RenderRun

namespace Templating
open Workspace

/-- The error is one of the default layout. -/
def ConfigError.ofLayout : ConfigError → Bool
  | .emptyLayout | .missingLayout .. => true
  | .tags _ | .watch _ | .emptyKey | .spacedKey _ | .shadowedKey _ => false

/-- The line in which the error is printed. -/
def ConfigError.line (e : ConfigError) : String := "  ERROR: " ++ e.message ++ "\n"

def ConfigError.lines (errors : List ConfigError) : String := String.join (errors.map line)

theorem ConfigError.append_lines_nil (s : String) : s ++ lines [] = s := String.append_empty ..

namespace Config
variable {c : Config} {isFile : Path → Bool} {dir layout : Path}

/-- What is printed about a configuration without errors. -/
def praise (c : Config) (file : Path) : String :=
  "OK: " ++ file.text ++ " (" ++ toString c.data.length ++ " data keys, watching " ++
    ", ".intercalate c.watchedExtensions ++ ")\n"

/-- The path of the default layout, if there is one that is no file. -/
def missingLayout? (c : Config) (isFile : Path → Bool) (dir : Path) : Option Path :=
  (c.layoutPath? dir).filter (!isFile ·)

/-- The errors for which a project is not loaded: those of the configuration, without that of a default layout
that is no file. -/
def loadErrors (c : Config) (isFile : Path → Bool) (dir : Path) : List ConfigError :=
  if (c.missingLayout? isFile dir).isSome then (c.errors isFile dir).filter (!·.ofLayout) else c.errors isFile dir

theorem withPresentLayout_of_missing (missing : c.missingLayout? isFile dir = some layout) :
    c.withPresentLayout isFile dir = { c with layout := none } := by
  obtain ⟨configured, absent⟩ := Option.filter_eq_some_iff.mp missing
  rw [withPresentLayout, configured, Option.all_some, if_neg (by simpa using absent)]

theorem withPresentLayout_of_present (present : c.missingLayout? isFile dir = none) :
    c.withPresentLayout isFile dir = c := by
  rw [withPresentLayout, if_pos]
  rw [missingLayout?, Option.filter_eq_none_iff] at present
  cases configured : c.layoutPath? dir with
  | none => rfl
  | some layout => simpa using present layout configured

theorem ofLayout_of_mem_tagErrors {tags : Tags} : ∀ e ∈ tagErrors tags, e.ofLayout = false := by
  intro e member
  unfold tagErrors at member
  split at member <;> split at member <;> simp at member
  · rcases member with rfl | rfl <;> rfl
  · rw [member]; rfl
  · rw [member]; rfl

theorem ofLayout_of_mem_watchErrors {watch : List String} : ∀ e ∈ watchErrors watch, e.ofLayout = false := by
  intro e member
  obtain ⟨entry, _, rfl⟩ := List.mem_map.mp member
  rfl

theorem ofLayout_of_mem_keyErrors {coincide : Bool} {key : String} : ∀ e ∈ keyErrors coincide key, e.ofLayout = false := by
  intro e member
  unfold keyErrors at member
  split at member
  · rw [List.mem_singleton.mp member]; rfl
  · rcases List.mem_append.mp member with member | member
    · split at member
      · rw [List.mem_singleton.mp member]; rfl
      · cases member
    · split at member
      · rw [List.mem_singleton.mp member]; rfl
      · cases member

theorem ofLayout_of_mem_layoutErrors {layout : Option String} {base : Path} :
    ∀ e ∈ layoutErrors isFile layout base, e.ofLayout = true := by
  intro e member
  unfold layoutErrors at member
  split at member
  · cases member
  · split at member
    · rw [List.mem_singleton.mp member]; rfl
    · dsimp only at member
      split at member
      · cases member
      · rw [List.mem_singleton.mp member]; rfl

/-- Without the errors of the default layout those of the delimiters, the entries to watch and the keys are left, in
this order. -/
theorem filter_errors (c : Config) (isFile : Path → Bool) (dir : Path) :
    (c.errors isFile dir).filter (!·.ofLayout) =
      tagErrors c.tags ++ watchErrors c.watch ++ c.data.keys.flatMap (keyErrors c.tags.coincide) := by
  have others : ∀ e ∈ tagErrors c.tags ++ watchErrors c.watch ++ c.data.keys.flatMap (keyErrors c.tags.coincide),
      (!e.ofLayout) = true := by
    intro e member
    rw [List.mem_append, List.mem_append, List.mem_flatMap] at member
    rw [Bool.not_eq_true']
    rcases member with (member | member) | ⟨key, _, member⟩
    · exact ofLayout_of_mem_tagErrors e member
    · exact ofLayout_of_mem_watchErrors e member
    · exact ofLayout_of_mem_keyErrors e member
  have layout : (layoutErrors isFile c.layout (c.baseDir dir)).filter (!·.ofLayout) = [] := by
    refine List.filter_eq_nil_iff.mpr fun e member => ?_
    rw [ofLayout_of_mem_layoutErrors e member]
    exact Bool.false_ne_true
  rw [errors, List.filter_append, List.filter_eq_self.mpr others, layout, List.append_nil]

/-- What is wrong with the configuration that is left, once a default layout that is no file is taken out, are the
errors of loading. -/
theorem errors_withPresentLayout (c : Config) (isFile : Path → Bool) (dir : Path) :
    (c.withPresentLayout isFile dir).errors isFile dir = c.loadErrors isFile dir := by
  rw [loadErrors]
  cases missing : c.missingLayout? isFile dir with
  | none => rw [withPresentLayout_of_present missing]; rfl
  | some layout =>
    rw [withPresentLayout_of_missing missing, Option.isSome_some, if_pos rfl, filter_errors]
    exact List.append_nil _

theorem missingLayout?_of_accepted (accepted : c.errors isFile dir = []) : c.missingLayout? isFile dir = none := by
  by_contra missing
  obtain ⟨layout, missing⟩ := Option.ne_none_iff_exists'.mp missing
  obtain ⟨configured, absent⟩ := Option.filter_eq_some_iff.mp missing
  obtain ⟨text, named, rfl⟩ := Option.map_eq_some_iff.mp configured
  rw [errors, List.append_eq_nil_iff] at accepted
  obtain ⟨_, faultless⟩ := accepted
  rw [named] at faultless
  unfold layoutErrors at faultless
  dsimp only at faultless
  split at faultless
  · cases faultless
  · rw [if_neg (by simpa using absent)] at faultless
    cases faultless

theorem loadErrors_of_accepted (accepted : c.errors isFile dir = []) : c.loadErrors isFile dir = [] := by
  rw [loadErrors, missingLayout?_of_accepted accepted, Option.isSome_none, if_neg Bool.false_ne_true, accepted]

end Config

namespace FileTree
variable {t : FileTree} {here loc : Location} {p : Path} {e : Entry} {bytes : List UInt8}

/-- What is found lies where the path leads. A path that is not given from the root is walked from a directory. -/
theorem find_ok (found : t.find here p = .ok (loc, e)) :
    loc = p.location here ∧ t.entry? loc = some e ∧ (p.isRooted = false → t.entry? here = some .directory) := by
  obtain ⟨start, routed, rest⟩ := Except.bind_eq_ok_iff.mp found
  cases route_ok routed
  obtain ⟨place, walked, there⟩ := Except.bind_eq_ok_iff.mp rest
  have leads := (walk_ok walked).trans (p.location_eq_steps_from here).symm
  split at there
  next e' entry =>
    cases there
    refine ⟨leads, entry, fun relative => ?_⟩
    rw [relative, if_neg Bool.false_ne_true] at walked
    obtain ⟨first, more, split⟩ := List.exists_cons_of_ne_nil (Path.segments_ne_nil p.text.toList)
    rw [split, walk] at walked
    split at walked
    next => cases walked
    next => cases walked
    next directory => exact directory
  next => cases there

theorem read_ok (read : t.read here p = .ok bytes) :
    t.entry? (p.location here) = some (.file bytes) ∧ (p.isRooted = false → t.entry? here = some .directory) := by
  obtain ⟨⟨loc, e⟩, found, taken⟩ := Except.bind_eq_ok_iff.mp read
  obtain ⟨rfl, entry, starts⟩ := find_ok found
  cases e with
  | file other =>
    cases taken
    exact ⟨entry, starts⟩
  | directory => cases taken

end FileTree

namespace World
variable {w : World} {file dir p : Path} {c : Config} {isFile : Path → Bool} {bytes bytes' : List UInt8}

theorem read_whole (sound : w.tree.Sound) (read : w.tree.read w.here p = .ok bytes)
    (there : w.tree.read w.here (w.whole p) = .ok bytes') : bytes' = bytes := by
  obtain ⟨entry, starts⟩ := FileTree.read_ok read
  obtain ⟨entry', _⟩ := FileTree.read_ok there
  have place : (w.whole p).location w.here = p.location w.here := by
    rw [whole, Path.location_normalize]
    cases rooted : p.isRooted with
    | true => rw [Path.join_of_isRooted rooted]
    | false => rw [Path.location_join rooted, Path.location_ofLocation (sound.named (starts rooted))]
  rw [place, entry] at entry'
  cases entry'
  rfl

/-- The workspace after a project has been loaded or refused. -/
def afterLoading (w : World) (c : Config) (dir : Path) : World :=
  { w with
    printedErrors := w.printedErrors ++ ConfigError.lines (c.loadErrors (w.tree.isFile w.here) dir)
    logged := w.logged ++ ((c.missingLayout? (w.tree.isFile w.here) dir).map .missingLayout).toList }

theorem run_dropMissingLayout (w : World) (c : Config) (dir : Path) :
    (Project.dropMissingLayout c dir : Action Config).run w =
      .ok (c.withPresentLayout (w.tree.isFile w.here) dir)
        { w with logged := w.logged ++ ((c.missingLayout? (w.tree.isFile w.here) dir).map .missingLayout).toList } := by
  unfold Project.dropMissingLayout Config.withPresentLayout Config.missingLayout?
  cases c.layoutPath? dir with
  | none =>
    rw [Option.filter_none, Option.map_none, Option.toList_none, List.append_nil]
    rfl
  | some layout =>
    dsimp only
    rw [EStateM.run_bind, run_isFile, Option.all_some, Option.filter_some]
    dsimp only
    cases w.tree.isFile w.here layout with
    | true =>
      rw [if_pos rfl, if_pos rfl, Bool.not_true, if_neg Bool.false_ne_true, Option.map_none, Option.toList_none,
        List.append_nil]
      rfl
    | false => rfl

theorem run_printFaults (w : World) (errors : List ConfigError) :
    (Project.printFaults errors : Action Unit).run w =
      .ok () { w with printedErrors := w.printedErrors ++ ConfigError.lines errors } := by
  induction errors generalizing w with
  | nil =>
    rw [ConfigError.append_lines_nil]
    rfl
  | cons e errors ih =>
    have first : (printError e.line : Action Unit).run w =
        .ok () { w with printedErrors := w.printedErrors ++ e.line } := rfl
    change ((printError e.line : Action Unit) >>= fun _ => Project.printFaults errors).run w = _
    rw [EStateM.run_bind, first]
    dsimp only
    rw [ih]
    dsimp only
    rw [ConfigError.lines, ConfigError.lines, List.map_cons, String.join_cons, String.append_assoc]

/-- Loading ends with the project exactly if nothing is left to complain about. Either way the missing layout is
logged and the errors are printed. -/
theorem run_settle (w : World) (file dir : Path) (c : Config) :
    (Project.settle file dir c).run w =
      if c.loadErrors (w.tree.isFile w.here) dir = [] then
        .ok ⟨c.withPresentLayout (w.tree.isFile w.here) dir, file, dir⟩ (w.afterLoading c dir)
      else .error .invalidProject (w.afterLoading c dir) := by
  unfold Project.settle
  rw [EStateM.run_bind, run_dropMissingLayout]
  dsimp only
  rw [EStateM.run_bind, run_faults]
  dsimp only
  rw [Config.errors_withPresentLayout]
  cases found : c.loadErrors (w.tree.isFile w.here) dir with
  | nil =>
    rw [if_pos rfl, afterLoading, found, ConfigError.append_lines_nil]
    rfl
  | cons e errors =>
    rw [if_neg (List.cons_ne_nil _ _), afterLoading, found]
    dsimp only [List.isEmpty_cons]
    rw [if_neg Bool.false_ne_true, EStateM.run_bind, run_printFaults]
    rfl

theorem run_readConfig (read : w.tree.read w.here p = .ok bytes)
    (parsed : (Utf8.decode? bytes).bind Config.read? = some c) :
    (Project.readConfig p : Action Config).run w = .ok c w := by
  obtain ⟨text, decoded, parsed⟩ := Option.bind_eq_some_iff.mp parsed
  have opened : (readFile p >>= orFail (.cannotReadConfig p) : Action (List UInt8)).run w = .ok bytes w := by
    have reading : (readFile p : Action (Except FileError (List UInt8))).run w = .ok (w.tree.read w.here p) w := rfl
    rw [EStateM.run_bind, reading, read]
    rfl
  unfold Project.readConfig
  rw [EStateM.run_bind, opened]
  dsimp only
  rw [decoded]
  dsimp only
  rw [parsed]
  rfl

/-- Where the file of a project can be found and read, loading settles for its configuration. -/
theorem run_load_configured (stands : w.Stands) (there : w.tree.present w.here (w.whole file) = true)
    (configured : w.configured? (w.whole file) = some c) :
    (Project.load file : Action Project).run w = (Project.settle (w.whole file) (w.directoryOf file) c).run w := by
  rw [configured?_eq_some_iff] at configured
  obtain ⟨missing, _⟩ | ⟨bytes, read, parsed⟩ := configured
  · rw [there] at missing
    cases missing
  rw [run_load stands, Project.configure, EStateM.run_bind, run_present]
  dsimp only
  rw [there, if_pos rfl, EStateM.run_bind, run_readConfig read parsed]

/-- A project that is loaded has a composer, because the errors of the delimiters are among those for which it would
not be. -/
theorem composer_of_loadable (loadable : c.loadErrors isFile dir = []) :
    ∃ composer, Project.composer ⟨c.withPresentLayout isFile dir, file, dir⟩ = .ok composer := by
  rw [← Config.errors_withPresentLayout] at loadable
  obtain ⟨data, directive⟩ := Config.usable_of_accepted loadable
  rw [← Options.tags_ofConfig _ dir] at data directive
  obtain ⟨composer, made, _⟩ := Composer.exists_new_of_usable data directive
  exact ⟨composer, made⟩

theorem afterLoading_of_accepted (accepted : c.errors (w.tree.isFile w.here) dir = []) :
    w.afterLoading c dir = w := by
  rw [afterLoading, Config.loadErrors_of_accepted accepted, Config.missingLayout?_of_accepted accepted,
    ConfigError.append_lines_nil, Option.map_none, Option.toList_none, List.append_nil]

theorem run_validate_unread {e : FileError} (unread : w.tree.read w.here file = .error e) :
    w.run (.validate file) = (.error (.cannotReadConfig file e), w) := by
  have reading : (readFile file : Action (Except FileError (List UInt8))).run w = .ok (w.tree.read w.here file) w := rfl
  have opened : (readFile file >>= orFail (.cannotReadConfig file) : Action (List UInt8)).run w =
      .error (.cannotReadConfig file e) w := by
    rw [EStateM.run_bind, reading, unread]
    rfl
  have ended : (Command.run (.validate file) : Action Unit).run w = .error (.cannotReadConfig file e) w := by
    change (Project.validate file : Action Unit).run w = _
    unfold Project.validate Project.readConfig
    rw [EStateM.run_bind, EStateM.run_bind, opened]
  rw [World.run, ended]

/-- What is wrong with the configuration in a file. -/
def faults (w : World) (file : Path) (c : Config) : List ConfigError :=
  c.errors (w.tree.isFile w.here) (w.directoryOf file)

def loadFaults (w : World) (file : Path) (c : Config) : List ConfigError :=
  c.loadErrors (w.tree.isFile w.here) (w.directoryOf file)

/-- The project that the configuration in a file makes. -/
def projectOf (w : World) (file : Path) (c : Config) : Project :=
  ⟨c.withPresentLayout (w.tree.isFile w.here) (w.directoryOf file), w.whole file, w.directoryOf file⟩

/-- How validating ends for the configuration in a file. -/
def verdict (w : World) (file : Path) (c : Config) : Except Failure Unit × World :=
  if w.faults file c = [] then (.ok (), { w with printed := w.printed ++ c.praise file })
  else (.error (.invalidConfig (w.faults file c).length),
    { w with printedErrors := w.printedErrors ++ ConfigError.lines (w.faults file c) })

/-- Validating says what is wrong with a configuration, or that nothing is. -/
theorem run_validate (stands : w.Stands) (read : w.tree.read w.here file = .ok bytes)
    (parsed : (Utf8.decode? bytes).bind Config.read? = some c) : w.run (.validate file) = w.verdict file c := by
  have ran : (Project.validate file : Action Unit).run w =
      if w.faults file c = [] then .ok () { w with printed := w.printed ++ c.praise file }
      else .error (.invalidConfig (w.faults file c).length)
        { w with printedErrors := w.printedErrors ++ ConfigError.lines (w.faults file c) } := by
    unfold Project.validate
    rw [EStateM.run_bind, run_readConfig read parsed]
    dsimp only
    rw [EStateM.run_bind, run_dirOf stands]
    dsimp only
    rw [EStateM.run_bind, run_faults, ← faults]
    dsimp only
    cases w.faults file c with
    | nil => rfl
    | cons e found =>
      rw [List.isEmpty_cons, if_neg Bool.false_ne_true, EStateM.run_bind, run_printFaults,
        if_neg (List.cons_ne_nil _ _)]
      rfl
  have ended : (Command.run (.validate file) : Action Unit).run w = _ := ran
  rw [World.run, ended, verdict]
  cases w.faults file c with
  | nil => rfl
  | cons e found => rfl

/-- Where the working directory is gone, nobody can say where the files lie that a configuration names. -/
theorem run_validate_gone (gone : ¬w.Stands) (read : w.tree.read w.here file = .ok bytes)
    (parsed : (Utf8.decode? bytes).bind Config.read? = some c) :
    w.run (.validate file) = (.error (.noWorkingDirectory .notFound), w) := by
  have ran : (Project.validate file : Action Unit).run w = .error (.noWorkingDirectory .notFound) w := by
    unfold Project.validate
    rw [EStateM.run_bind, run_readConfig read parsed]
    dsimp only
    rw [EStateM.run_bind, Project.dirOf, EStateM.run_bind, run_absolute_gone gone]
  have ended : (Command.run (.validate file) : Action Unit).run w = _ := ran
  rw [World.run, ended]

/-- How a file is validated that holds a configuration, and how its project is loaded. -/
structure Checked (w : World) (file : Path) (c : Config) : Prop where
  loaded : w.loadFaults file c = [] →
    (Project.load file : Action Project).run w = .ok (w.projectOf file c) (w.afterLoading c (w.directoryOf file))
  composed : w.loadFaults file c = [] → ∃ composer, (w.projectOf file c).composer = .ok composer
  refused : w.loadFaults file c ≠ [] →
    (Project.load file : Action Project).run w = .error .invalidProject (w.afterLoading c (w.directoryOf file))
  /-- Without a project nothing is rendered and nothing is built. -/
  stopped : w.loadFaults file c ≠ [] →
    (∀ input output events, w.run (.render file input output events) =
      (.error .invalidProject, w.afterLoading c (w.directoryOf file))) ∧
    ∀ output, w.run (.build file output) = (.error .invalidProject, w.afterLoading c (w.directoryOf file))
  unread : ∀ e, w.tree.read w.here file = .error e →
    w.run (.validate file) = (.error (.cannotReadConfig file e), w)
  validated : ∀ bytes, w.tree.read w.here file = .ok bytes → w.run (.validate file) = w.verdict file c
  /-- What is found valid is loaded as it is, and nothing is told. -/
  accepted : ∀ v, w.run (.validate file) = (.ok (), v) →
    (Project.load file : Action Project).run w = .ok ⟨c, w.whole file, w.directoryOf file⟩ w

/-- How both end where the working directory is gone: nothing is found wrong, and nothing is told. -/
structure Unplaced (w : World) (file : Path) : Prop where
  loaded : (Project.load file : Action Project).run w = .error (.noWorkingDirectory .notFound) w
  stopped : (∀ input output events, w.run (.render file input output events) = (.error (.noWorkingDirectory .notFound), w)) ∧
    ∀ output, w.run (.build file output) = (.error (.noWorkingDirectory .notFound), w)
  unread : ∀ e, w.tree.read w.here file = .error e →
    w.run (.validate file) = (.error (.cannotReadConfig file e), w)
  validated : ∀ bytes, w.tree.read w.here file = .ok bytes →
    w.run (.validate file) = (.error (.noWorkingDirectory .notFound), w)

theorem parsed_of_read (sound : w.tree.Sound) (there : w.tree.present w.here (w.whole file) = true)
    (configured : w.configured? (w.whole file) = some c) (read : w.tree.read w.here file = .ok bytes) :
    (Utf8.decode? bytes).bind Config.read? = some c := by
  obtain ⟨missing, _⟩ | ⟨bytes', read', parsed⟩ := configured?_eq_some_iff.mp configured
  · rw [there] at missing
    cases missing
  · rwa [read_whole sound read read'] at parsed

/-- Where a configuration can be read and the working directory stands, validating and loading come to the same
errors. -/
theorem checked_of_configured (sound : w.tree.Sound) (stands : w.Stands)
    (there : w.tree.present w.here (w.whole file) = true) (configured : w.configured? (w.whole file) = some c) :
    w.Checked file c := by
  have settled := (run_load_configured stands there configured).trans (run_settle w (w.whole file) (w.directoryOf file) c)
  have loads (loadable : w.loadFaults file c = []) : (Project.load file : Action Project).run w =
      .ok (w.projectOf file c) (w.afterLoading c (w.directoryOf file)) := settled.trans (if_pos loadable)
  have refuses (faulty : w.loadFaults file c ≠ []) : (Project.load file : Action Project).run w =
      .error .invalidProject (w.afterLoading c (w.directoryOf file)) := settled.trans (if_neg faulty)
  have validates (bytes : List UInt8) (read : w.tree.read w.here file = .ok bytes) : w.run (.validate file) = w.verdict file c :=
    run_validate stands read (parsed_of_read sound there configured read)
  refine ⟨loads, composer_of_loadable, refuses, fun faulty => ?_, fun e => run_validate_unread, validates, ?_⟩
  · have failed := refuses faulty
    exact ⟨fun input output events => run_render_unloaded failed input output events,
      fun output => run_build_unloaded failed output⟩
  · intro v valid
    cases read : w.tree.read w.here file with
    | error e =>
      rw [run_validate_unread read] at valid
      cases valid
    | ok bytes =>
      rw [validates bytes read, verdict] at valid
      split at valid
      next faultless =>
        have present := Config.missingLayout?_of_accepted faultless
        rw [loads (Config.loadErrors_of_accepted faultless), afterLoading_of_accepted faultless, projectOf, Config.withPresentLayout_of_present present]
      next => cases valid

/-- Where a configuration can be read but the working directory is gone, both validating and loading fail for that
reason. -/
theorem unplaced_of_configured (sound : w.tree.Sound) (gone : ¬w.Stands)
    (there : w.tree.present w.here (w.whole file) = true) (configured : w.configured? (w.whole file) = some c) :
    w.Unplaced file := by
  have failed := run_load_gone gone file
  refine ⟨failed, ⟨fun input output events => run_render_unloaded failed input output events,
    fun output => run_build_unloaded failed output⟩, fun e => run_validate_unread, fun bytes read => ?_⟩
  exact run_validate_gone gone read (parsed_of_read sound there configured read)

/-- Validating a configuration and loading its project find the same errors in the same order, but for that of a
default layout that is no file, which loading leaves out with a warning. This is so wherever there is a working
directory to tell where the file lies; else both fail for that reason before they check anything. -/
theorem load_agrees_with_validate (sound : w.tree.Sound) (there : w.tree.present w.here (w.whole file) = true)
    (configured : w.configured? (w.whole file) = some c) :
    (w.Stands → w.Checked file c) ∧ (¬w.Stands → w.Unplaced file) :=
  ⟨fun stands => checked_of_configured sound stands there configured,
    fun gone => unplaced_of_configured sound gone there configured⟩

/-- A configuration with an entry to watch that is no extension, and a default layout that is not there. -/
def faultySite : World where
  tree := (FileTree.empty.put ["site"] .directory).put ["site", "weft.yaml"]
    (.file (Utf8.encode "layout: gone.html\nwatch: [html]\n"))
  here := ["site"]
  printed := ""
  printedErrors := ""
  logged := []

/-- Validating prints two errors, of which loading leaves out the one of the layout and logs a warning. -/
theorem load_agrees_with_validate_faultySite : ∃ c, faultySite.tree.Sound ∧
    faultySite.tree.present faultySite.here (faultySite.whole ⟨"weft.yaml"⟩) = true ∧
      faultySite.configured? (faultySite.whole ⟨"weft.yaml"⟩) = some c ∧
        (faultySite.run (.validate ⟨"weft.yaml"⟩)).2.printedErrors =
          "  ERROR: watch entry 'html' must be an extension like '.html'\n" ++
            "  ERROR: layout 'gone.html' not found at /site/gone.html\n" ∧
        ∃ v, (Project.load ⟨"weft.yaml"⟩ : Action Project).run faultySite = .error .invalidProject v ∧
          v.printedErrors = "  ERROR: watch entry 'html' must be an extension like '.html'\n" ∧
            v.logged = [.missingLayout ⟨"/site/gone.html"⟩] := by
  have site := FileTree.sound_empty.put_below [] "site" .directory rfl (by decide) rfl
  have sound : faultySite.tree.Sound := site.put_below ["site"] "weft.yaml" _ rfl (by decide) rfl
  have there : faultySite.tree.present faultySite.here (faultySite.whole ⟨"weft.yaml"⟩) = true := by decide +kernel
  have found : (faultySite.configured? (faultySite.whole ⟨"weft.yaml"⟩)).map (fun c =>
      (faultySite.faults ⟨"weft.yaml"⟩ c, faultySite.loadFaults ⟨"weft.yaml"⟩ c,
        c.missingLayout? (faultySite.tree.isFile faultySite.here) (faultySite.directoryOf ⟨"weft.yaml"⟩))) =
      some ([.watch "html", .missingLayout "gone.html" ⟨"/site/gone.html"⟩], [.watch "html"],
        some ⟨"/site/gone.html"⟩) := by
    decide +kernel
  obtain ⟨c, configured, outcome⟩ := Option.map_eq_some_iff.mp found
  rw [Prod.mk.injEq, Prod.mk.injEq] at outcome
  obtain ⟨faults, loadFaults, missing⟩ := outcome
  have stands : faultySite.Stands := by rw [Stands]; decide +kernel
  have checked := (load_agrees_with_validate sound there configured).1 stands
  have read : faultySite.tree.read faultySite.here ⟨"weft.yaml"⟩ =
      .ok (Utf8.encode "layout: gone.html\nwatch: [html]\n") := by decide +kernel
  refine ⟨c, sound, there, configured, ?_, _, checked.refused (by rw [loadFaults]; exact List.cons_ne_nil _ _), ?_, ?_⟩
  · rw [checked.validated _ read, verdict, faults, if_neg (List.cons_ne_nil _ _)]
    change "" ++ ConfigError.lines [.watch "html", .missingLayout "gone.html" ⟨"/site/gone.html"⟩] = _
    decide +kernel
  · rw [afterLoading, ← World.loadFaults, loadFaults]
    change "" ++ ConfigError.lines [.watch "html"] = _
    decide +kernel
  · rw [afterLoading, missing]
    rfl

end World

end Templating
