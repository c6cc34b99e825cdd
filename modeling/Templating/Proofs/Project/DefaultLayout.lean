import Templating.Proofs.Control.Layers
import Templating.Proofs.Document.Course
import Templating.Proofs.Document.Values
import Templating.Proofs.Path.Join
import Templating.Proofs.Project.Actions

namespace Templating

theorem Config.normalize_baseDir (c : Config) (dir : Path) : (c.baseDir dir).normalize = c.baseDir dir :=
  Path.normalize_normalize _

namespace Options

/-- The options before anything is said about the layout. -/
def beforeLayout (c : Config) (dir : Path) : Options :=
  c.data.foldl (fun o (key, value) => o.withData key (.text value.text))
    ((new (c.baseDir dir)).withTags c.tags)

/-- The layout is the last thing that a configuration sets, resolved against the root directory that it has set
before; an empty one counts as none. -/
theorem ofConfig_eq (c : Config) (dir : Path) :
    ofConfig c dir =
      match c.layout.filter (· != "") with
      | some layout =>
        (beforeLayout c dir).withLayout (.path (Path.layoutTarget layout (beforeLayout c dir).root))
      | none => beforeLayout c dir := rfl

theorem foldl_withData_fixed {β : Type} (part : Options → β)
    (fixed : ∀ (o : Options) key value, part (o.withData key value) = part o)
    (entries : OrderedMap Yaml.Value) (o : Options) :
    part (entries.foldl (fun o (key, value) => o.withData key (.text value.text)) o) = part o := by
  induction entries generalizing o with
  | nil => rfl
  | cons entry entries ih =>
    rw [List.foldl_cons, ih]
    exact fixed ..

theorem root_withTags_new (root : Path) (tags : Tags) : ((new root).withTags tags).root = root.normalize := rfl

theorem root_beforeLayout (c : Config) (dir : Path) : (beforeLayout c dir).root = c.baseDir dir := by
  rw [beforeLayout, foldl_withData_fixed Options.root (fun _ _ _ => rfl), root_withTags_new,
    c.normalize_baseDir]

/-- The root directory of the documents is that of the texts, neither the delimiters nor the data having a part in it.
-/
theorem root_ofConfig (c : Config) (dir : Path) : (ofConfig c dir).root = c.baseDir dir := by
  rw [ofConfig_eq]
  split <;> exact root_beforeLayout c dir

/-- The default layout of the documents is a path, worked out once from the directory of the texts. -/
theorem layout_ofConfig {c : Config} {layout : String} (configured : c.layout = some layout)
    (named : layout ≠ "") (dir : Path) :
    (ofConfig c dir).layout = .path (Path.layoutTarget layout (c.baseDir dir)) := by
  rw [ofConfig_eq, configured, Option.filter_some_pos (by simpa using named)]
  exact congrArg (fun root => DefaultLayout.path (Path.layoutTarget layout root)) (root_beforeLayout c dir)

end Options

namespace Config
variable {c : Config} {dir : Path} {layout : String}

theorem isRooted_baseDir (c : Config) (rooted : dir.isRooted = true) : (c.baseDir dir).isRooted = true := by
  rw [baseDir, Path.isRooted_normalize, Path.isRooted_join, rooted, Bool.or_true]

theorem isRooted_layoutTarget (layout : String) {root : Path} (rooted : root.isRooted = true) :
    (Path.layoutTarget layout root).isRooted = true := by
  rw [Path.layoutTarget, Path.isRooted_normalize, Path.isRooted_join, rooted, Bool.or_true]

theorem errors_congr {isFile isFile' : Path → Bool}
    (same : ∀ p ∈ c.layoutPath? dir, isFile' p = isFile p) : c.errors isFile' dir = c.errors isFile dir := by
  unfold errors layoutErrors
  cases configured : c.layout with
  | none => rfl
  | some layout =>
    have here := same (Path.layoutTarget layout (c.baseDir dir)) (by rw [layoutPath?, configured]; rfl)
    dsimp only
    rw [here]

/-- A missing layout is reported exactly if there is no file where the layout is looked for. -/
theorem missingLayout_mem_errors {isFile : Path → Bool} {p : Path} (configured : c.layout = some layout)
    (filled : Text.trim layout ≠ "") :
    .missingLayout layout p ∈ c.errors isFile dir ↔
      p = Path.layoutTarget layout (c.baseDir dir) ∧ isFile p = false := by
  have tags : .missingLayout layout p ∉ tagErrors c.tags := by
    unfold tagErrors
    split <;> split <;> simp
  have watch : .missingLayout layout p ∉ watchErrors c.watch := by simp [watchErrors]
  have keys : .missingLayout layout p ∉ c.data.keys.flatMap (keyErrors c.tags.coincide) := by
    rw [List.mem_flatMap]
    rintro ⟨key, _, member⟩
    unfold keyErrors at member
    split at member
    · simp at member
    · split at member <;> split at member <;> simp at member
  rw [errors, List.mem_append, List.mem_append, List.mem_append, or_iff_right (by tauto)]
  simp only [layoutErrors, configured, if_neg filled]
  split
  next there => simp_all
  next missing => simp_all

end Config

namespace World

/-- What is found to be a file can be read, and the other way round, for any path and any tree. -/
theorem isFile_iff_load (w : World) (p : Path) :
    w.tree.isFile w.here p = true ↔ ∃ text, w.load p = .ok text := by
  unfold FileTree.isFile World.load FileTree.read
  cases w.tree.find w.here p with
  | error e => simp [Except.bind]
  | ok found =>
    obtain ⟨loc, entry⟩ := found
    cases entry <;> simp [Except.bind]

end World

/-- The first target that a page asks for is its default layout, unless that is the page itself. -/
theorem Document.Made.loads_first {d : Document} {target : Path} (made : d.Made)
    (kept : d.setting.scanner.skips d.page.source = false)
    (plain : d.setting.scanner.layout? d.page.source = none) (chosen : d.setting.defaultLayout = some target)
    (load : Loader) : (d.moment load 1).loads = if d.page.src = target then #[] else #[target] := by
  have requested : d.setting.requestedLayout d.page = some (target, none) := by
    rw [Setting.requestedLayout_default made.role plain, chosen, Option.map_some]
  have output := (made.follows load 1).2.output
  rw [Run.empty_append, Control.run_succ, Control.run, Run.append_empty] at output
  have loads : (d.moment load 1).loads.toList =
      ((Control.outer [] d.page).step d.setting load).1.loads := congrArg Run.loads output
  rw [← Array.toList_inj, loads]
  split
  next same =>
    rw [Control.step_outer_circle kept requested (by simpa using same)]
    rfl
  next other =>
    have straight : [d.page].any (·.src == target) = false := by simpa using other
    cases loaded : load target with
    | error message =>
      rw [Control.step_outer_unreadable kept requested straight loaded]
      rfl
    | ok text =>
      rw [Control.step_outer_wrap kept requested straight loaded]
      rfl

/-- All that is done with the default layout `layout` of a configuration in `dir` is done at `target`. -/
structure Config.LayoutAt (c : Config) (dir : Path) (layout : String) (target : Path) : Prop where
  /-- Seen from the root directory of the documents it is the same. -/
  from_root : Path.layoutTarget layout (Options.ofConfig c dir).root = target
  /-- Documents have it as their default layout. -/
  chosen : ∀ {composer : Composer} {src source d}, Composer.new (.ofConfig c dir) = .ok composer →
    composer.document src source = .ok d → d.setting.defaultLayout = some target
  /-- A page that says nothing about layouts asks for it first, unless it is the layout itself. -/
  asked : ∀ {composer : Composer} {src source d}, Composer.new (.ofConfig c dir) = .ok composer →
    composer.document src source = .ok d → composer.scanner.skips source = false →
    composer.scanner.layout? source = none → ∀ load,
      (d.moment load 1).loads = if d.page.src = target then #[] else #[target]
  /-- The check looks there, and there only. -/
  checked : ∀ isFile p, .missingLayout layout p ∈ c.errors isFile dir ↔ p = target ∧ isFile p = false
  checked_only : ∀ isFile isFile', isFile' target = isFile target → c.errors isFile' dir = c.errors isFile dir
  /-- The layout is left out before anything is composed exactly if there is no file there. -/
  dropped : ∀ w : World, ∃ v, (Project.dropMissingLayout c dir : World.Action Config).run w =
    .ok (if w.tree.isFile w.here target then c else { c with layout := none }) v ∧ w.SameFiles v
  /-- A build passes over that file, and over no other for the sake of the layout. -/
  passed_over : ∀ file out p, Project.takesPart ⟨c, file, dir⟩ out p =
    (!p.startsWith out && p.components != file.components && p.components != target.components)
  /-- Where the checks find a file, documents can read it. -/
  readable : ∀ w : World, w.tree.isFile w.here target = true ↔ ∃ text, w.load target = .ok text

theorem DefaultLayout.resolve_of_isRooted {target : Path} (rooted : target.isRooted = true)
    (canonical : target.normalize = target) (src root : Path) :
    (DefaultLayout.path target).resolve src root = some target := by
  have kept : (some target).filter (fun p : Path => p.text != "") = some target :=
    Option.filter_some_pos (bne_iff_ne.mpr (Path.text_ne_of_isRooted rooted))
  rw [resolve, kept, Option.map_some, Path.join_of_isRooted rooted, canonical]

theorem Composer.defaultLayout_ofConfig {composer : Composer} {c : Config} {dir src : Path}
    {layout source : String} {d : Document} (configured : c.layout = some layout) (named : layout ≠ "")
    (rooted : dir.isRooted = true) (new : Composer.new (.ofConfig c dir) = .ok composer)
    (opened : composer.document src source = .ok d) :
    d.setting.defaultLayout = some (Path.layoutTarget layout (c.baseDir dir)) := by
  have target := Config.isRooted_layoutTarget layout (c.isRooted_baseDir rooted)
  rw [(Composer.document_eq opened).2, (Composer.new_eq new).1, Options.layout_ofConfig configured named]
  exact DefaultLayout.resolve_of_isRooted target (Path.normalize_layoutTarget ..) _ _

/-- In a directory given from the root, the default layout of a configuration has one place for all that
is done with it: below the directory of the texts. -/
theorem Config.layoutAt_layoutTarget {c : Config} {dir : Path} {layout : String}
    (configured : c.layout = some layout) (filled : Text.trim layout ≠ "") (rooted : dir.isRooted = true) :
    c.LayoutAt dir layout (Path.layoutTarget layout (c.baseDir dir)) := by
  have named : layout ≠ "" := by
    rintro rfl
    exact filled (by decide)
  have path : c.layoutPath? dir = some (Path.layoutTarget layout (c.baseDir dir)) := by
    rw [layoutPath?, configured, Option.map_some]
  exact {
    from_root := by rw [Options.root_ofConfig]
    chosen := fun new opened => Composer.defaultLayout_ofConfig configured named rooted new opened
    asked := by
      intro composer src source d new opened kept plain load
      have scanner := (Composer.setting_of_document opened).1
      have page := congrArg Node.source (Composer.document_eq opened).1
      refine (Composer.made opened).loads_first ?_ ?_
        (Composer.defaultLayout_ofConfig configured named rooted new opened) load
      · rwa [scanner, page]
      · rwa [scanner, page]
    checked := fun isFile p => missingLayout_mem_errors configured filled
    checked_only := by
      intro isFile isFile' same
      refine errors_congr fun p there => ?_
      rw [path, Option.mem_some_iff] at there
      rw [← there, same]
    dropped := by
      intro w
      obtain ⟨v, ran, same⟩ := World.exists_run_dropMissingLayout (w := w) c dir
      rw [withPresentLayout, path, Option.all_some] at ran
      exact ⟨v, ran, same⟩
    passed_over := by
      intro file out p
      simp only [Project.takesPart, path, Option.any_some]
      rw [Bool.beq_comm (a := (Path.layoutTarget layout (c.baseDir dir)).components)]
      rfl
    readable := fun w => w.isFile_iff_load _
  }

/-- The texts lie beside the directory of the configuration. -/
def Config.beside : Config :=
  { Config.default with base := some ⟨"../pages"⟩, layout := some "//parts/./layout.html" }

theorem Config.layoutAt_beside :
    Config.beside.LayoutAt ⟨"/work/site"⟩ "//parts/./layout.html" ⟨"/work/pages/parts/layout.html"⟩ := by
  have place : Path.layoutTarget "//parts/./layout.html" (Config.beside.baseDir ⟨"/work/site"⟩) =
      ⟨"/work/pages/parts/layout.html"⟩ := by
    decide +kernel
  have found := @layoutAt_layoutTarget Config.beside ⟨"/work/site"⟩ _ rfl (by decide) (by decide)
  rwa [place] at found

end Templating
