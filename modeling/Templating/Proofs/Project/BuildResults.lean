import Templating.Proofs.Project.BuildRun

namespace Templating
open Workspace

namespace Build
variable {b : Build} {w v s : World} {p p' : Project} {file : Path} {output : Option Path}
  {done taken : List Location} {below l : Location} {config config' : Config}

/-- A file that is found takes part if it is no result, not the configuration and not the default layout. -/
theorem takes_iff (sound : b.Sound) (named : (b.base ++ below).Named) (file : b.project.file.Absolute)
    (layouts : ∀ layout ∈ b.project.config.layoutPath? b.project.dir, layout.Absolute) :
    b.takes below = true ↔
      ¬b.out <+: b.base ++ below ∧ b.file below ≠ b.project.file ∧
        ∀ layout ∈ b.project.config.layoutPath? b.project.dir, b.file below ≠ layout := by
  have absolute := Path.absolute_ofLocation named
  have inside := Path.startsWith_ofLocation named sound.out
  have same := absolute.components_inj file
  change b.project.takesPart (.ofLocation b.out) (.ofLocation (b.base ++ below)) = true ↔
    _ ∧ Path.ofLocation (b.base ++ below) ≠ _ ∧ ∀ _ ∈ _, Path.ofLocation (b.base ++ below) ≠ _
  rw [Project.takesPart, Bool.and_eq_true, Bool.and_eq_true, Bool.not_eq_true', ← Bool.not_eq_true, inside,
    bne_iff_ne, Ne, same, and_assoc]
  refine and_congr_right fun _ => and_congr_right fun _ => ?_
  cases layout : b.project.config.layoutPath? b.project.dir with
  | none => simp
  | some path =>
    have other := (layouts path layout).components_inj absolute
    rw [Option.any_some, Bool.not_eq_true', beq_eq_false_iff_ne, Ne, other]
    constructor
    · intro apart found member
      cases member
      exact Ne.symm apart
    · exact fun all same => all path rfl same.symm

/-- What a build comes to: the files `taken` are in the tree as results, and nothing else has changed. -/
structure Results (b : Build) (taken : List Location) (tally : Project.Tally) (t : FileTree) : Prop where
  taken_iff : ∀ below, below ∈ taken ↔
    below ≠ [] ∧ (∃ bytes, b.start.tree.entry? (b.base ++ below) = some (.file bytes)) ∧ (b.base ++ below).Fits ∧
      ¬b.out <+: b.base ++ below ∧ b.file below ≠ b.project.file ∧
        ∀ layout ∈ b.project.config.layoutPath? b.project.dir, b.file below ≠ layout
  once : taken.Nodup
  /-- The pages have been put together from the files as they were. -/
  composed : ∀ below ∈ taken, b.composes below = true → ∃ d n r,
    b.composer.load b.start.load (b.file below) = .ok d ∧ d.run? b.start.load n = some r ∧
      b.rendering below = .ofEvents r.events
  written : ∀ below ∈ taken, t.entry? (b.out ++ below) = some (.file (b.result below))
  directories : ∀ below ∈ taken, ∀ l, l <+: b.out ++ below → l ≠ b.out ++ below → t.entry? l = some .directory
  files : ∀ l bytes, (∀ below ∈ taken, l ≠ b.out ++ below) →
    (t.entry? l = some (.file bytes) ↔ b.start.tree.entry? l = some (.file bytes))
  elsewhere : ∀ l, (∀ below ∈ taken, ¬l <+: b.out ++ below) → t.entry? l = b.start.tree.entry? l
  tally : tally = b.tally taken

/-- Once everything is built that a build has to do with, the tree is what the build comes to. -/
theorem During.results (sound : b.Sound) (during : b.During done s) (once : taken.Nodup)
    (same : ∀ below, below ∈ taken ↔ below ∈ done) (all : ∀ below, b.Processes below → below ∈ taken)
    (file : b.project.file.Absolute)
    (layouts : ∀ layout ∈ b.project.config.layoutPath? b.project.dir, layout.Absolute) :
    b.Results taken (b.tally taken) s.tree := by
  have targets := apart_targets sound during.processes
  have written (below : Location) (member : below ∈ taken) : b.out ++ below ∈ b.targets done :=
    mem_targets.mpr ⟨below, (same below).mp member, rfl⟩
  constructor
  case once => exact once
  case tally => rfl
  case taken_iff =>
    intro below
    constructor
    · intro member
      have processes := during.processes below ((same below).mp member)
      exact ⟨processes.inner, processes.there, processes.fits,
        (takes_iff sound (processes.named sound) file layouts).mp processes.takes⟩
    · rintro ⟨inner, ⟨bytes, there⟩, fits, taking⟩
      have named := sound.tree.named there
      exact all below ⟨inner, ⟨bytes, there⟩, fits, (takes_iff sound named file layouts).mpr taking⟩
  case composed =>
    intro below member _
    have processes := during.processes below ((same below).mp member)
    have named := processes.named sound
    obtain ⟨bytes, there⟩ := processes.there
    obtain ⟨d, _, _, ran, opens⟩ := World.exists_document sound.tree sound.isRooted_root named processes.fits there
    have loaded := opens _ ((World.load_ok_iff sound.tree named).mpr ⟨processes.fits, bytes, there, rfl⟩)
    exact ⟨d, _, _, loaded, ran, World.rendering_of_load loaded⟩
  case written =>
    intro below member
    rw [during.laid.entry?_target (written below member), content_target]
  case directories =>
    exact fun below member l higher other => during.laid.entry?_above targets (written below member) higher other
  case files =>
    intro l bytes other
    refine during.laid.file_iff during.receives_targets fun member => ?_
    obtain ⟨below, inside, rfl⟩ := mem_targets.mp member
    exact other below ((same below).mpr inside) rfl
  case elsewhere =>
    intro l other
    refine during.laid.entry?_elsewhere fun target member higher => ?_
    obtain ⟨below, inside, rfl⟩ := mem_targets.mp member
    exact other below ((same below).mpr inside) higher

/-- A build of a workspace that goes through: what it starts from, and what it leaves behind. -/
structure Finished (b : Build) (v w' : World) : Prop where
  begun : b.During [] v
  clear : ∀ visit ∈ b.visits v, visit.2 = none
  ended : b.During (b.picked (b.visits v)).reverse w'

/-- A build that goes through has met no directory that cannot be read, and has built all that its walk picked. -/
theorem finished_of_run_build (sound : b.Sound) (new : b.project.composer = .ok b.composer) (apart : b.ReadsApart)
    (loaded : (Project.load file : World.Action Project).run b.start = .ok b.project v)
    (out : b.project.target v.here output = .ofLocation b.out) (ran : b.start.run (.build file output) = (.ok (), w)) :
    ∃ u, (b.project.buildAll (.ofLocation b.out) : World.Action Project.Tally).run v =
        .ok (b.tally (b.picked (b.visits v))) u ∧ World.SameFiles u w ∧ b.Finished v w := by
  have begun := During.start sound ((World.keeps_load file).ok loaded)
  obtain ⟨tally, u, built, told⟩ := World.run_buildAll_of_run_build loaded ran
  rw [out] at built
  have whole := (run_buildAll sound new v).symm.trans built
  obtain ⟨clear, rfl, last⟩ := (begun.buildEach sound apart begun.named_visits ⟨0, 0, 0⟩).1 tally u whole
  rw [zero_plus] at built
  rw [List.append_nil] at last
  exact ⟨u, built, told, begun, clear, last.later told⟩

section Again
variable (sound : b.Sound) (during : b.During done s)
include sound during

theorem During.isFile_eq (named : l.Named) (outside : ¬b.out <+: l) :
    s.tree.isFile s.here (.ofLocation l) = b.start.tree.isFile b.start.here (.ofLocation l) := by
  rw [Bool.eq_iff_iff, during.laid.sound.isFile_iff named, sound.tree.isFile_iff named]
  exact and_congr_right fun _ => exists_congr fun bytes => during.file_iff outside bytes

theorem During.read_iff (named : l.Named) (outside : ¬b.out <+: l) (bytes : List UInt8) :
    s.tree.read s.here (.ofLocation l) = .ok bytes ↔ b.start.tree.read b.start.here (.ofLocation l) = .ok bytes := by
  rw [during.laid.sound.read_ok_iff named, sound.tree.read_ok_iff named, during.file_iff outside]

theorem During.configured?_eq (named : l.Named) (outside : ¬b.out <+: l)
    (before : b.start.configured? (.ofLocation l) = some config) (now : s.configured? (.ofLocation l) = some config') :
    config' = config := by
  have reads := during.read_iff sound named outside
  rw [World.configured?_eq_some_iff] at before now
  obtain ⟨missing, rfl⟩ | ⟨bytes, read, decoded⟩ := before
  · obtain ⟨_, rfl⟩ | ⟨bytes, read, _⟩ := now
    · rfl
    -- A directory may have been made in its place, but no file.
    · rw [FileTree.present_of_read ((reads bytes).mp read)] at missing
      cases missing
  · have still := (reads bytes).mpr read
    obtain ⟨missing, _⟩ | ⟨bytes', read', decoded'⟩ := now
    · rw [FileTree.present_of_read still] at missing
      cases missing
    · cases still.symm.trans read'
      exact Option.some.inj (decoded'.symm.trans decoded)

/-- Where the configuration and the layout that it names are no results, the same project is loaded later. -/
theorem During.same_project (loads : b.start.Loads file p) (later : s.Loads file p')
    (atFile : p.file.startsWith (.ofLocation b.out) = false)
    (atLayout : ∀ config, b.start.configured? p.file = some config → ∀ layout ∈ config.layoutPath? p.dir,
      layout.startsWith (.ofLocation b.out) = false) : p' = p := by
  have outside {l : Location} (named : l.Named) (away : (Path.ofLocation l).startsWith (.ofLocation b.out) = false) :
      ¬b.out <+: l := by
    rw [← Path.startsWith_ofLocation named sound.out, away]
    exact Bool.false_ne_true
  have sameFile : p'.file = p.file := by
    rw [later.file, loads.file, World.whole, World.whole, during.here]
  have sameDir : p'.dir = p.dir := by rw [later.dir, sameFile, loads.dir]
  obtain ⟨config, before, kept⟩ := loads.config
  obtain ⟨config', now, kept'⟩ := later.config
  have same : config' = config := by
    obtain ⟨named, place⟩ := loads.absolute_file.ofLocation_location
    rw [place] at atFile before
    rw [sameFile, place] at now
    exact during.configured?_eq sound named (outside named atFile) before now
  have sameConfig : p'.config = p.config := by
    rw [kept', kept, sameDir, same]
    refine Config.withPresentLayout_congr fun layout member => ?_
    have away := atLayout config before layout member
    obtain ⟨named, place⟩ := (loads.absolute_layoutPath? sound.tree config layout member).ofLocation_location
    rw [place] at away ⊢
    exact during.isFile_eq sound named (outside named away)
  cases p'
  cases p
  cases sameFile
  cases sameDir
  cases sameConfig
  rfl

/-- A further build finds nothing else to do: it loads the same project, walks through the same files, and each of its
results is there already with the same bytes, so that it does not matter how far it gets. -/
theorem During.again {result : Except Failure Unit} {s' : World} (apart : b.ReadsApart)
    (clear : ∀ visit ∈ b.visits b.start, visit.2 = none) (all : ∀ below, b.Processes below → below ∈ done)
    (loads : b.start.Loads file b.project) (new : b.project.composer = .ok b.composer)
    (out : b.project.target b.start.here output = .ofLocation b.out)
    (atFile : b.project.file.startsWith (.ofLocation b.out) = false)
    (atLayout : ∀ config, b.start.configured? b.project.file = some config →
      ∀ layout ∈ config.layoutPath? b.project.dir, layout.startsWith (.ofLocation b.out) = false)
    (ran : s.run (.build file output) = (result, s')) (l : Location) : s'.tree.entry? l = s.tree.entry? l := by
  cases loaded : (Project.load file : World.Action Project).run s with
  | error e v =>
    cases (World.run_build_unloaded loaded output).symm.trans ran
    rw [((World.keeps_load file).error loaded).tree]
  | ok p' v =>
    have same := during.same_project sound loads (World.loads_of_run_load loaded) atFile atLayout
    rw [same] at loaded
    have later := during.later ((World.keeps_load file).ok loaded)
    have known : ∀ below ∈ b.picked (b.visits v), below ∈ done := fun below picked =>
      all below ((later.mem_picked_iff sound).mp picked)
    obtain ⟨u, built, last⟩ := later.exists_buildEach sound apart later.named_visits (later.clear sound clear)
      fun below picked => during.receives below (known below picked)
    rw [← run_buildAll sound new, ← out, ← later.here] at built
    obtain ⟨w', ran', told⟩ := World.run_build_ok loaded built
    cases ran.symm.trans ran'
    rw [told.tree]
    refine last.entries_congr during (fun below => ?_) l
    rw [List.mem_append, List.mem_reverse, or_iff_right_of_imp (known below)]

end Again

end Build

end Templating
