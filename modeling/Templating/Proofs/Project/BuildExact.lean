import Mathlib.Data.List.Perm.Basic
import Templating.Proofs.Project.BuildResults

namespace Templating
open Workspace

namespace World
variable {w w' v : World} {file : Path} {output : Option Path} {p : Project} {c : Composer}

/-- A build succeeds exactly if its walk meets no directory that cannot be read, and each file that it has to do with
can be written to its place. -/
theorem build_ok_iff (inOrder : w.tree.Sound) (loaded : (Project.load file : Action Project).run w = .ok p v)
    (new : p.composer = .ok c) (apart : (Build.of p c output w).ReadsApart) :
    (∃ w', w.run (.build file output) = (.ok (), w')) ↔
      (∀ visit ∈ w.visitsAt c.options.root, visit.2 = none) ∧
        ∀ below, (Build.of p c output w).Processes below →
          w.tree.Receives ((Build.of p c output w).out ++ below) := by
  have kept := (keeps_load file).ok loaded
  obtain ⟨b, same, sound, rfl, rfl, rfl, out⟩ := Build.of_eq inOrder (loads_of_run_load loaded) new output
  rw [same] at apart ⊢
  rw [← kept.here] at out
  have begun := Build.During.start sound kept
  have named := begun.named_visits
  obtain ⟨effect, possible⟩ := begun.buildEach sound apart named ⟨0, 0, 0⟩
  have listed : b.visits v = b.start.visitsAt b.composer.options.root := by
    rw [Build.visits, kept.visitsAt, sound.root]
  rw [← listed]
  have run (s : World) := Build.run_buildAll sound new s
  rw [← out] at run
  constructor
  · rintro ⟨w', ran⟩
    obtain ⟨tally, u, built, _⟩ := run_buildAll_of_run_build loaded ran
    obtain ⟨clear, _, last⟩ := effect tally u (by rw [← built, run])
    rw [List.append_nil] at last
    exact ⟨clear, fun below processes =>
      last.receives below (List.mem_reverse.mpr ((begun.mem_picked_iff sound).mpr processes))⟩
  · rintro ⟨clear, free⟩
    obtain ⟨tally, u, built⟩ := possible clear fun below picked => free below ((begun.mem_picked_iff sound).mp picked)
    obtain ⟨w', ran, _⟩ := run_build_ok loaded ((run v).trans built)
    exact ⟨w', ran⟩

/-- A build that succeeds is complete and exact, whatever the order in which the walk comes to the files, and building
once more changes nothing. The one condition on a file besides its place is that the system takes its path: a file with
a path that is too long is passed over, and the build succeeds without it. -/
theorem build_exact (inOrder : w.tree.Sound) (loaded : (Project.load file : Action Project).run w = .ok p v)
    (new : p.composer = .ok c) (apart : (Build.of p c output w).ReadsApart)
    (ran : w.run (.build file output) = (.ok (), w')) :
    ∃ taken tally u, (Build.of p c output w).Results taken tally w'.tree ∧
      (p.buildAll (p.target w.here output) : Action Project.Tally).run v = .ok tally u ∧ SameFiles u w' ∧
      (∀ walked order, (walk c.options.root : Action (List Visit)).run v = .ok walked v → order.Perm walked →
        ∃ u', (p.buildFiles c (p.target w.here output) order ⟨0, 0, 0⟩ : Action Project.Tally).run v = .ok tally u' ∧
          ∀ l, u'.tree.entry? l = w'.tree.entry? l) ∧
      (p.file.startsWith (p.target w.here output) = false →
        (∀ config, w.configured? p.file = some config → ∀ layout ∈ config.layoutPath? p.dir,
          layout.startsWith (p.target w.here output) = false) →
        ∀ result again, w'.run (.build file output) = (result, again) →
          ∀ l, again.tree.entry? l = w'.tree.entry? l) := by
  have loads := loads_of_run_load loaded
  have kept := (keeps_load file).ok loaded
  obtain ⟨b, same, sound, rfl, rfl, rfl, out⟩ := Build.of_eq inOrder loads new output
  rw [same] at apart ⊢
  rw [← kept.here] at out ⊢
  obtain ⟨u, built, told, begun, clear, ended⟩ := Build.finished_of_run_build sound new apart loaded out ran
  have named := begun.named_visits
  have member (below : Location) : below ∈ b.picked (b.visits v) ↔ below ∈ (b.picked (b.visits v)).reverse :=
    List.mem_reverse.symm
  have all (below : Location) (processes : b.Processes below) := (begun.mem_picked_iff sound).mpr processes
  have once : (b.picked (b.visits v)).Nodup := (nodup_visitsAt begun.laid.sound _).filter b.picks
  have results := ended.results sound once member all loads.absolute_file
    (loads.absolute_layoutPath? sound.tree b.project.config)
  rw [out]
  refine ⟨_, _, u, results, built, told, ?_, ?_⟩
  · intro walked order listed perm
    rw [sound.root, run_walk] at listed
    cases listed
    have mapped : Relation.Comp (· = List.map Visit.of ·) List.Perm order (b.visits v) := by
      rwa [List.eq_map_comp_perm]
    obtain ⟨visits, rfl, shuffled⟩ := mapped
    have taking : (b.picked visits).Perm (b.picked (b.visits v)) := (shuffled.map Prod.fst).filter b.picks
    have known : ∀ below ∈ b.picked visits, b.start.tree.Receives (b.out ++ below) := fun below inside =>
      ended.receives below ((member below).mp (taking.mem_iff.mp inside))
    obtain ⟨u', ran, last'⟩ := begun.exists_buildEach sound apart (fun visit listed => named visit (shuffled.subset listed))
      (fun visit listed => clear visit (shuffled.subset listed)) known
    rw [Build.tally_perm taking] at ran
    refine ⟨u', ran, last'.entries_congr ended fun below => ?_⟩
    rw [List.append_nil, List.mem_reverse, List.mem_reverse, taking.mem_iff]
  · intro atFile atLayout result again ran' l
    rw [kept.here] at out
    have clear' : ∀ visit ∈ b.visits b.start, visit.2 = none := by
      rwa [Build.visits, ← kept.visitsAt]
    exact ended.again sound apart clear' (fun below processes => (member below).mp (all below processes)) loads new out
      atFile atLayout ran' l

/-- A page and a note that it includes. -/
def noteSite : World where
  tree := ((FileTree.empty.put ["site"] .directory).put ["site", "index.html"]
    (.file (Utf8.encode "<p><!-- include(note.txt) --></p>"))).put ["site", "note.txt"] (.file (Utf8.encode "Hello"))
  here := ["site"]
  printed := ""
  printedErrors := ""
  logged := []

def noteProject : Project := ⟨.default, ⟨"/site/weft.yaml"⟩, ⟨"/site"⟩⟩

theorem load_noteProject (stands : w.Stands) (here : w.here = ["site"])
    (missing : w.tree.present w.here ⟨"/site/weft.yaml"⟩ = false) :
    (Project.load ⟨"weft.yaml"⟩ : Action Project).run w = .ok noteProject w := by
  have file : w.whole ⟨"weft.yaml"⟩ = ⟨"/site/weft.yaml"⟩ := by
    rw [whole, here]
    decide +kernel
  have above : w.directoryOf ⟨"weft.yaml"⟩ = ⟨"/site"⟩ := by
    rw [directoryOf, file]
    decide +kernel
  rw [run_load_missing stands _ (by rw [file, missing]), file, above]
  rfl

theorem dist_noteProject : (noteProject.target ["site"] none).location [] = ["site", "dist"] := by decide +kernel

theorem of_noteProject (c : Composer) {out : Location} (here : w.here = ["site"])
    (place : (noteProject.target ["site"] output).location [] = out) :
    Build.of noteProject c output w = ⟨noteProject, c, ["site"], out, w⟩ := by
  have base : noteProject.base.location [] = ["site"] := by decide +kernel
  rw [Build.of, base, here, place]

theorem named_site : Location.Named ["site"] := List.forall_mem_singleton.mpr (by decide)

theorem root_noteProject (new : noteProject.composer = .ok c) : c.options.root = .ofLocation ["site"] := by
  rw [(Composer.new_eq new).1, Options.root_ofConfig]
  decide +kernel

/-- Entries are put one after the other, each into a directory that is there already. -/
theorem sound_noteSite : noteSite.tree.Sound := by
  have dir := FileTree.sound_empty.put_below [] "site" .directory rfl (by decide) rfl
  have page := dir.put_below ["site"] "index.html" (.file (Utf8.encode "<p><!-- include(note.txt) --></p>")) rfl
    (by decide) rfl
  exact page.put_below ["site"] "note.txt" _ rfl (by decide) rfl

theorem noteSite_files {l : Location} {bytes : List UInt8} (there : noteSite.tree.entry? l = some (.file bytes)) :
    l = ["site", "index.html"] ∨ l = ["site", "note.txt"] := by
  by_contra other
  obtain ⟨notPage, notNote⟩ := not_or.mp other
  rw [noteSite, FileTree.entry?_put (by decide), if_neg notNote, FileTree.entry?_put (by decide), if_neg notPage,
    FileTree.entry?_put (by decide)] at there
  split at there
  next => cases there
  next =>
    unfold FileTree.entry? at there
    split at there
    next => cases there
    next => cases there

theorem load_noteSite : (Project.load ⟨"weft.yaml"⟩ : Action Project).run noteSite = .ok noteProject noteSite :=
  load_noteProject rfl rfl (by decide +kernel)

theorem clear_of_fits (sound : w.tree.Sound) {base : Location} (named : base.Named)
    (fits : ∀ l, w.tree.entry? l = some .directory → l.Fits) : ∀ visit ∈ w.visitsAt (.ofLocation base), visit.2 = none := by
  rintro ⟨below, fault?⟩ listed
  cases fault? with
  | none => rfl
  | some e =>
    obtain ⟨_, stopped⟩ := (mem_visitsAt sound named).mp listed
    obtain ⟨_, _, there, long⟩ := (FileTree.exists_fault_iff sound).mp ⟨e, stopped⟩
    exact absurd (fits _ there) long

theorem fits_of_flat {t : FileTree} (flat : ∀ listed ∈ t.entries, listed.2 = .directory → listed.1 = ["site"])
    {l : Location} (there : t.entry? l = some .directory) : l.Fits := by
  by_cases root : l = []
  · rw [root]
    exact Location.fits_root
  · have place : l = ["site"] := flat _ (FileTree.mem_of_entry? root there) rfl
    rw [place]
    exact ⟨by decide, by decide, by decide⟩

/-- The page asks for the note, and comes to the text with the note in it. -/
theorem exists_document_noteSite : ∃ c d, noteProject.composer = .ok c ∧
    c.load noteSite.load ⟨"/site/index.html"⟩ = .ok d ∧
      (d.run noteSite.load noteSite.texts).loads = [⟨"/site/note.txt"⟩] ∧
        (Rendering.ofEvents (d.run noteSite.load noteSite.texts).events).text = "<p>Hello</p>" := by
  have outcome : (noteProject.composer.toOption.bind fun c => (c.load noteSite.load ⟨"/site/index.html"⟩).toOption.map
      fun d => ((d.run noteSite.load noteSite.texts).loads,
        (Rendering.ofEvents (d.run noteSite.load noteSite.texts).events).text)) =
      some ([⟨"/site/note.txt"⟩], "<p>Hello</p>") := by
    decide +kernel
  obtain ⟨c, made, rest⟩ := Option.bind_eq_some_iff.mp outcome
  obtain ⟨d, loaded, ran⟩ := Option.map_eq_some_iff.mp rest
  exact ⟨c, d, Except.eq_ok_of_toOption made, Except.eq_ok_of_toOption loaded, congrArg Prod.fst ran,
    congrArg Prod.snd ran⟩

theorem readsApart_noteSite {c : Composer} (new : noteProject.composer = .ok c) :
    (Build.of noteProject c none noteSite).ReadsApart := by
  obtain ⟨c', d, new', loaded, asked, _⟩ := exists_document_noteSite
  cases new.symm.trans new'
  rw [of_noteProject c rfl dist_noteProject]
  intro below processes composes d' loaded' p member
  obtain ⟨bytes, there⟩ := processes.there
  rcases noteSite_files there with page | note
  · cases page
    cases loaded.symm.trans loaded'
    rw [asked] at member
    rw [List.mem_singleton.mp member]
    change (⟨"/site/note.txt"⟩ : Path).startsWith (.ofLocation ["site", "dist"]) = false
    decide +kernel
  · cases note
    have watched : noteProject.config.isWatched (.ofLocation ["site", "note.txt"]) = true := composes
    exact absurd watched (by decide +kernel)

theorem receives_noteSite {name : String} (target : Location.Fits ["site", "dist", name])
    (free : noteSite.tree.entry? ["site", "dist", name] ≠ some .directory) :
    noteSite.tree.Receives ["site", "dist", name] := by
  refine ⟨target, fun above bytes prefixed _ there => ?_, free⟩
  rcases noteSite_files there with rfl | rfl
  · simp at prefixed
  · simp at prefixed

/-- The page is composed from the note, a second build changes nothing, and none of the conditions is empty. -/
theorem build_exact_noteSite : ∃ c w', noteSite.tree.Sound ∧
    (Project.load ⟨"weft.yaml"⟩ : Action Project).run noteSite = .ok noteProject noteSite ∧
      noteProject.composer = .ok c ∧ (Build.of noteProject c none noteSite).ReadsApart ∧
        noteSite.run (.build ⟨"weft.yaml"⟩ none) = (.ok (), w') ∧
          w'.tree.entry? ["site", "dist", "index.html"] = some (.file (Utf8.encode "<p>Hello</p>")) ∧
            ∀ result again, w'.run (.build ⟨"weft.yaml"⟩ none) = (result, again) →
              ∀ l, again.tree.entry? l = w'.tree.entry? l := by
  obtain ⟨c, d, new, loaded, _, text⟩ := exists_document_noteSite
  have apart := readsApart_noteSite new
  have root := root_noteProject new
  have free : ∀ below, (Build.of noteProject c none noteSite).Processes below →
      noteSite.tree.Receives ((Build.of noteProject c none noteSite).out ++ below) := by
    rw [of_noteProject c rfl dist_noteProject]
    intro below processes
    obtain ⟨bytes, there⟩ := processes.there
    rcases noteSite_files there with page | note
    · cases page
      exact receives_noteSite ⟨by decide, by decide, by decide⟩ (by decide +kernel)
    · cases note
      exact receives_noteSite ⟨by decide, by decide, by decide⟩ (by decide +kernel)
  have clear : ∀ visit ∈ noteSite.visitsAt c.options.root, visit.2 = none := by
    rw [root]
    exact clear_of_fits sound_noteSite named_site fun l => fits_of_flat (by decide +kernel)
  obtain ⟨w', ran⟩ := (build_ok_iff sound_noteSite load_noteSite new apart).mpr ⟨clear, free⟩
  obtain ⟨taken, tally, u, results, _, _, _, unchanged⟩ :=
    build_exact sound_noteSite load_noteSite new apart ran
  refine ⟨c, w', sound_noteSite, load_noteSite, new, apart, ran, ?_, unchanged (by decide +kernel) ?_⟩
  · rw [of_noteProject c rfl dist_noteProject] at results
    have member : ["index.html"] ∈ taken := by
      have fits : Location.Fits ["site", "index.html"] := ⟨by decide, by decide, by decide⟩
      refine (results.taken_iff _).mpr ⟨by simp, ⟨_, rfl⟩, fits, by simp, ?_, fun layout named => by cases named⟩
      change Path.ofLocation ["site", "index.html"] ≠ ⟨"/site/weft.yaml"⟩
      decide +kernel
    have watched : Build.composes ⟨noteProject, c, ["site"], ["site", "dist"], noteSite⟩ ["index.html"] = true := by
      change noteProject.config.isWatched (.ofLocation ["site", "index.html"]) = true
      decide +kernel
    have result : Build.result ⟨noteProject, c, ["site"], ["site", "dist"], noteSite⟩ ["index.html"] =
        Utf8.encode "<p>Hello</p>" := by
      rw [Build.result, if_pos watched, Build.rendering, ← text]
      exact congrArg (fun page : Rendering => Utf8.encode page.text) (rendering_of_load loaded)
    rw [← result]
    exact results.written _ member
  · intro config configured layout named
    have default : noteSite.configured? noteProject.file = some .default := if_neg (by decide +kernel)
    cases configured.symm.trans default
    cases named

/-- A build that has to do with no file goes through if its walk does, and leaves everything as it is. -/
theorem exists_build_idle (inOrder : w.tree.Sound) (loaded : (Project.load file : Action Project).run w = .ok p v)
    (new : p.composer = .ok c) (clear : ∀ visit ∈ w.visitsAt c.options.root, visit.2 = none)
    (idle : ∀ below, ¬(Build.of p c output w).Processes below) :
    ∃ w', w.run (.build file output) = (.ok (), w') ∧ ∀ l, w'.tree.entry? l = w.tree.entry? l := by
  have apart : (Build.of p c output w).ReadsApart := fun below processes => absurd processes (idle below)
  obtain ⟨w', ran⟩ := (build_ok_iff inOrder loaded new apart).mpr ⟨clear, fun below processes => absurd processes (idle below)⟩
  have kept := (keeps_load file).ok loaded
  obtain ⟨b, same, sound, rfl, rfl, rfl, out⟩ := Build.of_eq inOrder (loads_of_run_load loaded) new output
  rw [same] at idle apart
  rw [← kept.here] at out
  obtain ⟨u, _, _, begun, _, ended⟩ := Build.finished_of_run_build sound new apart loaded out ran
  refine ⟨w', ran, fun l => ended.laid.entry?_elsewhere fun target member _ => ?_⟩
  obtain ⟨below, picked, rfl⟩ := Build.mem_targets.mp member
  exact idle below ((begun.mem_picked_iff sound).mp (List.mem_reverse.mp picked))

/-- The result of a build that goes through lacks a file of the base directory, which is not below the directory of the
results, and neither the configuration nor the default layout. -/
structure LeavesOut (w : World) (c : Composer) (output : Option Path) (out below : Location) : Prop where
  sound : w.tree.Sound
  loaded : (Project.load ⟨"weft.yaml"⟩ : Action Project).run w = .ok noteProject w
  places : Build.of noteProject c output w = ⟨noteProject, c, ["site"], out, w⟩
  apart : (Build.of noteProject c output w).ReadsApart
  inner : below ≠ []
  there : ∃ bytes, w.tree.entry? ("site" :: below) = some (.file bytes)
  noResult : ∀ rest, rest ≠ [] → "site" :: below ≠ out ++ rest
  noConfig : Path.ofLocation ("site" :: below) ≠ noteProject.file
  noLayout : noteProject.config.layoutPath? noteProject.dir = none
  built : ∃ w', w.run (.build ⟨"weft.yaml"⟩ output) = (.ok (), w') ∧ w'.tree.entry? (out ++ below) = none

/-- Directories one in another, each with a name of fifteen letters. -/
def deepPlace : Nat → Location
  | 0 => ["site"]
  | n + 1 => deepPlace n ++ ["fifteen-letters"]

def deepTree : Nat → FileTree
  | 0 => FileTree.empty.put (deepPlace 0) .directory
  | n + 1 => (deepTree n).put (deepPlace (n + 1)) .directory

/-- A file in a directory whose path is almost too long. -/
def deepSite : World where
  tree := (deepTree 255).put (deepPlace 256) (.file (Utf8.encode "Hello"))
  here := ["site"]
  printed := ""
  printedErrors := ""
  logged := []

theorem deepPlace_ne (n : Nat) : deepPlace n ≠ [] := by
  cases n <;> simp [deepPlace]

theorem deepPlace_eq (n : Nat) : deepPlace n = "site" :: List.replicate n "fifteen-letters" := by
  induction n with
  | zero => rfl
  | succ n ih => rw [deepPlace, ih, List.replicate_succ', List.cons_append]

theorem named_deepPlace (n : Nat) : (deepPlace n).Named := by
  induction n with
  | zero => exact named_site
  | succ n ih => exact Location.named_concat.mpr ⟨ih, by decide⟩

/-- Each directory makes the path sixteen bytes longer, so that its length is known without looking at it. -/
theorem text_deepPlace (n : Nat) : (Path.ofLocation (deepPlace n)).text.utf8ByteSize = 5 + 16 * n ∧
    '\x00' ∉ (Path.ofLocation (deepPlace n)).text.toList := by
  induction n with
  | zero => decide
  | succ n ih =>
    obtain ⟨size, plain⟩ := ih
    rw [deepPlace, Path.text_ofLocation_concat (named_deepPlace (n + 1)) (deepPlace_ne n)]
    constructor
    · rw [String.utf8ByteSize_append, String.utf8ByteSize_append, size]
      change 5 + 16 * n + 1 + 15 = _
      omega
    · rw [String.toList_append, String.toList_append, List.mem_append, List.mem_append, not_or, not_or]
      exact ⟨⟨plain, by decide⟩, by decide⟩

/-- The path of the last directory takes 4085 bytes, ten less than the system takes. -/
theorem fits_deepPlace {n : Nat} (short : n ≤ 255) : (deepPlace n).Fits := by
  obtain ⟨size, plain⟩ := text_deepPlace n
  refine ⟨by rw [size, FileTree.longestPath]; omega, plain, fun name member => ?_⟩
  rw [deepPlace_eq, List.mem_cons, List.mem_replicate] at member
  rcases member with rfl | ⟨_, rfl⟩
  · decide
  · decide

theorem entry?_put_concat {t : FileTree} {above : Location} (name : String)
    (entries : ∀ l, t.entry? l = if l <+: above then some .directory else none) (l : Location) :
    FileTree.entry? (t.put (above ++ [name]) .directory) l = if l <+: above ++ [name] then some .directory else none := by
  rw [FileTree.entry?_put (by simp), entries]
  by_cases last : l = above ++ [name]
  · rw [if_pos last, if_pos (List.prefix_concat_iff.mpr (.inl last))]
  · rw [if_neg last]
    exact if_congr (List.prefix_concat_iff.trans (or_iff_right last)).symm rfl rfl

theorem entry?_deepTree (n : Nat) (l : Location) :
    FileTree.entry? (deepTree n) l = if l <+: deepPlace n then some .directory else none := by
  induction n generalizing l with
  | zero =>
    have start (l : Location) : FileTree.empty.entry? l = if l <+: [] then some .directory else none :=
      if_congr List.prefix_nil.symm rfl rfl
    exact entry?_put_concat "site" start l
  | succ n ih => exact entry?_put_concat "fifteen-letters" ih l

theorem sound_put_deepTree {n : Nat} (sound : (deepTree n).Sound) (e : Entry) :
    ((deepTree n).put (deepPlace (n + 1)) e).Sound := by
  refine sound.put_below (deepPlace n) "fifteen-letters" e ?_ (by decide) ?_
  · rw [entry?_deepTree, if_pos (List.prefix_refl _)]
  · rw [entry?_deepTree, if_neg fun above => ?_]
    have longer := above.length_le
    rw [List.length_append, List.length_singleton] at longer
    omega

theorem sound_deepTree (n : Nat) : (deepTree n).Sound := by
  induction n with
  | zero => exact FileTree.sound_empty.put_below [] "site" .directory rfl (by decide) rfl
  | succ n ih => exact sound_put_deepTree ih .directory

theorem sound_deepSite : deepSite.tree.Sound := sound_put_deepTree (sound_deepTree 255) _

theorem entry?_deepSite (l : Location) : deepSite.tree.entry? l =
    if l = deepPlace 256 then some (.file (Utf8.encode "Hello")) else
      if l <+: deepPlace 255 then some .directory else none := by
  rw [deepSite, FileTree.entry?_put (deepPlace_ne 256), entry?_deepTree]

/-- Every directory of the site has a path that the system takes, but its file has not. -/
theorem fits_deepSite {l : Location} {e : Entry} (there : deepSite.tree.entry? l = some e) :
    l.Fits ↔ e = .directory := by
  rw [entry?_deepSite] at there
  split at there
  next place =>
    cases there
    refine iff_of_false (fun fits => ?_) Entry.noConfusion
    have short := fits.short
    rw [place, (text_deepPlace 256).1, FileTree.longestPath] at short
    omega
  next =>
    split at there
    next above =>
      cases there
      have fits := fits_deepPlace (Nat.le_refl 255)
      exact iff_of_true (fits.of_prefix (named_deepPlace 255) above) rfl
    next => cases there

theorem missing_deepSite {name : String} (other : name ≠ "fifteen-letters") :
    deepSite.tree.entry? ["site", name] = none := by
  rw [entry?_deepSite, if_neg, if_neg]
  · rw [deepPlace_eq, List.cons_prefix_cons, and_iff_right rfl]
    exact fun above => other (List.eq_of_mem_replicate (above.subset List.mem_cons_self))
  · rw [deepPlace_eq]
    intro same
    exact other (List.eq_of_mem_replicate ((List.cons.inj same).2 ▸ List.mem_cons_self))

theorem load_deepSite : (Project.load ⟨"weft.yaml"⟩ : Action Project).run deepSite = .ok noteProject deepSite := by
  refine load_noteProject ?_ rfl ?_
  · change deepSite.tree.entry? ["site"] = some .directory
    rw [entry?_deepSite, if_neg, if_pos]
    · rw [deepPlace_eq]
      exact List.prefix_append ["site"] _
    · rw [deepPlace_eq, List.cons_inj_right]
      exact List.cons_ne_nil _ _ ∘ Eq.symm
  · have named : Location.Named ["site", "weft.yaml"] :=
      List.forall_mem_cons.mpr ⟨by decide, List.forall_mem_singleton.mpr (by decide)⟩
    have place : (⟨"/site/weft.yaml"⟩ : Path) = .ofLocation ["site", "weft.yaml"] := by decide +kernel
    rw [← Bool.not_eq_true, place, sound_deepSite.present_iff named, missing_deepSite (by decide)]
    exact fun ⟨_, _, there⟩ => nomatch there

/-- The file lies so deep that its path is not one that the system takes: the walk comes to it, and it is passed over
because it is not found to be a file. -/
theorem leavesOut_deepSite {c : Composer} (new : noteProject.composer = .ok c) :
    deepSite.LeavesOut c none ["site", "dist"] (List.replicate 256 "fifteen-letters") := by
  have places := of_noteProject (w := deepSite) c rfl dist_noteProject
  have there : deepSite.tree.entry? ("site" :: List.replicate 256 "fifteen-letters") = some (.file (Utf8.encode "Hello")) := by
    rw [entry?_deepSite, if_pos (deepPlace_eq 256).symm]
  have idle : ∀ below, ¬(Build.of noteProject c none deepSite).Processes below := by
    rw [places]
    intro below processes
    obtain ⟨bytes, there⟩ := processes.there
    cases (fits_deepSite there).mp processes.fits
  have clear : ∀ visit ∈ deepSite.visitsAt c.options.root, visit.2 = none := by
    rw [root_noteProject new]
    exact clear_of_fits sound_deepSite named_site fun l there => (fits_deepSite there).mpr rfl
  obtain ⟨w', ran, unchanged⟩ := exists_build_idle sound_deepSite load_deepSite new clear idle
  have free : deepSite.tree.entry? (["site", "dist"] ++ List.replicate 256 "fifteen-letters") = none := by
    cases result : deepSite.tree.entry? (["site", "dist"] ++ List.replicate 256 "fifteen-letters") with
    | none => rfl
    | some e =>
      have above := sound_deepSite.opens result ["site", "dist"] (List.prefix_append ..) fun same => by
        cases List.append_right_eq_self.mp same.symm
      rw [missing_deepSite (by decide)] at above
      cases above
  exact {
    sound := sound_deepSite
    loaded := load_deepSite
    places := places
    apart := fun below processes => absurd processes (idle below)
    inner := List.cons_ne_nil _ _
    there := ⟨_, there⟩
    noResult := by
      intro rest _ same
      have first := (List.cons.inj same).2
      have member : "dist" ∈ List.replicate 256 "fifteen-letters" := first ▸ List.mem_cons_self
      exact absurd (List.eq_of_mem_replicate member) (by decide)
    noConfig := by
      rw [← deepPlace_eq]
      intro same
      have sizes := congrArg (·.text.utf8ByteSize) same
      rw [(text_deepPlace 256).1] at sizes
      cases sizes
    noLayout := rfl
    built := ⟨w', ran, by rw [unchanged, free]⟩ }

/-- A site with a note alone. -/
def loneSite : World where
  tree := (FileTree.empty.put ["site"] .directory).put ["site", "note.txt"] (.file (Utf8.encode "Hello"))
  here := ["site"]
  printed := ""
  printedErrors := ""
  logged := []

theorem sound_loneSite : loneSite.tree.Sound := by
  have dir := FileTree.sound_empty.put_below [] "site" .directory rfl (by decide) rfl
  exact dir.put_below ["site"] "note.txt" _ rfl (by decide) rfl

theorem load_loneSite : (Project.load ⟨"weft.yaml"⟩ : Action Project).run loneSite = .ok noteProject loneSite :=
  load_noteProject rfl rfl (by decide +kernel)

/-- A file that is itself the directory of the results counts as one of them, so that it is passed over and nothing is
written in its place. -/
theorem leavesOut_loneSite {c : Composer} (new : noteProject.composer = .ok c) :
    loneSite.LeavesOut c (some ⟨"note.txt"⟩) ["site", "note.txt"] ["note.txt"] := by
  have out : (noteProject.target ["site"] (some ⟨"note.txt"⟩)).location [] = ["site", "note.txt"] := by decide +kernel
  have places := of_noteProject (w := loneSite) c rfl out
  have idle : ∀ below, ¬(Build.of noteProject c (some ⟨"note.txt"⟩) loneSite).Processes below := by
    rw [places]
    intro below processes
    obtain ⟨bytes, there⟩ := processes.there
    have files : ∀ listed ∈ loneSite.tree.entries, listed.2 ≠ .directory → listed.1 = ["site", "note.txt"] := by
      decide +kernel
    have place := files _ (FileTree.mem_of_entry? (List.cons_ne_nil _ _) there) Entry.noConfusion
    cases place
    have taken : noteProject.takesPart (.ofLocation ["site", "note.txt"]) (.ofLocation ["site", "note.txt"]) = true :=
      processes.takes
    exact absurd taken (by decide +kernel)
  have clear : ∀ visit ∈ loneSite.visitsAt c.options.root, visit.2 = none := by
    rw [root_noteProject new]
    exact clear_of_fits sound_loneSite named_site fun l => fits_of_flat (by decide +kernel)
  obtain ⟨w', ran, unchanged⟩ := exists_build_idle sound_loneSite load_loneSite new clear idle
  exact {
    sound := sound_loneSite
    loaded := load_loneSite
    places := places
    apart := fun below processes => absurd processes (idle below)
    inner := List.cons_ne_nil _ _
    there := ⟨_, rfl⟩
    noResult := fun rest behind same => behind (List.append_right_eq_self.mp same.symm)
    noConfig := by decide +kernel
    noLayout := rfl
    built := ⟨w', ran, by rw [unchanged]; rfl⟩ }

/-- Two files that a build leaves out without a word, although they are to be built: one with a path that the system does
not take, and one in the place of the directory that the results are to go to. -/
theorem build_leaves_out : ∃ c, noteProject.composer = .ok c ∧
    deepSite.LeavesOut c none ["site", "dist"] (List.replicate 256 "fifteen-letters") ∧
      loneSite.LeavesOut c (some ⟨"note.txt"⟩) ["site", "note.txt"] ["note.txt"] := by
  obtain ⟨c, _, new, _⟩ := exists_document_noteSite
  exact ⟨c, new, leavesOut_deepSite new, leavesOut_loneSite new⟩

end World

end Templating
