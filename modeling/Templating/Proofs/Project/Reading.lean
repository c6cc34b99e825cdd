import Templating.Project.World
import Templating.Proofs.Document.Alike
import Templating.Proofs.Document.Termination
import Templating.Proofs.Files.Access

namespace Templating

/-- The loader that reads nothing but paths from the root. -/
def Loader.fromRoot (load : Loader) : Loader := fun p => if p.isRooted then load p else .error ""

theorem Loader.fromRoot_eq {load : Loader} {p : Path} (rooted : p.isRooted = true) : load.fromRoot p = load p :=
  if_pos rooted

theorem Loader.RefusesRoot.fromRoot {load : Loader} (refuses : load.RefusesRoot) : load.fromRoot.RefusesRoot := by
  intro text loaded
  rw [Loader.fromRoot_eq (Path.isRooted_ofLocation [])] at loaded
  exact refuses text loaded

def FileTree.paths (t : FileTree) : List Path :=
  t.entries.filterMap fun
    | (loc, .file _) => some (.ofLocation loc)
    | (_, .directory) => none

theorem FileTree.length_paths (t : FileTree) : t.paths.length = t.files.length := by
  unfold paths files
  induction t.entries with
  | nil => rfl
  | cons entry entries ih =>
    obtain ⟨loc, e⟩ := entry
    cases e with
    | file bytes => simpa [List.filterMap_cons] using ih
    | directory => simpa [List.filterMap_cons] using ih

theorem Composer.resolve_ofLocation {loc : Location} (c : Composer) (named : loc.Named) :
    c.resolve (.ofLocation loc) = .ofLocation loc := by
  rw [resolve, Path.join_of_isRooted (Path.isRooted_ofLocation loc), Path.normalize_ofLocation named]

namespace World
variable {w : World} {loc : Location} {text : String}

/-- A workspace gives the texts of its files whose path the system takes, and fails for all else. Bytes that are no
text are replaced. -/
theorem load_ok_iff (sound : w.tree.Sound) (named : loc.Named) :
    w.load (.ofLocation loc) = .ok text ↔
      loc.Fits ∧ ∃ bytes, w.tree.entry? loc = some (.file bytes) ∧ text = Utf8.decodeLossy bytes := by
  unfold World.load
  constructor
  · intro loaded
    split at loaded
    next bytes read =>
      obtain ⟨fits, there⟩ := (sound.read_ok_iff named).mp read
      exact ⟨fits, bytes, there, (Except.ok.inj loaded).symm⟩
    next => cases loaded
  · rintro ⟨fits, bytes, there, rfl⟩
    rw [(sound.read_ok_iff named).mpr ⟨fits, there⟩]

theorem refusesRoot (sound : w.tree.Sound) : w.load.RefusesRoot := by
  intro text loaded
  obtain ⟨_, bytes, there, _⟩ := (load_ok_iff sound fun name member => absurd member List.not_mem_nil).mp loaded
  rw [FileTree.entry?_root] at there
  cases there

/-- The paths from the root that lead to texts are among those of the files, and no text is longer than the longest of
them. -/
theorem within_fromRoot (sound : w.tree.Sound) (page : String) :
    w.load.fromRoot.Within w.tree.paths ((page :: w.texts).foldl (fun n text => max n text.length) 0) := by
  intro path source canonical loaded
  cases rooted : path.isRooted with
  | false =>
    rw [Loader.fromRoot, rooted] at loaded
    cases loaded
  | true =>
    rw [Loader.fromRoot_eq rooted] at loaded
    obtain ⟨loc, named, rfl⟩ := Path.exists_location rooted canonical
    obtain ⟨_, bytes, there, rfl⟩ := (load_ok_iff sound named).mp loaded
    have inner : loc ≠ [] := by
      rintro rfl
      rw [FileTree.entry?_root] at there
      cases there
    have member := FileTree.mem_of_entry? inner there
    have text : Utf8.decodeLossy bytes ∈ w.texts :=
      List.mem_map_of_mem (List.mem_filterMap.mpr ⟨_, member, rfl⟩)
    exact ⟨List.mem_filterMap.mpr ⟨_, member, rfl⟩, length_le_longest (List.mem_cons_of_mem page text) 0⟩

/-- The run that a build works with is a complete one: it comes to an end in the number of moves that a build allows
for. -/
theorem run?_eq_run {d : Document} (sound : w.tree.Sound) (made : d.Made) (rooted : d.Rooted) :
    d.run? w.load (d.moves w.texts) = some (d.run w.load w.texts) := by
  have same : w.tree.paths.length = w.texts.length := by rw [texts, List.length_map, w.tree.length_paths]
  have refuses := (refusesRoot sound).fromRoot
  have ended : ∃ r, d.run? w.load.fromRoot (d.moves w.texts) = some r := by
    rcases made.weight_run (within_fromRoot sound d.page.source) (d.moves w.texts) with reached | lost
    · exact ⟨_, made.run?_iff.mpr (Prod.ext rfl reached)⟩
    · have light : _ < d.moves w.texts := weight_lt_moves same
      omega
  obtain ⟨r, ran⟩ := ended
  have absolute := rooted.absolute_of_run? made refuses ran
  have ran' : d.run? w.load (d.moves w.texts) = some r :=
    Document.run?_congr ran fun p asked => (Loader.fromRoot_eq (absolute p asked).rooted).symm
  rw [Document.run, ran', Option.getD_some]

theorem fits_of_load {c : Composer} {d : Document} (named : loc.Named)
    (loaded : c.load w.load (.ofLocation loc) = .ok d) : loc.Fits := by
  rw [Composer.load, c.resolve_ofLocation named] at loaded
  split at loaded
  next => cases loaded
  next =>
    unfold World.load at loaded
    cases read : w.tree.read w.here (.ofLocation loc) with
    | ok bytes => exact FileTree.fits_of_read named read
    | error e =>
      rw [read] at loaded
      cases loaded

/-- A file whose path the system takes can be opened, and the run of its document comes to an end. -/
theorem exists_document {c : Composer} {bytes : List UInt8} (sound : w.tree.Sound)
    (rooted : c.options.root.isRooted = true) (named : loc.Named) (fits : loc.Fits)
    (there : w.tree.entry? loc = some (.file bytes)) :
    ∃ d : Document, d.Made ∧ d.Rooted ∧ d.run? w.load (d.moves w.texts) = some (d.run w.load w.texts) ∧
      ∀ load : Loader, load (.ofLocation loc) = .ok (Utf8.decodeLossy bytes) →
        c.load load (.ofLocation loc) = .ok d := by
  have resolved := c.resolve_ofLocation named
  have filled := Path.text_ofLocation_ne loc
  obtain ⟨d, opened, _⟩ := Composer.document_of_named filled (Utf8.decodeLossy bytes)
  have loaded (load : Loader) (read : load (.ofLocation loc) = .ok (Utf8.decodeLossy bytes)) :
      c.load load (.ofLocation loc) = .ok d := by
    rw [Composer.load_of_loaded filled (by rwa [resolved]), resolved, opened]
  have read : w.load (.ofLocation loc) = .ok (Utf8.decodeLossy bytes) :=
    (load_ok_iff sound named).mpr ⟨fits, bytes, there, rfl⟩
  obtain ⟨made, inside⟩ := Composer.rooted_of_load rooted (refusesRoot sound) (loaded w.load read)
  exact ⟨d, made, inside, run?_eq_run sound made inside, loaded⟩

end World

end Templating
