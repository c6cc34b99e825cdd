import Templating.Proofs.Document.Messages
import Templating.Proofs.Project.BuildFrame

namespace Templating

namespace FileTree
variable {t t' : FileTree} {here dir loc out l : Location} {bytes : List UInt8}

theorem walk_congr {names : Location} (named : names.Named)
    (same : ∀ above : Location, above <+: names → t'.entry? (dir ++ above) = t.entry? (dir ++ above)) :
    t'.walk dir (names.map String.toList) = t.walk dir (names.map String.toList) := by
  induction names generalizing dir with
  | nil => rfl
  | cons name names ih =>
    obtain ⟨isName, named⟩ := List.forall_mem_cons.mp named
    have first : t'.entry? dir = t.entry? dir := by simpa using same [] List.nil_prefix
    have behind : t'.walk (dir ++ [name]) (names.map String.toList) = t.walk (dir ++ [name]) (names.map String.toList) := by
      refine ih named fun above prefixed => ?_
      have inner := same (name :: above) (List.cons_prefix_cons.mpr ⟨rfl, prefixed⟩)
      rwa [List.append_assoc]
    rw [List.map_cons, walk, walk, first, enter_name isName]
    cases t.entry? dir with
    | none => rfl
    | some e =>
      cases e with
      | file bytes => rfl
      | directory =>
        dsimp only
        split
        · rfl
        · exact behind

/-- What reading a file comes to is decided by the entries on the way to it. -/
theorem read_congr (named : loc.Named) (same : ∀ above : Location, above <+: loc → t'.entry? above = t.entry? above) :
    t'.read here (.ofLocation loc) = t.read here (.ofLocation loc) := by
  have walked : t'.walk [] (segmentsOf loc) = t.walk [] (segmentsOf loc) := by
    rw [walk_segmentsOf, walk_segmentsOf]
    exact walk_congr named same
  unfold read find
  cases routed : route here (.ofLocation loc) with
  | error e => rfl
  | ok start =>
    obtain ⟨rfl, _⟩ := (route_ofLocation_ok_iff named).mp routed
    dsimp only [Except.bind]
    rw [walked]
    cases reached : t.walk [] (segmentsOf loc) with
    | error e => rfl
    | ok l =>
      obtain ⟨rfl, _⟩ := (walk_segmentsOf_ok_iff named).mp reached
      dsimp only
      rw [same l (List.prefix_refl l)]

/-- Where neither a file nor a long name is in the way, what is missing is not found. -/
theorem read_of_missing (named : loc.Named) (short : ∀ name ∈ loc, name.utf8ByteSize ≤ longestName)
    (clear : t.Clear loc) (missing : t.entry? loc = none) :
    t.read here (.ofLocation loc) = (route here (.ofLocation loc)).bind fun _ => .error .notFound := by
  unfold read find
  cases routed : route here (.ofLocation loc) with
  | error e => rfl
  | ok start =>
    obtain ⟨rfl, _⟩ := (route_ofLocation_ok_iff named).mp routed
    dsimp only [Except.bind]
    cases walked : t.walk [] (segmentsOf loc) with
    | error e =>
      rw [walk_segmentsOf] at walked
      rw [walk_names_error named short (fun above bytes prefixed => clear above bytes prefixed) walked]
    | ok l =>
      obtain ⟨rfl, _⟩ := (walk_segmentsOf_ok_iff named).mp walked
      dsimp only
      rw [missing]

/-- On the way to a location there is a place above `out` where nothing is. -/
def Unmade (t : FileTree) (out l : Location) : Prop :=
  ∃ above, above <+: l ∧ above <+: out ∧ above ≠ out ∧ t.entry? above = none

namespace Touches
variable (touches : t.Touches (·.InLine out) (fun l _ => l.Below out) t') (outside : ¬out <+: l)
include touches outside

theorem file_iff : t'.entry? l = some (.file bytes) ↔ t.entry? l = some (.file bytes) := by
  rcases touches l with same | ⟨_, missing, made⟩ | ⟨_, ⟨below, _, inside⟩, _⟩
  · rw [same]
  · rw [missing, made]
    exact ⟨nofun, nofun⟩
  · exact absurd (inside ▸ List.prefix_append ..) outside

/-- A file outside the results is read as before, or fails as before, unless a directory on the way to it was missing
at the beginning. -/
theorem read_eq (named : l.Named) (made : ¬t.Unmade out l) :
    t'.read here (.ofLocation l) = t.read here (.ofLocation l) := by
  refine read_congr named fun above prefixed => ?_
  have beside : ¬above.Below out := by
    rintro ⟨below, _, rfl⟩
    exact outside ((List.prefix_append ..).trans prefixed)
  rcases touches above with same | ⟨line, missing, _⟩ | ⟨_, inside, _⟩
  · exact same
  · have other : above ≠ out := fun same => outside (same ▸ prefixed)
    exact absurd ⟨above, prefixed, line.before beside, other, missing⟩ made
  · exact absurd inside beside

/-- A new directory changes what is said about the directory itself, and about long names in it. -/
theorem read_eq_of_short (sound : t.Sound) (sound' : t'.Sound) (named : l.Named)
    (short : ∀ name ∈ l, name.utf8ByteSize ≤ longestName) (beside : ¬l <+: out) :
    t'.read here (.ofLocation l) = t.read here (.ofLocation l) := by
  have outside' {above : Location} (prefixed : above <+: l) : ¬out <+: above := fun inside =>
    outside (inside.trans prefixed)
  by_cases clear : t.Clear l
  · by_cases made : t.Unmade out l
    swap
    · exact touches.read_eq outside named made
    -- Behind the place that was missing nothing was there, and at the location nothing has come.
    obtain ⟨above, prefixed, _, _, missing⟩ := made
    have gone : t.entry? l = none := by
      by_contra there
      obtain ⟨e, there⟩ := Option.ne_none_iff_exists'.mp there
      by_cases same : above = l
      · cases there.symm.trans (same ▸ missing)
      · cases missing.symm.trans (sound.opens there above prefixed same)
    have gone' : t'.entry? l = none := by
      rcases touches l with same | ⟨line, _⟩ | ⟨_, ⟨below, _, inside⟩, _⟩
      · rw [same, gone]
      · exact (line.elim beside outside).elim
      · exact absurd (inside ▸ List.prefix_append ..) outside
    have clear' : t'.Clear l := fun q bytes higher file => clear q bytes higher ((touches.file_iff (outside' higher)).mp file)
    rw [read_of_missing named short clear gone, read_of_missing named short clear' gone']
  · -- Neither before nor behind a file on the way is there anything new.
    obtain ⟨q, bytes, blocks, file⟩ : ∃ q bytes, q <+: l ∧ t.entry? q = some (.file bytes) := by
      simpa [Clear] using clear
    have file' := (touches.file_iff (outside' blocks)).mpr file
    refine read_congr named fun above prefixed => ?_
    rcases touches above with same | ⟨_, missing, new⟩ | ⟨_, ⟨below, _, inside⟩, _⟩
    · exact same
    · have other : above ≠ q := fun same => by
        subst same
        cases missing.symm.trans file
      rcases List.prefix_or_prefix_of_prefix prefixed blocks with before | behind
      · cases missing.symm.trans (sound.opens file above before other)
      · cases file'.symm.trans (sound'.opens new q behind other.symm)
    · exact absurd (inside ▸ List.prefix_append ..) (outside' prefixed)

end Touches

end FileTree

/-- The same error with another message at most, and that only if there was a place above `out` on the way to its
target where nothing was. Either that place is the target, or the target has a name that is too long. -/
def ResolveError.Reworded (t : FileTree) (out : Location) (e e' : ResolveError) : Prop :=
  e' = e ∨ e'.muted = e.muted ∧ ∃ l : Location, l.Named ∧ e.target = .ofLocation l ∧ t.Unmade out l ∧
    (l <+: out ∨ ∃ name ∈ l, FileTree.longestName < name.utf8ByteSize)

namespace World
variable {w u : World} {c : Composer} {out page l : Location}

theorem file_of_load {d : Document} (sound : w.tree.Sound) (named : page.Named)
    (loaded : c.load w.load (.ofLocation page) = .ok d) : ∃ bytes, w.tree.entry? page = some (.file bytes) := by
  unfold Composer.load at loaded
  split at loaded
  next => cases loaded
  next =>
    rw [c.resolve_ofLocation named] at loaded
    split at loaded
    next text read =>
      obtain ⟨_, bytes, there, _⟩ := (load_ok_iff sound named).mp read
      exact ⟨bytes, there⟩
    next => cases loaded

section Meanwhile
variable (sound : w.tree.Sound) (sound' : u.tree.Sound) (here : u.here = w.here)
  (touches : w.tree.Touches (·.InLine out) (fun l _ => l.Below out) u.tree)
include touches

include sound sound' in
theorem load_iff_of_touches (named : l.Named) (outside : ¬out <+: l) (text : String) :
    u.load (.ofLocation l) = .ok text ↔ w.load (.ofLocation l) = .ok text := by
  rw [load_ok_iff sound' named, load_ok_iff sound named]
  exact and_congr_right fun _ => exists_congr fun bytes => and_congr_left fun _ => touches.file_iff outside

include sound sound' here in
/-- If the system says something else about a location outside the results, a place on the way to it was missing at
the beginning; and the location is that place, or one of its names is too long. -/
theorem unmade_of_load_ne (named : l.Named) (outside : ¬out <+: l)
    (other : u.load (.ofLocation l) ≠ w.load (.ofLocation l)) :
    w.tree.Unmade out l ∧ (l <+: out ∨ ∃ name ∈ l, FileTree.longestName < name.utf8ByteSize) := by
  have differs : u.tree.read w.here (.ofLocation l) ≠ w.tree.read w.here (.ofLocation l) := fun same => by
    unfold World.load at other
    rw [here, same] at other
    exact other rfl
  constructor
  · by_contra made
    exact differs (touches.read_eq outside named made)
  · by_contra neither
    obtain ⟨beside, short⟩ := not_or.mp neither
    refine differs (touches.read_eq_of_short outside sound sound' named (fun name member => ?_) beside)
    exact Nat.le_of_not_lt fun long => short ⟨name, member, long⟩

include sound sound' here

/-- A page that reads nothing from the results comes to the same text at any time, and reports the same errors. -/
theorem rendering_of_touches (rooted : c.options.root.isRooted = true) (named : page.Named) (outsidePage : ¬out <+: page)
    (namedOut : out.Named) (opened : ∃ d, c.load u.load (.ofLocation page) = .ok d)
    (apart : ∀ d, c.load w.load (.ofLocation page) = .ok d →
      ∀ p ∈ (d.run w.load w.texts).loads, p.startsWith (.ofLocation out) = false) :
    ∃ d, c.load w.load (.ofLocation page) = .ok d ∧ d.Made ∧
      d.run? w.load (d.moves w.texts) = some (d.run w.load w.texts) ∧
        (u.rendering c (.ofLocation page)).text = (w.rendering c (.ofLocation page)).text ∧
          List.Forall₂ (ResolveError.Reworded w.tree out) (w.rendering c (.ofLocation page)).errors
            (u.rendering c (.ofLocation page)).errors := by
  obtain ⟨d', loaded'⟩ := opened
  have fits := fits_of_load named loaded'
  obtain ⟨bytes, there⟩ := file_of_load sound' named loaded'
  have before := (touches.file_iff outsidePage).mp there
  obtain ⟨d, made, inside, ran, opens⟩ := exists_document sound rooted named fits before
  have loaded := opens w.load ((load_ok_iff sound named).mpr ⟨fits, bytes, before, rfl⟩)
  have later := opens u.load ((load_ok_iff sound' named).mpr ⟨fits, bytes, there, rfl⟩)
  have absolute := inside.absolute_of_run? made (refusesRoot sound) ran
  have asks : ∀ p ∈ (d.run w.load w.texts).loads, ∃ l : Location, l.Named ∧ p = .ofLocation l ∧ ¬out <+: l := by
    intro p asked
    obtain ⟨l, named, rfl⟩ := Path.exists_location (absolute p asked).rooted (absolute p asked).canonical
    refine ⟨l, named, rfl, fun below => ?_⟩
    have away := apart d loaded _ asked
    rw [(Path.startsWith_ofLocation named namedOut).mpr below] at away
    cases away
  have alike : ∀ p ∈ (d.run w.load w.texts).loads, ∀ text, u.load p = .ok text ↔ w.load p = .ok text := by
    intro p asked text
    obtain ⟨l, named, rfl, outside⟩ := asks p asked
    exact load_iff_of_touches sound sound' touches named outside text
  obtain ⟨r, ran', same⟩ := made.exists_run?_alike ran alike
  cases made.run?_unique ran' (run?_eq_run sound' made inside)
  refine ⟨d, loaded, made, ran, ?_, ?_⟩
  · rw [rendering_of_load later, rendering_of_load loaded]
    exact (Rendering.ofEvents_of_muted same).1
  · rw [rendering_of_load later, rendering_of_load loaded]
    refine (made.forall₂_errors ran (run?_eq_run sound' made inside) same).imp fun e e' retold => ?_
    rcases retold with same | ⟨muted, asked, other⟩
    · exact .inl same
    · obtain ⟨l, named, target, outside⟩ := asks e.target asked
      rw [target] at other
      exact .inr ⟨muted, l, named, target, unmade_of_load_ne sound sound' here touches named outside other⟩

end Meanwhile

end World

end Templating
