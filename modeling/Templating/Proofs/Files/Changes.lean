import Templating.Proofs.Files.Access

namespace Templating

namespace FileTree
variable {t t' : FileTree} {here loc above l : Location} {name : String} {e : Entry} {bytes : List UInt8}

/-- Whatever stands above an entry is a directory if the directory it lies in and all above that are there. -/
theorem opens_concat_iff :
    t.Opens (above ++ [name]) ↔ ∀ l, l <+: above → t.entry? l = some .directory := by
  constructor
  · intro opens l prefixed
    refine opens l (prefixed.trans (List.prefix_append ..)) fun same => ?_
    have length := prefixed.length_le
    rw [same, List.length_append, List.length_singleton] at length
    omega
  · intro directories l prefixed other
    exact directories l ((List.prefix_concat_iff.mp prefixed).resolve_left other)

theorem Sound.put_below (sound : t.Sound) (above : Location) (name : String) (e : Entry)
    (directory : t.entry? above = some .directory) (isName : Path.IsName name)
    (free : t.entry? (above ++ [name]) = none) : (t.put (above ++ [name]) e).Sound := by
  have named := Location.named_concat.mpr ⟨sound.named directory, isName⟩
  refine sound.put (by simp) named (opens_concat_iff.mpr fun l higher => ?_) fun there => ?_
  · by_cases same : l = above
    · rw [same, directory]
    · exact sound.opens directory l higher same
  · rw [free] at there
    cases there

/-- A spot is found at the path of a location exactly if the system takes the path and directories stand above;
whether something is there plays no part. -/
theorem spot_ok_iff (named : (above ++ [name]).Named) {spot : Spot} :
    t.spot here (.ofLocation (above ++ [name])) = .ok spot ↔
      spot = ⟨above ++ [name], true, false⟩ ∧ Location.Fits (above ++ [name]) ∧ t.Opens (above ++ [name]) := by
  rw [spot_ofLocation named, Except.bind_eq_ok_iff]
  constructor
  · rintro ⟨start, routed, walked⟩
    obtain ⟨rfl, short, plain⟩ := (route_ofLocation_ok_iff named).mp routed
    obtain ⟨place, walked, same⟩ := Except.bind_eq_ok_iff.mp walked
    obtain ⟨rfl, names, opens⟩ := (walk_segmentsOf_ok_iff named).mp walked
    exact ⟨(Except.ok.inj same).symm, ⟨short, plain, names⟩, opens⟩
  · rintro ⟨rfl, ⟨short, plain, names⟩, opens⟩
    refine ⟨_, (route_ofLocation_ok_iff named).mpr ⟨rfl, short, plain⟩, Except.bind_eq_ok_iff.mpr ?_⟩
    exact ⟨_, (walk_segmentsOf_ok_iff named).mpr ⟨rfl, names, opens⟩, rfl⟩

/-- A file is written exactly if the system takes the path, directories stand above and no directory is in its place.
A file that is there is replaced. -/
theorem write_ok_iff (named : loc.Named) :
    t.write here (.ofLocation loc) bytes = .ok t' ↔
      loc.Fits ∧ t.Opens loc ∧ t.entry? loc ≠ some .directory ∧ t' = t.put loc (.file bytes) := by
  rw [write, Except.bind_eq_ok_iff]
  rcases List.eq_nil_or_concat loc with rfl | ⟨above, name, rfl⟩
  · refine ⟨fun ⟨spot, spotted, wrote⟩ => ?_, fun both => absurd (entry?_root t) both.2.2.1⟩
    rw [spot_root] at spotted
    cases spotted
    cases wrote
  rw [List.concat_eq_append] at named ⊢
  constructor
  · rintro ⟨spot, spotted, wrote⟩
    obtain ⟨rfl, fits, opens⟩ := (spot_ok_iff named).mp spotted
    dsimp only at wrote
    rw [if_neg (by decide)] at wrote
    split at wrote
    next => cases wrote
    next other => exact ⟨fits, opens, other, (Except.ok.inj wrote).symm⟩
  · rintro ⟨fits, opens, other, rfl⟩
    refine ⟨_, (spot_ok_iff named).mpr ⟨rfl, fits, opens⟩, ?_⟩
    dsimp only
    rw [if_neg (by decide)]
    split
    next there => exact absurd there other
    next => rfl

/-- A directory is made exactly if the system takes the path, directories stand above and nothing at all is there. -/
theorem makeDirectory_ok_iff (named : loc.Named) :
    t.makeDirectory here (.ofLocation loc) = .ok t' ↔
      loc.Fits ∧ t.Opens loc ∧ t.entry? loc = none ∧ t' = t.put loc .directory := by
  rw [makeDirectory, Except.bind_eq_ok_iff]
  rcases List.eq_nil_or_concat loc with rfl | ⟨above, name, rfl⟩
  · refine ⟨fun ⟨spot, spotted, made⟩ => ?_, fun both => ?_⟩
    · rw [spot_root] at spotted
      cases spotted
      cases made
    · have missing := both.2.2.1
      rw [entry?_root] at missing
      cases missing
  rw [List.concat_eq_append] at named ⊢
  constructor
  · rintro ⟨spot, spotted, made⟩
    obtain ⟨rfl, fits, opens⟩ := (spot_ok_iff named).mp spotted
    split at made
    next => cases made
    next free =>
      have missing : t.entry? (above ++ [name]) = none := by simpa using free
      exact ⟨fits, opens, missing, (Except.ok.inj made).symm⟩
  · rintro ⟨fits, opens, missing, rfl⟩
    refine ⟨_, (spot_ok_iff named).mpr ⟨rfl, fits, opens⟩, ?_⟩
    rw [missing]
    rfl

/-- No file stands in the way of a directory. -/
def Clear (t : FileTree) (loc : Location) : Prop :=
  ∀ above bytes, above <+: loc → t.entry? above ≠ some (.file bytes)

theorem Clear.of_prefix (clear : t.Clear loc) (prefixed : above <+: loc) : t.Clear above :=
  fun l bytes higher => clear l bytes (higher.trans prefixed)

theorem clear_of_directories (directories : ∀ l, l <+: loc → t.entry? l = some .directory ∨ t.entry? l = none) :
    t.Clear loc := by
  intro l bytes prefixed file
  rcases directories l prefixed with directory | missing
  · cases file.symm.trans directory
  · cases file.symm.trans missing

/-- Where nothing is in the way, making a directory fails for want of those above it only, which is the error that
lets the next attempt be made further up. -/
theorem makeDirectory_notFound (named : loc.Named) (fits : loc.Fits) (clear : t.Clear loc) (closed : ¬t.Opens loc) :
    t.makeDirectory here (.ofLocation loc) = .error .notFound := by
  rcases List.eq_nil_or_concat loc with rfl | ⟨above, name, rfl⟩
  · exact absurd (fun l prefixed other => absurd (List.prefix_nil.mp prefixed) other) closed
  rw [List.concat_eq_append] at *
  rw [makeDirectory, spot_ofLocation named, (route_ofLocation_ok_iff named).mpr ⟨rfl, fits.short, fits.plain⟩]
  dsimp only [Except.bind]
  cases walked : t.walk [] (segmentsOf (above ++ [name])) with
  | ok place => exact absurd ((walk_segmentsOf_ok_iff named).mp walked).2.2 closed
  | error e =>
    rw [walk_segmentsOf] at walked
    rw [walk_names_error named fits.names (fun l bytes prefixed => clear l bytes prefixed) walked]

/-- The tree with a directory at a location and at all those above it, in order and otherwise the same. -/
structure Paved (t t' : FileTree) (loc : Location) : Prop where
  sound : t'.Sound
  entries : ∀ l, t'.entry? l = if l <+: loc then some .directory else t.entry? l

theorem Paved.of_directory (sound : t.Sound) (opens : t.Opens loc) (there : t.entry? loc = some .directory) :
    Paved t t loc := by
  refine ⟨sound, fun l => ?_⟩
  split
  next prefixed =>
    by_cases same : l = loc
    · rw [same, there]
    · exact opens l prefixed same
  next => rfl

theorem Paved.of_put (sound : t.Sound) (named : loc.Named) (opens : t.Opens loc)
    (missing : t.entry? loc = none) : Paved t (t.put loc .directory) loc := by
  have inner : loc ≠ [] := by
    rintro rfl
    cases missing
  refine ⟨sound.put inner named opens fun _ => rfl, fun l => ?_⟩
  rw [entry?_put inner]
  by_cases here : l = loc
  · rw [if_pos here, if_pos (here ▸ List.prefix_refl l)]
  · rw [if_neg here]
    split
    next prefixed => exact opens l prefixed here
    next => rfl

/-- A further directory in a tree that has those above it already: taken together, both changes pave the longer way.
-/
theorem Paved.trans {t'' : FileTree} (first : Paved t t' above) (second : Paved t' t'' loc) (prefixed : above <+: loc) :
    Paved t t'' loc := by
  refine ⟨second.sound, fun l => ?_⟩
  rw [second.entries]
  split
  next => rfl
  next other => rw [first.entries, if_neg fun higher => other (higher.trans prefixed)]

theorem Paved.clear_iff (paved : Paved t t' above) (clear : t.Clear above) : t'.Clear loc ↔ t.Clear loc := by
  have same {l : Location} {bytes : List UInt8} : t'.entry? l = some (.file bytes) ↔ t.entry? l = some (.file bytes) := by
    rw [paved.entries]
    split
    next higher => exact ⟨nofun, fun file => absurd file (clear l bytes higher)⟩
    next => rfl
  exact forall₃_congr fun l bytes _ => not_congr same

/-- What making a directory with all those above it comes to: it succeeds exactly if the system takes the
path and there is no file in the way, and then the directories are there. -/
structure Paves (t : FileTree) (loc : Location) (outcome : Except FileError Unit × FileTree) : Prop where
  effect : outcome.1 = .ok () → loc.Fits ∧ t.Clear loc ∧ Paved t outcome.2 loc
  possible : loc.Fits → t.Clear loc → outcome.1 = .ok ()

theorem paves_made (sound : t.Sound) (named : loc.Named) (made : t.makeDirectory here (.ofLocation loc) = .ok t') :
    Paves t loc (.ok (), t') := by
  obtain ⟨fits, opens, missing, rfl⟩ := (makeDirectory_ok_iff named).mp made
  refine ⟨fun _ => ⟨fits, clear_of_directories fun l prefixed => ?_, .of_put sound named opens missing⟩,
    fun _ _ => rfl⟩
  by_cases here : l = loc
  · exact .inr (here ▸ missing)
  · exact .inl (opens l prefixed here)

/-- A directory that cannot be made is there already, or something is in the way. Then the attempt counts as a success
exactly if it is a directory. -/
theorem paves_failed {error : FileError} (sound : t.Sound) (named : loc.Named)
    (failed : t.makeDirectory here (.ofLocation loc) = .error error) (other : error = .notFound → t.Opens loc) :
    Paves t loc (if t.isDirectory here (.ofLocation loc) then .ok () else .error error, t) := by
  split
  next there =>
    obtain ⟨fits, opens, directory⟩ := (isDirectory_iff named).mp there
    have paved := Paved.of_directory sound opens directory
    refine ⟨fun _ => ⟨fits, clear_of_directories fun l prefixed => .inl ?_, paved⟩, fun _ _ => rfl⟩
    rw [paved.entries, if_pos prefixed]
  next absent =>
    refine ⟨nofun, fun fits clear => ?_⟩
    have opens : t.Opens loc := by
      by_contra closed
      rw [makeDirectory_notFound named fits clear closed] at failed
      cases failed
      exact closed (other rfl)
    cases found : t.entry? loc with
    | none =>
      rw [(makeDirectory_ok_iff named).mpr ⟨fits, opens, found, rfl⟩] at failed
      cases failed
    | some e =>
      cases e with
      | file bytes => exact absurd found (clear loc bytes (List.prefix_refl loc))
      | directory => exact absurd ((isDirectory_iff named).mpr ⟨fits, opens, found⟩) absent

theorem paves_again (named : (above ++ [name]).Named) (clear : t.Clear above) (paved : Paved t t' above) :
    Paves t (above ++ [name])
      (match t'.makeDirectory here (.ofLocation (above ++ [name])) with
      | .ok made => (.ok (), made)
      | .error e => (if t'.isDirectory here (.ofLocation (above ++ [name])) then .ok () else .error e, t')) := by
  have opens : t'.Opens (above ++ [name]) := opens_concat_iff.mpr fun l higher => by
    rw [paved.entries, if_pos higher]
  have later : Paves t' (above ++ [name])
      (match t'.makeDirectory here (.ofLocation (above ++ [name])) with
      | .ok made => (.ok (), made)
      | .error e => (if t'.isDirectory here (.ofLocation (above ++ [name])) then .ok () else .error e, t')) := by
    split
    next made making => exact paves_made paved.sound named making
    next e making => exact paves_failed paved.sound named making fun _ => opens
  refine ⟨fun succeeded => ?_, fun fits free => later.possible fits ((paved.clear_iff clear).mpr free)⟩
  obtain ⟨fits, free, paved'⟩ := later.effect succeeded
  exact ⟨fits, (paved.clear_iff clear).mp free, paved.trans paved' (List.prefix_append ..)⟩

/-- Making a directory with all those above it paves the way. As many attempts as the location has names are enough,
since every one of them is made a name further up. -/
theorem paves_makeDirectories {fuel : Nat} (sound : t.Sound) (named : loc.Named) (enough : loc.length < fuel) :
    Paves t loc (makeDirectories here fuel t (.ofLocation loc)) := by
  induction fuel generalizing loc with
  | zero => omega
  | succ fuel ih =>
    rw [makeDirectories, if_neg (Path.text_ofLocation_ne loc)]
    split
    next made making => exact paves_made sound named making
    next making =>
      rcases List.eq_nil_or_concat loc with rfl | ⟨above, name, rfl⟩
      · cases making
      rw [List.concat_eq_append] at named enough ⊢
      rw [List.length_append, List.length_singleton] at enough
      have recursed := ih (Location.named_concat.mp named).1 (by omega)
      have prefixed : above <+: above ++ [name] := List.prefix_append ..
      rw [Path.parent?_ofLocation named]
      dsimp only
      split
      next e t' ran =>
        rw [ran] at recursed
        refine ⟨nofun, fun fits clear => ?_⟩
        exact absurd (recursed.possible (fits.of_prefix named prefixed) (clear.of_prefix prefixed)) nofun
      next t' ran =>
        rw [ran] at recursed
        obtain ⟨_, clear, paved⟩ := recursed.effect rfl
        exact paves_again named clear paved
    next e other making => exact paves_failed sound named making fun missing => absurd missing other

end FileTree

end Templating
