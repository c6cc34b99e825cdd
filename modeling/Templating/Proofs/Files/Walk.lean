import Templating.Proofs.Files.Access

namespace Templating

namespace FileTree
variable {t : FileTree} {loc top below : Location} {e : Entry} {fault? : Option FileError}

/-- The listing of a directory can be read exactly if something is there and the system takes its path. -/
theorem Sound.unread?_eq_none_iff (sound : t.Sound) (named : loc.Named) :
    t.unread? loc = none ↔ loc.Fits ∧ ∃ e, t.entry? loc = some e := by
  unfold unread?
  constructor
  · intro read
    split at read
    next found there =>
      obtain ⟨l, e⟩ := found
      obtain ⟨_, fits, there⟩ := (sound.find_ok_iff named).mp there
      exact ⟨fits, e, there⟩
    next => cases read
  · rintro ⟨fits, e, there⟩
    rw [(sound.find_ok_iff named).mpr ⟨rfl, fits, there⟩]

/-- An entry is visited if it lies below the top of the walk, the directory it lies in can be read, and it is a file
or cannot be entered. -/
theorem visit?_eq_some_iff :
    t.visit? top (loc, e) = some (below, fault?) ↔
      loc = top ++ below ∧ below ≠ [] ∧ t.unread? loc.dropLast = none ∧ t.stop? loc e = some fault? := by
  unfold visit?
  constructor
  · intro found
    dsimp only at found
    split at found
    next inside =>
      obtain ⟨stop, stopped, same⟩ := Option.map_eq_some_iff.mp found
      cases same
      obtain ⟨prefixed, inner, read⟩ := inside
      obtain ⟨rest, rfl⟩ := List.isPrefixOf_iff_prefix.mp prefixed
      rw [List.drop_left]
      exact ⟨rfl, fun nothing => inner (by rw [nothing, List.append_nil]), read, stopped⟩
    next => cases found
  · rintro ⟨rfl, inner, read, stopped⟩
    have inside : top.isPrefixOf (top ++ below) = true ∧ top ++ below ≠ top ∧ t.unread? (top ++ below).dropLast = none :=
      ⟨List.isPrefixOf_iff_prefix.mpr (List.prefix_append top below), by simpa using inner, read⟩
    dsimp only
    rw [if_pos inside, stopped, Option.map_some, List.drop_left]

theorem dropLast_ne (inner : loc ≠ []) : List.dropLast loc ≠ loc := by
  intro same
  have shorter := congrArg List.length same
  have long := List.length_pos_of_ne_nil inner
  rw [List.length_dropLast] at shorter
  omega

/-- A directory with something in it can be read exactly if the system takes its path. -/
theorem Sound.unread?_dropLast_iff (sound : t.Sound) (inner : loc ≠ []) (there : t.entry? loc = some e) :
    t.unread? loc.dropLast = none ↔ Location.Fits loc.dropLast := by
  have above := List.dropLast_prefix loc
  have named : Location.Named loc.dropLast := fun name member => sound.named there name (above.subset member)
  rw [sound.unread?_eq_none_iff named, and_iff_left]
  exact ⟨_, sound.opens there _ above (dropLast_ne inner)⟩

/-- A walk comes to the files below its top for which the system takes the path of their directory, if not their own,
and on any way down to the first directory that cannot be read. -/
theorem mem_visits (sound : t.Sound) :
    (below, fault?) ∈ t.visits top ↔
      below ≠ [] ∧ Location.Fits (top ++ below).dropLast ∧
        ∃ e, t.entry? (top ++ below) = some e ∧ t.stop? (top ++ below) e = some fault? := by
  rw [visits, List.mem_mergeSort, List.mem_filterMap]
  constructor
  · rintro ⟨⟨loc, e⟩, member, found⟩
    obtain ⟨rfl, inner, read, stopped⟩ := visit?_eq_some_iff.mp found
    have whole : top ++ below ≠ [] := List.append_ne_nil_of_right_ne_nil top inner
    have there := (mem_entries_iff sound.once whole).mp member
    exact ⟨inner, (sound.unread?_dropLast_iff whole there).mp read, e, there, stopped⟩
  · rintro ⟨inner, fits, e, there, stopped⟩
    have whole : top ++ below ≠ [] := List.append_ne_nil_of_right_ne_nil top inner
    have read := (sound.unread?_dropLast_iff whole there).mpr fits
    exact ⟨(top ++ below, e), mem_of_entry? whole there, visit?_eq_some_iff.mpr ⟨rfl, inner, read, stopped⟩⟩

/-- A walk stops at an entry exactly if that is a directory whose path the system does not take. Files do not stop it.
-/
theorem Sound.exists_stop?_iff (sound : t.Sound) (there : t.entry? loc = some e) :
    (∃ error, t.stop? loc e = some (some error)) ↔ e = .directory ∧ ¬loc.Fits := by
  cases e with
  | file bytes => exact iff_of_false (fun ⟨_, stopped⟩ => by cases stopped) (fun both => by cases both.1)
  | directory =>
    have read := sound.unread?_eq_none_iff (sound.named there)
    rw [and_iff_left ⟨_, there⟩] at read
    rw [← read, stop?]
    cases t.unread? loc with
    | none => simp
    | some error => simp

/-- A walk is stopped by a directory whose path the system does not take, if it takes that of the directory above. -/
theorem exists_fault_iff (sound : t.Sound) :
    (∃ error, (below, some error) ∈ t.visits top) ↔
      below ≠ [] ∧ Location.Fits (top ++ below).dropLast ∧ t.entry? (top ++ below) = some .directory ∧
        ¬Location.Fits (top ++ below) := by
  constructor
  · rintro ⟨error, listed⟩
    obtain ⟨inner, fits, e, there, stopped⟩ := (mem_visits sound).mp listed
    obtain ⟨rfl, long⟩ := (sound.exists_stop?_iff there).mp ⟨error, stopped⟩
    exact ⟨inner, fits, there, long⟩
  · rintro ⟨inner, fits, there, long⟩
    obtain ⟨error, stopped⟩ := (sound.exists_stop?_iff there).mpr ⟨rfl, long⟩
    exact ⟨error, (mem_visits sound).mpr ⟨inner, fits, _, there, stopped⟩⟩

theorem named_of_mem_visits (sound : t.Sound) (listed : (below, fault?) ∈ t.visits top) : below.Named ∧ below ≠ [] := by
  obtain ⟨inner, _, _, there, _⟩ := (mem_visits sound).mp listed
  exact ⟨(Location.named_append.mp (sound.named there)).2, inner⟩

/-- A file that the system takes lies in a directory that can be read, so that every walk from above comes to it. -/
theorem mem_visits_of_fits (sound : t.Sound) {bytes : List UInt8} (inner : below ≠ []) (fits : (top ++ below).Fits)
    (there : t.entry? (top ++ below) = some (.file bytes)) : (below, none) ∈ t.visits top :=
  (mem_visits sound).mpr
    ⟨inner, fits.of_prefix (sound.named there) (List.dropLast_prefix _), .file bytes, there, rfl⟩

theorem nodup_visits (sound : t.Sound) (top : Location) : ((t.visits top).map Prod.fst).Nodup := by
  have perm : (t.visits top).Perm (t.entries.filterMap (t.visit? top)) := List.mergeSort_perm _ _
  refine (perm.map Prod.fst).nodup_iff.mpr (List.pairwise_map.mpr ?_)
  refine List.Pairwise.filterMap _ ?_ (List.pairwise_map.mp sound.once)
  rintro ⟨loc, e⟩ ⟨loc', e'⟩ other ⟨below, fault?⟩ found ⟨below', fault?'⟩ found' same
  rw [visit?_eq_some_iff] at found found'
  cases same
  exact other (found.1.trans found'.1.symm)

end FileTree

end Templating
