import Templating.Proofs.Path.Places

namespace Templating

/-- The path of the location is one that the system takes. -/
structure Location.Fits (loc : Location) : Prop where
  short : (Path.ofLocation loc).text.utf8ByteSize ≤ FileTree.longestPath
  plain : '\x00' ∉ (Path.ofLocation loc).text.toList
  names : ∀ name ∈ loc, name.utf8ByteSize ≤ FileTree.longestName

/-- The path of a directory above is shorter, so that the system takes it, too. -/
theorem Location.Fits.of_prefix {loc above : Location} (fits : loc.Fits) (named : loc.Named) (prefixed : above <+: loc) :
    above.Fits := by
  obtain ⟨below, rfl⟩ := prefixed
  by_cases same : below = []
  · subst same
    rwa [List.append_nil] at fits
  obtain ⟨namedAbove, namedBelow⟩ := Location.named_append.mp named
  have joined := congrArg Path.text (Path.join_relative namedAbove namedBelow same)
  have size := congrArg String.utf8ByteSize joined
  have whole : ∃ rest, (Path.ofLocation (above ++ below)).text = (Path.ofLocation above).text ++ rest := by
    rw [← joined, Path.join, Path.isRooted_relative namedBelow same, if_neg Bool.false_ne_true]
    split
    · exact ⟨_, rfl⟩
    · exact ⟨_, String.append_assoc⟩
  obtain ⟨rest, text⟩ := whole
  have short := fits.short
  have plain := fits.plain
  rw [text, String.utf8ByteSize_append] at short
  rw [text, String.toList_append, List.mem_append] at plain
  exact ⟨Nat.le_trans (Nat.le_add_right _ _) short, fun nul => plain (.inl nul),
    fun name member => fits.names name (List.mem_append_left _ member)⟩

theorem Location.fits_root : Location.Fits [] :=
  ⟨by decide, by decide, fun name member => absurd member List.not_mem_nil⟩

namespace FileTree
variable {t : FileTree} {loc above l : Location} {e : Entry}

/-- Whatever stands above a location is a directory. -/
def Opens (t : FileTree) (loc : Location) : Prop :=
  ∀ above, above <+: loc → above ≠ loc → t.entry? above = some .directory

/-- A tree that is in order: every entry is listed once, has names that can stand in a path, and lies in a directory.
-/
structure Sound (t : FileTree) : Prop where
  once : (t.entries.map Prod.fst).Nodup
  named : ∀ {loc e}, t.entry? loc = some e → loc.Named
  opens : ∀ {loc e}, t.entry? loc = some e → t.Opens loc

@[simp] theorem entry?_root (t : FileTree) : t.entry? [] = some .directory := if_pos rfl

theorem entry?_of_ne (inner : loc ≠ []) : t.entry? loc = t.entries.lookup loc := if_neg inner

theorem sound_empty : empty.Sound := by
  have root {loc : Location} {e : Entry} (found : empty.entry? loc = some e) : loc = [] := by
    by_contra inner
    rw [entry?_of_ne inner] at found
    cases found
  refine ⟨List.nodup_nil, ?_, ?_⟩
  · intro loc e found
    rw [root found]
    exact fun name member => absurd member List.not_mem_nil
  · intro loc e found above prefixed other
    rw [root found] at prefixed other
    exact absurd (List.prefix_nil.mp prefixed) other

theorem mem_of_entry? (inner : loc ≠ []) (found : t.entry? loc = some e) : (loc, e) ∈ t.entries := by
  rw [entry?_of_ne inner] at found
  obtain ⟨before, after, split, _⟩ := List.lookup_eq_some_iff.mp found
  rw [split]
  exact List.mem_append_right _ List.mem_cons_self

/-- In a tree that lists every entry once, what is listed is what is found. -/
theorem mem_entries_iff (once : (t.entries.map Prod.fst).Nodup) (inner : loc ≠ []) :
    (loc, e) ∈ t.entries ↔ t.entry? loc = some e := by
  refine ⟨fun member => ?_, mem_of_entry? inner⟩
  obtain ⟨before, after, split⟩ := List.append_of_mem member
  rw [split, List.map_append, List.map_cons, List.nodup_append] at once
  rw [entry?_of_ne inner, List.lookup_eq_some_iff]
  refine ⟨before, after, split, fun entry earlier => bne_iff_ne.mpr fun same => ?_⟩
  exact once.2.2 entry.1 (List.mem_map_of_mem earlier) loc List.mem_cons_self same.symm

theorem lookup_filter_ne {entries : List (Location × Entry)} (other : l ≠ loc) :
    (entries.filter (·.1 != loc)).lookup l = entries.lookup l := by
  induction entries with
  | nil => rfl
  | cons entry entries ih =>
    obtain ⟨place, e⟩ := entry
    by_cases here : place = loc
    · have apart : (l == place) = false := beq_eq_false_iff_ne.mpr (here ▸ other)
      rw [List.filter_cons_of_neg (by simpa using here), ih, List.lookup_cons, apart]
    · rw [List.filter_cons_of_pos (by simpa using here), List.lookup_cons, List.lookup_cons, ih]

theorem entry?_put (inner : loc ≠ []) (e : Entry) (l : Location) :
    entry? (t.put loc e) l = if l = loc then some e else t.entry? l := by
  by_cases root : l = []
  · subst root
    rw [entry?_root, entry?_root, if_neg inner.symm]
  rw [entry?_of_ne root, entry?_of_ne root, put]
  split
  next here =>
    subst here
    exact List.lookup_cons_self
  next other =>
    have apart : (l == loc) = false := beq_eq_false_iff_ne.mpr other
    rw [List.lookup_cons, apart]
    exact lookup_filter_ne other

theorem nodup_put (once : (t.entries.map Prod.fst).Nodup) (loc : Location) (e : Entry) :
    ((t.put loc e).entries.map Prod.fst).Nodup := by
  have kept : ((t.entries.filter (·.1 != loc)).map Prod.fst).Nodup :=
    once.sublist (List.filter_sublist.map Prod.fst)
  refine List.nodup_cons.mpr ⟨fun member => ?_, kept⟩
  obtain ⟨entry, inside, same⟩ := List.mem_map.mp member
  have other := (List.mem_filter.mp inside).2
  rw [same] at other
  exact absurd other (by simp)

/-- An entry may be put where the directory is there, but a file not in place of a directory. -/
theorem Sound.put (sound : t.Sound) (inner : loc ≠ []) (named : loc.Named) (opens : t.Opens loc)
    (keeps : t.entry? loc = some .directory → e = .directory) : (t.put loc e).Sound := by
  have entries := entry?_put (t := t) inner e
  refine ⟨nodup_put sound.once loc e, ?_, ?_⟩
  · intro l e' found
    rw [entries] at found
    split at found
    next here => exact here ▸ named
    next => exact sound.named found
  · intro l e' found above prefixed other
    have before : t.entry? above = some .directory := by
      rw [entries] at found
      split at found
      next here =>
        subst here
        exact opens above prefixed other
      next => exact sound.opens found above prefixed other
    rw [entries]
    split
    next here => rw [keeps (here ▸ before)]
    next => exact before

theorem Sound.not_file_above {bytes : List UInt8} (sound : t.Sound) (found : t.entry? loc = some e)
    (prefixed : above <+: loc) (other : above ≠ loc) : t.entry? above ≠ some (.file bytes) := by
  rw [sound.opens found above prefixed other]
  exact fun same => nomatch same

end FileTree

end Templating
