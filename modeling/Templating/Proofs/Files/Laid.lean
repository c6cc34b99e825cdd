import Templating.Proofs.Files.Changes

namespace Templating.FileTree

variable {t t' t'' : FileTree} {content : Location → List UInt8} {targets done : List Location} {loc above l : Location}
  {name : String} {bytes : List UInt8}

/-- A file can be written at the location, once the directories above it are made. -/
structure Receives (t : FileTree) (loc : Location) : Prop where
  fits : loc.Fits
  clear : ∀ above bytes, above <+: loc → above ≠ loc → t.entry? above ≠ some (.file bytes)
  free : t.entry? loc ≠ some .directory

/-- The tree with a file at a location and the directories above it. -/
structure Placed (t t' : FileTree) (loc : Location) (bytes : List UInt8) : Prop where
  sound : t'.Sound
  entries : ∀ l, t'.entry? l =
    if l = loc then some (.file bytes) else if l <+: loc then some .directory else t.entry? l

/-- A file can be written behind a directory exactly if the system takes its path, no file is in the way of the
directory and none is in the place of the file. -/
theorem receives_concat_iff :
    t.Receives (above ++ [name]) ↔
      Location.Fits (above ++ [name]) ∧ t.Clear above ∧ t.entry? (above ++ [name]) ≠ some .directory := by
  have strict (l : Location) : l <+: above ++ [name] ∧ l ≠ above ++ [name] ↔ l <+: above := by
    rw [List.prefix_concat_iff]
    refine ⟨fun both => both.1.resolve_left both.2, fun higher => ⟨.inr higher, fun same => ?_⟩⟩
    have length := higher.length_le
    rw [same, List.length_append, List.length_singleton] at length
    omega
  constructor
  · rintro ⟨fits, clear, free⟩
    exact ⟨fits, fun l bytes higher => clear l bytes ((strict l).mpr higher).1 ((strict l).mpr higher).2, free⟩
  · rintro ⟨fits, clear, free⟩
    exact ⟨fits, fun l bytes prefixed other => clear l bytes ((strict l).mp ⟨prefixed, other⟩), free⟩

theorem Paved.entry?_below (paved : Paved t t' above) : t'.entry? (above ++ [name]) = t.entry? (above ++ [name]) := by
  rw [paved.entries, if_neg fun longer => ?_]
  have length := longer.length_le
  rw [List.length_append, List.length_singleton] at length
  omega

/-- Once the way to it is paved, a file that is written is all that comes in addition. -/
theorem Paved.placed (paved : Paved t t' above) (named : (above ++ [name]).Named)
    (free : t.entry? (above ++ [name]) ≠ some .directory) :
    Placed t (t'.put (above ++ [name]) (.file bytes)) (above ++ [name]) bytes := by
  have inner : above ++ [name] ≠ [] := by simp
  have opens : t'.Opens (above ++ [name]) := opens_concat_iff.mpr fun l higher => by
    rw [paved.entries, if_pos higher]
  have keeps : t'.entry? (above ++ [name]) = some .directory → Entry.file bytes = .directory := by
    rw [paved.entry?_below]
    exact fun there => absurd there free
  refine ⟨paved.sound.put inner named opens keeps, fun l => ?_⟩
  rw [entry?_put inner, paved.entries]
  by_cases here : l = above ++ [name]
  · rw [if_pos here, if_pos here]
  · rw [if_neg here, if_neg here]
    by_cases higher : l <+: above
    · rw [if_pos higher, if_pos (higher.trans (List.prefix_append ..))]
    · rw [if_neg higher, if_neg fun prefixed => (List.prefix_concat_iff.mp prefixed).elim here higher]

/-- What is at a location once files are written at some targets. -/
def laid (t : FileTree) (content : Location → List UInt8) (done : List Location) (l : Location) : Option Entry :=
  if l ∈ done then some (.file (content l))
  else if ∃ loc ∈ done, l <+: loc then some .directory else t.entry? l

/-- A tree with files written at some targets, with the directories above them, in order and otherwise as before. The
order in which they came is left open. -/
structure Laid (t t' : FileTree) (content : Location → List UInt8) (done : List Location) : Prop where
  sound : t'.Sound
  entries : ∀ l, t'.entry? l = t.laid content done l

/-- No target stands above another. -/
def Apart (targets : List Location) : Prop := ∀ a ∈ targets, ∀ b ∈ targets, a <+: b → a = b

theorem Laid.start (sound : t.Sound) (content : Location → List UInt8) : Laid t t content [] := by
  refine ⟨sound, fun l => ?_⟩
  rw [laid, if_neg List.not_mem_nil, if_neg (by simp)]

/-- The order of the targets, and how often each of them comes, plays no part. -/
theorem laid_congr (same : ∀ l, l ∈ done ↔ l ∈ targets) : t.laid content done = t.laid content targets := by
  funext l
  simp only [laid, same]

/-- A file that is written next is laid with the others, if it stands neither above nor below one of them. -/
theorem Laid.place (laid : Laid t t' content done) (apart : Apart (loc :: done))
    (placed : Placed t' t'' loc (content loc)) : Laid t t'' content (loc :: done) := by
  refine ⟨placed.sound, fun l => ?_⟩
  rw [placed.entries, laid.entries, FileTree.laid, FileTree.laid]
  by_cases here : l = loc
  · rw [if_pos here, here, if_pos List.mem_cons_self]
  rw [if_neg here]
  by_cases before : l ∈ done
  · have beside : ¬l <+: loc := fun prefixed =>
      here (apart l (List.mem_cons_of_mem _ before) loc List.mem_cons_self prefixed)
    rw [if_neg beside, if_pos before, if_pos (List.mem_cons_of_mem _ before)]
  have new : l ∉ loc :: done := fun member => (List.mem_cons.mp member).elim here before
  rw [if_neg before, if_neg new]
  by_cases prefixed : l <+: loc
  · rw [if_pos prefixed, if_pos ⟨loc, List.mem_cons_self, prefixed⟩]
  · have shared : (∃ g ∈ loc :: done, l <+: g) ↔ ∃ g ∈ done, l <+: g := by
      rw [List.exists_mem_cons_iff, or_iff_right prefixed]
    rw [if_neg prefixed]
    by_cases higher : ∃ g ∈ done, l <+: g
    · rw [if_pos higher, if_pos (shared.mpr higher)]
    · rw [if_neg higher, if_neg (mt shared.mp higher)]

theorem Laid.entry?_target (laid : Laid t t' content done) (member : l ∈ done) :
    t'.entry? l = some (.file (content l)) := by
  rw [laid.entries, FileTree.laid, if_pos member]

theorem Laid.entry?_above (laid : Laid t t' content done) (apart : Apart done) (member : loc ∈ done)
    (higher : l <+: loc) (other : l ≠ loc) : t'.entry? l = some .directory := by
  have new : l ∉ done := fun before => other (apart l before loc member higher)
  rw [laid.entries, FileTree.laid, if_neg new, if_pos ⟨loc, member, higher⟩]

theorem Laid.entry?_elsewhere (laid : Laid t t' content done) (outside : ∀ loc ∈ done, ¬l <+: loc) :
    t'.entry? l = t.entry? l := by
  have new : l ∉ done := fun member => outside l member (List.prefix_refl l)
  have aside : ¬∃ loc ∈ done, l <+: loc := fun ⟨loc, member, higher⟩ => outside loc member higher
  rw [laid.entries, FileTree.laid, if_neg new, if_neg aside]

section Reading
variable (laid : Laid t t' content done) (receives : ∀ loc ∈ done, t.Receives loc)
include laid receives

theorem Laid.file_iff (other : l ∉ done) : t'.entry? l = some (.file bytes) ↔ t.entry? l = some (.file bytes) := by
  rw [laid.entries, FileTree.laid, if_neg other]
  split
  next higher =>
    obtain ⟨loc, member, prefixed⟩ := higher
    have same : l ≠ loc := fun same => other (same ▸ member)
    exact ⟨nofun, fun file => absurd file ((receives loc member).clear l bytes prefixed same)⟩
  next => rfl

/-- What can be written at the beginning can be written all along, and nothing else: files that stand apart are in no
other file's way. -/
theorem Laid.receives_iff (apart : Apart (loc :: done)) : t'.Receives loc ↔ t.Receives loc := by
  have beside {l : Location} (prefixed : l <+: loc) (above : l ≠ loc) : l ∉ done := fun member =>
    above (apart l (List.mem_cons_of_mem _ member) loc List.mem_cons_self prefixed)
  have directory : t'.entry? loc = some .directory ↔ t.entry? loc = some .directory := by
    rw [laid.entries, FileTree.laid]
    by_cases here : loc ∈ done
    · rw [if_pos here]
      exact ⟨nofun, fun there => absurd there (receives loc here).free⟩
    · have outside : ¬∃ g ∈ done, loc <+: g := fun ⟨g, member, prefixed⟩ =>
        here (apart loc List.mem_cons_self g (List.mem_cons_of_mem _ member) prefixed ▸ member)
      rw [if_neg here, if_neg outside]
  constructor
  · rintro ⟨fits, clear, free⟩
    refine ⟨fits, fun l bytes prefixed other => ?_, mt directory.mpr free⟩
    exact mt (laid.file_iff receives (beside prefixed other)).mpr (clear l bytes prefixed other)
  · rintro ⟨fits, clear, free⟩
    refine ⟨fits, fun l bytes prefixed other => ?_, mt directory.mp free⟩
    exact mt (laid.file_iff receives (beside prefixed other)).mp (clear l bytes prefixed other)

end Reading

end Templating.FileTree
