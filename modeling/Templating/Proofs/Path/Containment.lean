import Templating.Proofs.Path.Join

namespace Templating.Path

variable {p root : Path} {n m : Nat} {names : List String}

/-- From every working directory the path leads where `root` leads, followed by the same names. This is what it is to
lie inside a directory, with nothing said about how the paths are written. -/
def LiesIn (p root : Path) : Prop :=
  ∃ names : List String, (∀ name ∈ names, IsName name) ∧
    ∀ cwd : List String, (∀ name ∈ cwd, IsName name) → p.location cwd = root.location cwd ++ names

/-- The path climbs `n` steps from every working directory, as far as there are any, and then goes down. -/
def Climbs (p : Path) (n : Nat) (names : List String) : Prop :=
  ∀ cwd : List String, (∀ name ∈ cwd, IsName name) → p.location cwd = cwd.take (cwd.length - n) ++ names

/-- The path leads out of a root directory that only climbs: it climbs further, or it does not start from the
working directory at all. -/
inductive Missed (p root : Path) : Prop
  | above (n m : Nat) (names : List String) (climbs : root.Climbs n []) (further : p.Climbs m names) (less : n < m)
  | rooted (climbs : root.Climbs 0 []) (rooted : p.isRooted = true)

theorem location_eq_foldl (p : Path) (cwd : List String) :
    p.location cwd = p.normalize.components.foldl Component.walk cwd :=
  (location_normalize p cwd).symm

theorem Canonical.append_names {cs : List Component} (canonical : Canonical cs) (names : List String) :
    Canonical (cs ++ names.map .name) := by
  cases canonical with
  | rooted above =>
    rw [List.cons_append, ← List.map_append]
    exact .rooted (above ++ names)
  | climbing n above =>
    rw [List.append_assoc, ← List.map_append]
    exact .climbing n (above ++ names)

/-- A path lies inside a root directory exactly if its canonical form is that of the root directory, followed by
names. -/
theorem liesIn_iff :
    p.LiesIn root ↔ ∃ names : List String, p.normalize.components = root.normalize.components ++ names.map .name := by
  have behind (names cwd : List String) :
      (root.normalize.components ++ names.map Component.name).foldl Component.walk cwd = root.location cwd ++ names := by
    rw [List.foldl_append, ← location_eq_foldl, foldl_walk_names]
  constructor
  · rintro ⟨names, _, leads⟩
    refine ⟨names, (canonical_normalize p).eq_of_walk ((canonical_normalize root).append_names names) fun depth => ?_⟩
    rw [← location_eq_foldl, behind, leads _ isName_of_mem_deep]
  · rintro ⟨names, same⟩
    refine ⟨names, fun name member => ?_, fun cwd _ => by rw [location_eq_foldl, same, behind]⟩
    have settled := settled_collapse_components p
    rw [← components_normalize, same, List.reverse_append] at settled
    have inside : Component.name name ∈ (names.map Component.name).reverse :=
      List.mem_reverse.mpr (List.mem_map_of_mem member)
    obtain ⟨before, after, split⟩ := List.append_of_mem inside
    rw [split, List.append_assoc] at settled
    exact settled.of_append.1

/-- A path climbs some steps exactly if its canonical form starts with as many `..` and goes on with names. -/
theorem climbs_iff :
    p.Climbs n names ↔ p.normalize.components = List.replicate n .parent ++ names.map .name := by
  constructor
  · intro climbs
    refine (canonical_normalize p).eq_of_walk (.climbing n names) fun depth => ?_
    rw [← location_eq_foldl, climbs _ isName_of_mem_deep, foldl_walk_climbing]
  · intro same cwd _
    rw [location_eq_foldl, same, foldl_walk_climbing]

/-- A beginning of canonical components is followed by names, unless it is made of climbs alone and more climbs
follow, or the root follows nothing at all. -/
theorem Canonical.names_or_climbs {above rest : List Component} (whole : Canonical (above ++ rest)) :
    (∃ names : List String, rest = names.map .name) ∨
      ∃ n, above = List.replicate n .parent ∧ (n = 0 ∧ Component.root ∈ rest ∨
        ∃ m, ∃ names : List String, n < m ∧ above ++ rest = List.replicate m .parent ++ names.map .name) := by
  generalize cs : above ++ rest = parts at whole
  cases whole with
  | rooted names =>
    cases above with
    | nil => exact .inr ⟨0, rfl, .inl ⟨rfl, by rw [← List.nil_append rest, cs]; exact List.mem_cons_self⟩⟩
    | cons first above =>
      obtain ⟨_, below, _, _, same⟩ := List.map_eq_append_iff.mp (List.cons.inj cs).2.symm
      exact .inl ⟨below, same.symm⟩
  | climbing m names =>
    rcases List.append_eq_append_iff.mp cs with ⟨more, climbs, behind⟩ | ⟨front, split, behind⟩
    · obtain ⟨length, first, _⟩ := List.append_eq_replicate_iff.mp climbs.symm
      cases more with
      | nil => exact .inl ⟨names, behind⟩
      | cons next more =>
        rw [List.length_cons] at length
        exact .inr ⟨above.length, first, .inr ⟨m, names, by omega, rfl⟩⟩
    · obtain ⟨_, below, _, _, same⟩ := List.map_eq_append_iff.mp behind
      exact .inl ⟨below, same.symm⟩

/-- A path that climbs further than the root directory does not lie inside it: from far down, every further step leads
out. -/
theorem Missed.not_liesIn (missed : p.Missed root) : ¬p.LiesIn root := by
  intro inside
  cases missed with
  | above n m names climbs further less =>
    obtain ⟨below, _, leads⟩ := inside
    have atRoot := leads (deep 0) isName_of_mem_deep
    have farDown := congrArg List.length (leads (deep m) isName_of_mem_deep)
    rw [further _ isName_of_mem_deep, climbs _ isName_of_mem_deep] at atRoot farDown
    have same := congrArg List.length atRoot
    simp only [List.length_append, List.length_take, length_deep, List.length_nil] at same farDown
    omega
  | rooted climbs rooted =>
    obtain ⟨below, behind⟩ := liesIn_iff.mp inside
    have starts : Component.root ∈ p.normalize.components := by rwa [← isRooted_iff_mem, isRooted_normalize]
    rw [behind, climbs_iff.mp climbs] at starts
    simp at starts

theorem not_climbs_of_isRooted (rooted : root.isRooted = true) : ¬root.Climbs n names := by
  rw [← isRooted_normalize, isRooted_iff_mem] at rooted
  intro climbs
  rw [climbs_iff.mp climbs, List.mem_append] at rooted
  rcases rooted with climb | name
  · cases List.eq_of_mem_replicate climb
  · obtain ⟨_, _, same⟩ := List.mem_map.mp name
    cases same

theorem Missed.climbs (missed : p.Missed root) : ∃ n, root.Climbs n [] := by
  cases missed with
  | above n m names climbs further less => exact ⟨n, climbs⟩
  | rooted climbs rooted => exact ⟨0, climbs⟩

/-- The comparison of canonical forms takes such a path for one inside, since the climbs of the root directory are a
beginning of its own. -/
theorem Missed.isPrefix (missed : p.Missed root) : root.normalize.components <+: p.normalize.components := by
  cases missed with
  | above n m names climbs further less =>
    obtain ⟨more, rfl⟩ := Nat.le.dest (Nat.le_of_lt less)
    rw [climbs_iff.mp climbs, climbs_iff.mp further, List.map_nil, List.append_nil, List.replicate_add,
      List.append_assoc]
    exact List.prefix_append ..
  | rooted climbs rooted =>
    rw [climbs_iff.mp climbs]
    exact List.nil_prefix

theorem liesIn_or_missed (begins : root.normalize.components <+: p.normalize.components) :
    p.LiesIn root ∨ p.Missed root := by
  obtain ⟨rest, whole⟩ := begins
  have canonical := canonical_normalize p
  rw [← whole] at canonical
  refine canonical.names_or_climbs.imp (fun ⟨names, below⟩ => liesIn_iff.mpr ⟨names, by rw [← whole, below]⟩) ?_
  rintro ⟨n, climbs, ⟨rfl, starts⟩ | ⟨m, names, less, further⟩⟩
  · have rooted : Component.root ∈ p.normalize.components := whole ▸ List.mem_append_right _ starts
    rw [← isRooted_iff_mem, isRooted_normalize] at rooted
    exact .rooted (climbs_iff.mpr (climbs.trans (List.append_nil _).symm)) rooted
  · exact .above n m names (climbs_iff.mpr (climbs.trans (List.append_nil _).symm)) (climbs_iff.mpr (whole.symm.trans further))
      less

/-- The test answers that a path is inside exactly for those that lie inside and those that climb further than a root
directory made of climbs. -/
theorem isOutside_eq_false_iff : p.isOutside root = false ↔ p.LiesIn root ∨ p.Missed root := by
  rw [isOutside, Bool.not_eq_false', startsWith, List.isPrefixOf_iff_prefix]
  refine ⟨liesIn_or_missed, ?_⟩
  rintro (inside | missed)
  · obtain ⟨names, behind⟩ := liesIn_iff.mp inside
    exact ⟨_, behind.symm⟩
  · exact missed.isPrefix

/-- Whether a path lies inside a root directory is found out in every case but one: a root directory that only
climbs has paths that lead out of it, and those are taken for paths inside. -/
theorem isOutside_exact (p root : Path) :
    (p.isOutside root = false ↔ p.LiesIn root ∨ p.Missed root) ∧ ¬(p.LiesIn root ∧ p.Missed root) ∧
      (root.isRooted = true ∨ (∀ n, ¬root.Climbs n []) → (p.isOutside root = false ↔ p.LiesIn root)) := by
  refine ⟨isOutside_eq_false_iff, fun both => both.2.not_liesIn both.1, fun down => ?_⟩
  have decided : ¬p.Missed root := by
    intro missed
    obtain ⟨n, climbs⟩ := missed.climbs
    exact down.elim (not_climbs_of_isRooted · climbs) (· n climbs)
  rw [isOutside_eq_false_iff, or_iff_left decided]

/-- The directory above the working directory is not inside it, but is not found to be outside. -/
theorem isOutside_parent_eq_false :
    (⟨".."⟩ : Path).isOutside ⟨""⟩ = false ∧ ¬(⟨".."⟩ : Path).LiesIn ⟨""⟩ := by
  have missed : (⟨".."⟩ : Path).Missed ⟨""⟩ :=
    .above 0 1 [] (climbs_iff.mpr (by decide +kernel)) (climbs_iff.mpr (by decide +kernel)) Nat.one_pos
  exact ⟨isOutside_eq_false_iff.mpr (.inr missed), missed.not_liesIn⟩

end Templating.Path
