import Templating.Proofs.Path.Canonical

namespace Templating.Path

/-- The place that a component leads to. Above the root there is the root. -/
def Component.walk (place : List String) : Component → List String
  | .root => []
  | .current => place
  | .parent => place.dropLast
  | .name text => place ++ [text]

/-- The place that a path leads to from a working directory. A place is the list of names that lead to it from the
root. -/
def location (p : Path) (cwd : List String) : List String := p.components.foldl Component.walk cwd

/-- The root or some `..`, and then names. -/
inductive Canonical : List Component → Prop
  | rooted (names : List String) : Canonical (.root :: names.map .name)
  | climbing (n : Nat) (names : List String) :
      Canonical (List.replicate n .parent ++ names.map .name)

theorem foldr_walk_collapseStep (done : List Component) (c : Component) (cwd : List String) :
    (collapseStep done c).foldr (fun c place => c.walk place) cwd =
      c.walk (done.foldr (fun c place => c.walk place) cwd) := by
  cases c with
  | root | current | name text => rfl
  | parent =>
    rcases done with _ | ⟨_ | _ | _ | text, below⟩
    · rfl
    · rfl
    · rfl
    · rfl
    · simp only [collapseStep, List.foldr_cons, Component.walk, List.dropLast_concat]

/-- Collapsing components does not change where they lead. A name and the `..` behind it cancel from everywhere,
because going down a name always succeeds. -/
theorem foldl_walk_collapse (cs : List Component) (cwd : List String) :
    (collapse cs).foldl Component.walk cwd = cs.foldl Component.walk cwd := by
  have steps (done : List Component) :
      (cs.foldl collapseStep done).foldr (fun c place => c.walk place) cwd =
        cs.foldl Component.walk (done.foldr (fun c place => c.walk place) cwd) := by
    induction cs generalizing done with
    | nil => rfl
    | cons c cs ih => rw [List.foldl_cons, ih, foldr_walk_collapseStep, List.foldl_cons]
  rw [collapse, List.foldl_reverse, steps, List.foldr_nil]

/-- The canonical form of a path leads where the path leads, from every working directory. -/
theorem location_normalize (p : Path) (cwd : List String) : p.normalize.location cwd = p.location cwd := by
  rw [location, components_normalize, foldl_walk_collapse, location]

theorem Settled.names_above {done : List Component} (settled : Settled done) :
    ∃ names : List String, done = names.map .name ++ [.root] ∨
      ∃ n, done = names.map .name ++ List.replicate n .parent := by
  induction done with
  | nil => exact ⟨[], .inr ⟨0, rfl⟩⟩
  | cons c below ih =>
    cases c with
    | root => exact ⟨[], .inl (congrArg _ settled)⟩
    | current => exact settled.elim
    | parent =>
      have climbs : below = List.replicate below.length .parent := List.eq_replicate_of_mem settled
      exact ⟨[], .inr ⟨below.length + 1, congrArg (Component.parent :: ·) climbs⟩⟩
    | name text =>
      obtain ⟨names, rooted | ⟨n, climbing⟩⟩ := ih settled.2
      · exact ⟨text :: names, .inl (congrArg (Component.name text :: ·) rooted)⟩
      · exact ⟨text :: names, .inr ⟨n, congrArg (Component.name text :: ·) climbing⟩⟩

theorem Settled.canonical {cs : List Component} (settled : Settled cs.reverse) : Canonical cs := by
  obtain ⟨names, rooted | ⟨n, climbing⟩⟩ := settled.names_above
  · rw [List.reverse_eq_iff.mp rooted, List.reverse_append, ← List.map_reverse]
    exact .rooted names.reverse
  · rw [List.reverse_eq_iff.mp climbing, List.reverse_append, ← List.map_reverse, List.reverse_replicate]
    exact .climbing n names.reverse

/-- The canonical form starts with the root or some `..`, and then only goes down. -/
theorem canonical_normalize (p : Path) : Canonical p.normalize.components := by
  rw [components_normalize]
  exact (settled_collapse_components p).canonical

theorem foldl_walk_names (names place : List String) :
    (names.map Component.name).foldl Component.walk place = place ++ names := by
  induction names generalizing place with
  | nil => rw [List.map_nil, List.foldl_nil, List.append_nil]
  | cons text names ih =>
    rw [List.map_cons, List.foldl_cons, ih, Component.walk, List.append_assoc, List.singleton_append]

theorem foldl_walk_climbs (n : Nat) (place : List String) :
    (List.replicate n Component.parent).foldl Component.walk place = place.take (place.length - n) := by
  induction n generalizing place with
  | zero => rw [List.replicate_zero, List.foldl_nil, Nat.sub_zero, List.take_length]
  | succ n ih =>
    rw [List.replicate_succ, List.foldl_cons, ih, Component.walk, List.dropLast_eq_take, List.take_take,
      List.length_take]
    congr 1
    omega

/-- Climbing drops names at the end of the working directory, as far as there are any, and the names come behind what
is left. -/
theorem foldl_walk_climbing (n : Nat) (names place : List String) :
    (List.replicate n Component.parent ++ names.map Component.name).foldl Component.walk place =
      place.take (place.length - n) ++ names := by
  rw [List.foldl_append, foldl_walk_climbs, foldl_walk_names]

theorem foldl_walk_rooted (names place : List String) :
    (Component.root :: names.map Component.name).foldl Component.walk place = names := by
  rw [List.foldl_cons, foldl_walk_names, Component.walk, List.nil_append]

/-- A working directory as deep as one likes. -/
def deep (n : Nat) : List String := List.replicate n "a"

@[simp] theorem length_deep (n : Nat) : (deep n).length = n := List.length_replicate

theorem isName_of_mem_deep {n : Nat} : ∀ name ∈ deep n, IsName name := by
  intro name member
  rw [List.eq_of_mem_replicate member]
  refine ⟨?_, ?_, ?_, ?_⟩ <;> decide

/-- No path from the root leads to the same places as a relative one: from far down the relative one leads to longer
places. -/
theorem rooted_ne_climbing (names names' : List String) (n : Nat)
    (same : ∀ depth, (Component.root :: names.map Component.name).foldl Component.walk (deep depth) =
      (List.replicate n Component.parent ++ names'.map Component.name).foldl Component.walk (deep depth)) :
    False := by
  simp only [foldl_walk_rooted, foldl_walk_climbing] at same
  have atRoot := congrArg List.length (same 0)
  have below := congrArg List.length (same (n + 1))
  simp only [List.length_append, List.length_take, length_deep] at atRoot below
  omega

-- From the root both lead to their names, and from deep down the names left tell how far they climb.
/-- Relative canonical components that lead to the same places climb equally far and then have the same names. Two
working directories that are deep enough tell them apart. -/
theorem climbing_inj {names names' : List String} {n n' : Nat}
    (same : ∀ depth,
      (List.replicate n Component.parent ++ names.map Component.name).foldl Component.walk (deep depth) =
        (List.replicate n' Component.parent ++ names'.map Component.name).foldl Component.walk (deep depth)) :
    n = n' ∧ names = names' := by
  simp only [foldl_walk_climbing] at same
  have atRoot : names = names' := by simpa only [deep, List.replicate_zero, List.take_nil, List.nil_append] using same 0
  have below := congrArg List.length (same (n + n'))
  simp only [atRoot, List.length_append, List.length_take, length_deep] at below
  exact ⟨by omega, atRoot⟩

/-- Canonical components that lead to the same place from directories of every depth are the same. -/
theorem Canonical.eq_of_walk {cs ds : List Component} (first : Canonical cs) (second : Canonical ds)
    (same : ∀ depth, cs.foldl Component.walk (deep depth) = ds.foldl Component.walk (deep depth)) :
    cs = ds := by
  cases first with
  | rooted names =>
    cases second with
    | rooted names' =>
      have atRoot := same 0
      rw [foldl_walk_rooted, foldl_walk_rooted] at atRoot
      rw [atRoot]
    | climbing n names' => exact (rooted_ne_climbing names names' n same).elim
  | climbing n names =>
    cases second with
    | rooted names' => exact (rooted_ne_climbing names' names n fun depth => (same depth).symm).elim
    | climbing n' names' =>
      obtain ⟨climbs, atRoot⟩ := climbing_inj same
      rw [climbs, atRoot]

theorem normalize_eq_iff_components (p q : Path) :
    p.normalize = q.normalize ↔ p.normalize.components = q.normalize.components := by
  constructor
  · exact congrArg components
  · intro same
    rw [components_normalize, components_normalize] at same
    exact congrArg ofComponents same

/-- Two paths have the same canonical components exactly if they lead to the same place from every working directory
whose names can stand in a path. -/
theorem components_normalize_eq_iff (p q : Path) :
    p.normalize.components = q.normalize.components ↔
      ∀ cwd : List String, (∀ name ∈ cwd, IsName name) → p.location cwd = q.location cwd := by
  constructor
  · intro same cwd _
    rw [← location_normalize p, ← location_normalize q, location, location, same]
  · intro same
    refine (canonical_normalize p).eq_of_walk (canonical_normalize q) fun depth => ?_
    have deepDown := same (deep depth) isName_of_mem_deep
    rwa [← location_normalize p, ← location_normalize q] at deepDown

/-- The canonical form of a path leads where the path leads, and two paths have the same one exactly
if they lead to the same place from every working directory. It starts with the root or climbs by
`..`, and then only goes down. -/
theorem normalize_sound_and_complete (p q : Path) :
    (∀ cwd, p.normalize.location cwd = p.location cwd) ∧
      (p.normalize.components = q.normalize.components ↔
        ∀ cwd : List String, (∀ name ∈ cwd, IsName name) → p.location cwd = q.location cwd) ∧
      (p.normalize = q.normalize ↔ p.normalize.components = q.normalize.components) ∧
      Canonical p.normalize.components :=
  ⟨location_normalize p, components_normalize_eq_iff p q, normalize_eq_iff_components p q,
    canonical_normalize p⟩

theorem normalize_sound_and_complete_dots :
    (∀ cwd : List String, (∀ name ∈ cwd, IsName name) →
        (⟨"site/.././/../page"⟩ : Path).location cwd = (⟨"../page"⟩ : Path).location cwd) ∧
      ¬∀ cwd : List String, (∀ name ∈ cwd, IsName name) →
        (⟨"../page"⟩ : Path).location cwd = (⟨"page"⟩ : Path).location cwd :=
  ⟨(normalize_sound_and_complete _ _).2.1.mp (by decide +kernel),
    (normalize_sound_and_complete _ _).2.1.not.mp (by decide +kernel)⟩

/-- Two paths have the same canonical form exactly if they lead to the same place from everywhere. -/
theorem normalize_eq_iff_location (p q : Path) :
    p.normalize = q.normalize ↔ ∀ cwd, p.location cwd = q.location cwd := by
  constructor
  · intro same cwd
    rw [← location_normalize p, ← location_normalize q, same]
  · intro same
    exact (normalize_eq_iff_components p q).mpr
      ((components_normalize_eq_iff p q).mpr fun cwd _ => same cwd)

end Templating.Path
