import Templating.Proofs.Path.Location

namespace Templating.Path

variable {base p : Path}

theorem segments_ne_nil (cs : List Char) : segments cs ≠ [] := by
  rw [segments_eq_splitOn]
  exact List.splitOn_ne_nil _ _

theorem segments_append_slash (cs ds : List Char) : segments (cs ++ '/' :: ds) = segments cs ++ segments ds := by
  induction cs with
  | nil =>
    cases split : segments ds with
    | nil => exact absurd split (segments_ne_nil ds)
    | cons first more => simp [segments, split]
  | cons c cs ih =>
    cases split : segments cs with
    | nil => exact absurd split (segments_ne_nil cs)
    | cons first more =>
      rw [List.cons_append, segments, ih, split, List.cons_append, segments, split]
      dsimp only
      split <;> rfl

/-- What a path does behind its start. -/
def steps (p : Path) : List Component := (segments p.text.toList).filterMap Component.ofSegment?

theorem location_eq_steps (relative : p.isRooted = false) (place : List String) :
    p.location place = p.steps.foldl Component.walk place := by
  rw [location, components, List.foldl_append, steps]
  congr 1
  rw [start, relative, if_neg Bool.false_ne_true]
  split <;> rfl

-- A base that ends in a separator has an empty last segment, which is no component.
/-- A relative path is written behind the base with one separator between them, which the base may already end in. -/
theorem toList_join (relative : p.isRooted = false) (nonempty : base.text ≠ "") :
    ∃ front, (base.join p).text.toList = front ++ '/' :: p.text.toList ∧
      (base.text.toList = front ∧ front ≠ [] ∨ base.text.toList = front ++ ['/']) := by
  have named : base.text.toList ≠ [] := by simpa using nonempty
  rw [join, relative, if_neg Bool.false_ne_true]
  by_cases slash : base.text.toList.getLast? = some '/'
  · obtain ⟨front, split⟩ := List.getLast?_eq_some_iff.mp slash
    exact ⟨front, by rw [if_pos (.inr slash), String.toList_append, split, List.append_assoc]; rfl, .inr split⟩
  · refine ⟨base.text.toList, ?_, .inl ⟨rfl, named⟩⟩
    rw [if_neg (not_or.mpr ⟨nonempty, slash⟩), String.toList_append, String.toList_append, List.append_assoc]
    rfl

theorem start_congr {p q : Path} (heads : p.text.toList.head? = q.text.toList.head?)
    (firsts : (segments p.text.toList).head? = (segments q.text.toList).head?) : p.start = q.start := by
  rw [start, isRooted, heads, firsts, start, isRooted]

/-- The components of a joined path are those of the base, followed by what the relative path does behind its start.
-/
theorem components_join (relative : p.isRooted = false) (nonempty : base.text ≠ "") :
    (base.join p).components = base.components ++ p.steps := by
  obtain ⟨front, text, ⟨baseText, named⟩ | baseText⟩ := toList_join relative nonempty
  · have start : (base.join p).start = base.start := by
      refine start_congr ?_ ?_
      · rw [text, baseText, List.head?_append_of_ne_nil _ named]
      · rw [text, baseText, segments_append_slash, List.head?_append_of_ne_nil _ (segments_ne_nil front)]
    rw [components, start, text, segments_append_slash, List.filterMap_append, components, baseText, steps,
      List.append_assoc]
  · have start : (base.join p).start = base.start := by
      refine start_congr ?_ ?_
      · rw [text, baseText, List.head?_append, List.head?_append]
        rfl
      · rw [text, baseText, segments_append_slash, segments_append_slash,
          List.head?_append_of_ne_nil _ (segments_ne_nil front),
          List.head?_append_of_ne_nil _ (segments_ne_nil front)]
    have idle : (segments []).filterMap Component.ofSegment? = [] := rfl
    rw [components, start, text, segments_append_slash, List.filterMap_append, components, baseText, steps,
      segments_append_slash, List.filterMap_append, idle, List.append_nil, List.append_assoc]

/-- A path from the root does not see the base that it is joined to. -/
theorem join_of_isRooted (rooted : p.isRooted = true) : base.join p = p := by
  rw [join, if_pos rooted]

theorem join_of_empty (relative : p.isRooted = false) (empty : base.text = "") : base.join p = p := by
  rw [join, relative, if_neg Bool.false_ne_true, if_pos (.inl empty), empty, String.empty_append]

/-- A relative path that is joined to a base starts where the base leads, from any working directory. -/
theorem location_join (relative : p.isRooted = false) (cwd : List String) :
    (base.join p).location cwd = p.location (base.location cwd) := by
  by_cases empty : base.text = ""
  · have stays : base.location cwd = cwd := by
      rw [location, components, start, isRooted, empty]
      rfl
    rw [join_of_empty relative empty, stays]
  · rw [location_eq_steps relative, location, components_join relative empty, List.foldl_append, location]

theorem root_notMem_steps (p : Path) : Component.root ∉ p.steps := by
  intro member
  cases inner_of_mem_segments member

theorem isRooted_iff_mem (p : Path) : p.isRooted = true ↔ Component.root ∈ p.components := by
  have behind := root_notMem_steps p
  rw [components, ← steps, List.mem_append, or_iff_left behind, start]
  split
  next rooted => simp [rooted]
  next relative => split <;> simp [relative]

theorem root_mem_collapseStep {done : List Component} {c : Component} :
    Component.root ∈ collapseStep done c ↔ Component.root ∈ done ∨ c = .root := by
  cases c with
  | root | current | name text => simp [collapseStep]
  | parent => rcases done with _ | ⟨_ | _ | _ | text, below⟩ <;> simp [collapseStep]

theorem root_mem_collapse {cs : List Component} : Component.root ∈ collapse cs ↔ Component.root ∈ cs := by
  have steps (done : List Component) :
      Component.root ∈ cs.foldl collapseStep done ↔ Component.root ∈ done ∨ Component.root ∈ cs := by
    induction cs generalizing done with
    | nil => simp
    | cons c cs ih => rw [List.foldl_cons, ih, root_mem_collapseStep, List.mem_cons, or_assoc, eq_comm]
  rw [collapse, List.mem_reverse, steps, or_iff_right List.not_mem_nil]

theorem isRooted_normalize (p : Path) : p.normalize.isRooted = p.isRooted := by
  rw [Bool.eq_iff_iff, isRooted_iff_mem, isRooted_iff_mem, components_normalize, root_mem_collapse]

theorem isRooted_join (base p : Path) : (base.join p).isRooted = (p.isRooted || base.isRooted) := by
  by_cases rooted : p.isRooted = true
  · rw [join_of_isRooted rooted, rooted, Bool.true_or]
  · rw [Bool.not_eq_true] at rooted
    by_cases empty : base.text = ""
    · rw [join_of_empty rooted empty, rooted, isRooted, empty]
      rfl
    · rw [rooted, Bool.false_or, Bool.eq_iff_iff, isRooted_iff_mem, isRooted_iff_mem,
        components_join rooted empty, List.mem_append, or_iff_left (root_notMem_steps p)]

theorem text_ne_of_isRooted (rooted : p.isRooted = true) : p.text ≠ "" := by
  intro empty
  rw [isRooted, empty] at rooted
  exact absurd rooted (by decide)

/-- A relative path climbs some steps and then goes down some names, wherever it starts. -/
theorem exists_climbs (relative : p.isRooted = false) :
    ∃ n names, ∀ place, p.location place = place.take (place.length - n) ++ names := by
  have unrooted : Component.root ∉ p.normalize.components := by
    rw [← isRooted_iff_mem, isRooted_normalize, relative]
    exact Bool.false_ne_true
  have walk (place : List String) : p.location place = p.normalize.components.foldl Component.walk place :=
    (location_normalize p place).symm
  have canonical := canonical_normalize p
  generalize p.normalize.components = cs at unrooted walk canonical
  cases canonical with
  | rooted names => exact absurd (List.mem_cons_self ..) unrooted
  | climbing n names => exact ⟨n, names, fun place => by rw [walk, foldl_walk_climbing]⟩

/-- A relative base may be joined to itself without effect exactly if going its way twice leads no further than going
it once. -/
theorem normalize_join_self_iff (relative : base.isRooted = false) :
    (base.join base).normalize = base.normalize ↔
      ∀ place, base.location (base.location place) = base.location place := by
  rw [normalize_eq_iff_location]
  exact forall_congr' fun place => by rw [location_join relative]

/-- Under a base that stands, a path that has been resolved once is resolved to itself. -/
theorem normalize_join_join (stands : (base.join base).normalize = base.normalize) (p : Path) :
    (base.join (base.join p).normalize).normalize = (base.join p).normalize := by
  by_cases rooted : (base.join p).isRooted = true
  · rw [join_of_isRooted (by rwa [isRooted_normalize]), normalize_normalize]
  · rw [Bool.not_eq_true] at rooted
    have ⟨relative, below⟩ := Bool.or_eq_false_iff.mp ((isRooted_join base p).symm.trans rooted)
    have again := (normalize_join_self_iff below).mp stands
    refine (normalize_eq_iff_location _ _).mpr fun cwd => ?_
    rw [location_join (by rw [isRooted_normalize, rooted]), location_normalize, location_join relative,
      location_join relative, again]

-- Far from the root every step down and every climb counts, so a base that adds nothing the second time
-- climbs as far as it goes down.
/-- The converse: if a single relative path is resolved to itself the second time, the base stands. -/
theorem normalize_join_self_of_again (below : base.isRooted = false) (relative : p.isRooted = false)
    (again : (base.join (base.join p).normalize).normalize = (base.join p).normalize) :
    (base.join base).normalize = base.normalize := by
  have rooted : (base.join p).isRooted = false := by rw [isRooted_join, below, relative, Bool.or_false]
  obtain ⟨n, names, walk⟩ := exists_climbs below
  obtain ⟨m, names', walk'⟩ := exists_climbs relative
  have same := (normalize_eq_iff_location _ _).mp again (deep (2 * n + m))
  rw [location_join (by rw [isRooted_normalize, rooted]), location_normalize, location_join relative,
    location_join relative] at same
  have balance : names.length = n := by
    have lengths := congrArg List.length same
    simp only [walk, walk', List.length_append, List.length_take, length_deep] at lengths
    omega
  refine (normalize_join_self_iff below).mpr fun place => ?_
  have back : (place.take (place.length - n) ++ names).length - n = (place.take (place.length - n)).length := by
    rw [List.length_append]
    omega
  rw [walk, walk, back, List.take_left]

end Templating.Path
