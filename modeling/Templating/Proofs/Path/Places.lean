import Templating.Files.Walk
import Templating.Proofs.Path.Join

namespace Templating

/-- Each part of a location can stand in a path. -/
def Location.Named (loc : Location) : Prop := ∀ name ∈ loc, Path.IsName name

namespace Location
variable {loc base below : Location} {name : String}

theorem named_append : Named (base ++ below) ↔ Named base ∧ Named below := List.forall_mem_append

theorem named_concat : Named (base ++ [name]) ↔ Named base ∧ Path.IsName name := by
  rw [named_append, Named, Named, List.forall_mem_singleton]

end Location

namespace Path
variable {p : Path} {loc base below above : Location} {name : String}

/-- The path of names that is seen from a directory. -/
def relative (below : Location) : Path := .ofComponents (below.map .name)

theorem ext_segments {p q : Path} (same : segments p.text.toList = segments q.text.toList) : p = q := by
  rw [segments_eq_splitOn, segments_eq_splitOn] at same
  have texts := congrArg ['/'].intercalate same
  rw [List.intercalate_splitOn, List.intercalate_splitOn, String.toList_inj] at texts
  cases p
  cases q
  exact congrArg Path.mk texts

theorem IsName.ofSegment? (isName : IsName name) : Component.ofSegment? name.toList = some (.name name) :=
  (Component.Inner.name isName).ofSegment?_text

theorem IsName.toList_ne (isName : IsName name) :
    name.toList ≠ [] ∧ name.toList ≠ ['.'] ∧ name.toList ≠ ['.', '.'] := by
  have found := isName.ofSegment?
  refine ⟨?_, ?_, ?_⟩
  · intro same
    rw [same] at found
    cases found
  · intro same
    rw [same] at found
    cases found
  · intro same
    rw [same] at found
    cases found

theorem inner_of_named (named : Location.Named loc) : ∀ c ∈ loc.map Component.name, c.Inner := by
  intro c member
  obtain ⟨name, inside, rfl⟩ := List.mem_map.mp member
  exact .name (named name inside)

theorem toList_relative (below : Location) :
    (relative below).text.toList = ['/'].intercalate (below.map String.toList) := by
  have text : (relative below).text = "/".intercalate ((below.map Component.name).map Component.text) := by
    cases below <;> rfl
  rw [text, toList_intercalate_text, List.map_map]
  rfl

theorem toList_ofLocation (loc : Location) : (ofLocation loc).text.toList = '/' :: (relative loc).text.toList := by
  have text : (ofLocation loc).text = "/" ++ "/".intercalate ((loc.map Component.name).map Component.text) := rfl
  rw [text, String.toList_append, toList_intercalate_text, toList_relative, List.map_map]
  rfl

theorem isRooted_ofLocation (loc : Location) : (ofLocation loc).isRooted = true := by
  rw [isRooted, toList_ofLocation]
  rfl

theorem text_ofLocation_ne (loc : Location) : (ofLocation loc).text ≠ "" :=
  text_ne_of_isRooted (isRooted_ofLocation loc)

theorem segments_relative (named : Location.Named below) (nonempty : below ≠ []) :
    segments (relative below).text.toList = below.map String.toList := by
  rw [toList_relative]
  refine segments_intercalate (fun part member => ?_) (by simpa using nonempty)
  obtain ⟨name, inside, rfl⟩ := List.mem_map.mp member
  exact (named name inside).1

/-- Before the first name there is nothing, and the root has nothing behind the separator either. -/
theorem segments_ofLocation (named : Location.Named loc) :
    segments (ofLocation loc).text.toList = [] :: if loc = [] then [[]] else loc.map String.toList := by
  have first := segments_append_slash [] (relative loc).text.toList
  rw [toList_ofLocation, ← List.nil_append ('/' :: _), first]
  split
  next empty =>
    subst empty
    rfl
  next nonempty =>
    rw [segments_relative named nonempty]
    rfl

theorem components_ofLocation (named : Location.Named loc) :
    (ofLocation loc).components = .root :: loc.map .name :=
  components_rooted (inner_of_named named)

theorem location_ofLocation (named : Location.Named loc) (cwd : Location) : (ofLocation loc).location cwd = loc := by
  rw [location, components_ofLocation named, foldl_walk_rooted]

/-- Every path from the root in canonical form is the path of a location, written with one separator before each name.
-/
theorem exists_location (rooted : p.isRooted = true) (canonical : p.normalize = p) :
    ∃ loc, Location.Named loc ∧ p = ofLocation loc := by
  have settled := settled_collapse_components p
  have form := canonical_normalize p
  have whole : p = ofComponents (collapse p.components) := canonical.symm
  rw [components_normalize] at form
  generalize cs : collapse p.components = parts at settled form whole
  cases form with
  | rooted names =>
    refine ⟨names, fun name member => ?_, whole⟩
    have inner : .name name ∈ (Component.root :: names.map Component.name).reverse :=
      List.mem_reverse.mpr (List.mem_cons_of_mem _ (List.mem_map_of_mem member))
    obtain ⟨above, below, split⟩ := List.append_of_mem inner
    rw [split] at settled
    exact settled.of_append.1
  | climbing n names =>
    have root : Component.root ∈ collapse p.components := root_mem_collapse.mpr ((isRooted_iff_mem p).mp rooted)
    rw [cs, List.mem_append] at root
    rcases root with climbs | names
    · cases List.eq_of_mem_replicate climbs
    · obtain ⟨_, _, same⟩ := List.mem_map.mp names
      cases same

theorem exists_location_normalize (rooted : p.isRooted = true) :
    ∃ loc, Location.Named loc ∧ p.normalize = ofLocation loc :=
  exists_location ((isRooted_normalize p).trans rooted) (normalize_normalize p)

theorem normalize_ofLocation (named : Location.Named loc) : (ofLocation loc).normalize = ofLocation loc := by
  obtain ⟨other, named', same⟩ := exists_location_normalize (isRooted_ofLocation loc)
  have there := location_normalize (ofLocation loc) []
  rw [same, location_ofLocation named', location_ofLocation named] at there
  rw [same, there]

theorem Component.name_injective : Function.Injective Component.name := fun _ _ same => Component.name.inj same

/-- Among paths of locations, one starts with another exactly if the names of the one start with those of the other.
-/
theorem startsWith_ofLocation (named : Location.Named loc) (named' : Location.Named above) :
    (ofLocation loc).startsWith (ofLocation above) = true ↔ above <+: loc := by
  rw [startsWith, components_ofLocation named, components_ofLocation named', List.isPrefixOf_iff_prefix,
    List.cons_prefix_cons, and_iff_right rfl, List.prefix_map_iff_of_injective Component.name_injective]

theorem IsName.dropIdle (isName : IsName name) (more : List (List Char)) :
    Path.dropIdle (name.toList :: more) = name.toList :: more := by
  have busy : ¬(name.toList = [] ∨ name.toList = ['.']) := not_or.mpr ⟨isName.toList_ne.1, isName.toList_ne.2.1⟩
  cases more with
  | nil => rfl
  | cons other more => exact if_neg busy

theorem ofSegments_dropIdle (named : Location.Named loc) :
    ofSegments (dropIdle ((loc.map String.toList).reverse ++ [[]])) = ofLocation loc := by
  rcases List.eq_nil_or_concat loc with rfl | ⟨above, name, rfl⟩
  · rfl
  rw [List.concat_eq_append] at named ⊢
  have isName := (Location.named_concat.mp named).2
  have reversed : ((above ++ [name]).map String.toList).reverse ++ [[]] =
      name.toList :: ((above.map String.toList).reverse ++ [[]]) := by simp
  have text : ofSegments (name.toList :: ((above.map String.toList).reverse ++ [[]])) =
      ⟨String.ofList (['/'].intercalate ([] :: (above ++ [name]).map String.toList))⟩ := by
    have nonempty := isName.toList_ne.1
    unfold ofSegments
    split
    next same => simp at same
    next => simp
  rw [reversed, isName.dropIdle, text]
  refine ext_segments ?_
  rw [segments_ofLocation named, if_neg (by simp), String.toList_ofList, segments_intercalate _ (by simp)]
  intro part member
  rcases List.mem_cons.mp member with rfl | member
  · exact List.not_mem_nil
  · obtain ⟨name, inside, rfl⟩ := List.mem_map.mp member
    exact (named name inside).1

/-- The path of a directory is that of an entry without its name, for the root as for any other directory. -/
theorem parent?_ofLocation (named : Location.Named (above ++ [name])) :
    (ofLocation (above ++ [name])).parent? = some (ofLocation above) := by
  obtain ⟨namedAbove, isName⟩ := Location.named_concat.mp named
  have reversed : (segments (ofLocation (above ++ [name])).text.toList).reverse =
      name.toList :: ((above.map String.toList).reverse ++ [[]]) := by
    rw [segments_ofLocation named, if_neg (by simp)]
    simp
  have back := ofSegments_dropIdle namedAbove
  rw [parent?, reversed, isName.dropIdle]
  cases split : (above.map String.toList).reverse ++ [[]] with
  | nil => simp at split
  | cons last more =>
    rw [split] at back
    split
    next same => cases same
    next same => exact absurd (List.cons.inj same).1 isName.toList_ne.1
    next same => cases same
    next same =>
      cases same
      rw [back]

/-- Every path from the root but that of the root itself lies in a directory from the root. -/
theorem isRooted_parent? (rooted : p.isRooted = true) (canonical : p.normalize = p) (inner : p ≠ ofLocation []) :
    (p.parent?.getD ⟨""⟩).isRooted = true := by
  obtain ⟨loc, named, rfl⟩ := exists_location rooted canonical
  rcases List.eq_nil_or_concat loc with rfl | ⟨above, name, rfl⟩
  · exact absurd rfl inner
  rw [List.concat_eq_append] at named ⊢
  rw [parent?_ofLocation named]
  exact isRooted_ofLocation above

theorem isRooted_relative (named : Location.Named below) (nonempty : below ≠ []) :
    (relative below).isRooted = false := by
  cases split : below with
  | nil => exact absurd split nonempty
  | cons name more =>
    have isName := named name (by rw [split]; exact List.mem_cons_self)
    have first : (segments (relative below).text.toList).head? = some name.toList := by
      rw [segments_relative named nonempty, split]
      rfl
    rw [← split, isRooted, beq_eq_false_iff_ne]
    intro rooted
    obtain ⟨rest, text⟩ := List.head?_eq_some_iff.mp rooted
    have parts := segments_append_slash [] rest
    rw [text, ← List.nil_append ('/' :: rest), parts] at first
    exact absurd (Option.some.inj first).symm isName.toList_ne.1

theorem getLast?_ofLocation (named : Location.Named (above ++ [name])) :
    (ofLocation (above ++ [name])).text.toList.getLast? ≠ some '/' := by
  intro slash
  obtain ⟨front, split⟩ := List.getLast?_eq_some_iff.mp slash
  have parts := segments_ofLocation named
  rw [split, segments_append_slash, if_neg (by simp)] at parts
  have last := congrArg List.getLast? parts
  rw [segments, List.getLast?_concat, List.map_append, ← List.cons_append, List.map_singleton,
    List.getLast?_concat] at last
  exact (Location.named_concat.mp named).2.toList_ne.1 (Option.some.inj last).symm

/-- The path of names that is seen from a directory, joined to that of the directory, is the path of the names below
the directory. -/
theorem join_relative (named : Location.Named base) (namedBelow : Location.Named below) (nonempty : below ≠ []) :
    (ofLocation base).join (relative below) = ofLocation (base ++ below) := by
  have unrooted : ¬(relative below).isRooted = true := by
    rw [isRooted_relative namedBelow nonempty]
    exact Bool.false_ne_true
  rcases List.eq_nil_or_concat base with rfl | ⟨above, name, rfl⟩
  · have slash : (ofLocation []).text.toList.getLast? = some '/' := by decide
    rw [join, if_neg unrooted, if_pos (.inr slash)]
    refine ext_segments (congrArg segments ?_)
    rw [String.toList_append, toList_ofLocation, toList_ofLocation]
    rfl
  · rw [List.concat_eq_append] at named ⊢
    have inner : above ++ [name] ≠ [] := by simp
    have whole : above ++ [name] ++ below ≠ [] := List.append_ne_nil_of_left_ne_nil inner below
    rw [join, if_neg unrooted, if_neg (not_or.mpr ⟨text_ofLocation_ne _, getLast?_ofLocation named⟩)]
    refine ext_segments ?_
    have text : ((ofLocation (above ++ [name])).text ++ "/" ++ (relative below).text).toList =
        (ofLocation (above ++ [name])).text.toList ++ '/' :: (relative below).text.toList := by simp
    rw [text, segments_append_slash, segments_ofLocation named, segments_relative namedBelow nonempty,
      segments_ofLocation (Location.named_append.mpr ⟨named, namedBelow⟩), if_neg inner, if_neg whole,
      List.cons_append, ← List.map_append]

/-- Below a directory other than the root, the path of an entry is written as that of the directory, a separator and
the name. -/
theorem text_ofLocation_concat (named : Location.Named (above ++ [name])) (inner : above ≠ []) :
    (ofLocation (above ++ [name])).text = (ofLocation above).text ++ "/" ++ name := by
  obtain ⟨namedAbove, isName⟩ := Location.named_concat.mp named
  have namedBelow : Location.Named [name] := List.forall_mem_singleton.mpr isName
  have unrooted : ¬(relative [name]).isRooted = true := by
    rw [isRooted_relative namedBelow (List.cons_ne_nil _ _)]
    exact Bool.false_ne_true
  have closes : (ofLocation above).text.toList.getLast? ≠ some '/' := by
    obtain ⟨higher, last, rfl⟩ := (List.eq_nil_or_concat above).resolve_left inner
    rw [List.concat_eq_append] at namedAbove ⊢
    exact getLast?_ofLocation namedAbove
  rw [← join_relative namedAbove namedBelow (List.cons_ne_nil _ _), join, if_neg unrooted,
    if_neg (not_or.mpr ⟨text_ofLocation_ne above, closes⟩)]
  rfl

end Path

end Templating
