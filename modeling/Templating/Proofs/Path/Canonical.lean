import Mathlib.Data.List.Basic
import Templating.Path.Target

namespace Templating.Path

/-- A segment that stands for itself as a component. -/
def IsName (text : String) : Prop := '/' ∉ text.toList ∧ text ≠ "" ∧ text ≠ "." ∧ text ≠ ".."

instance (text : String) : Decidable (IsName text) := inferInstanceAs (Decidable (_ ∧ _))

/-- A component that may stand anywhere in a path. -/
inductive Component.Inner : Component → Prop
  | parent : Inner .parent
  | name {text} : IsName text → Inner (.name text)

/-- Canonical components in reverse: names above, the root or some `..` below. -/
def Settled : List Component → Prop
  | [] => True
  | .root :: below => below = []
  | .current :: _ => False
  | .parent :: below => ∀ c ∈ below, c = .parent
  | .name text :: below => IsName text ∧ Settled below

theorem segments_eq_splitOn (cs : List Char) : segments cs = cs.splitOn '/' := by
  induction cs with
  | nil => rfl
  | cons c cs ih =>
    rw [List.splitOn_cons_eq_if_modifyHead, segments, ih]
    cases split : cs.splitOn '/' with
    | nil => exact absurd split (List.splitOn_ne_nil _ _)
    | cons first more => simp only [List.modifyHead_cons, beq_iff_eq]

/-- Segments that are joined by separators are found again when the text is cut at its separators. -/
theorem segments_intercalate {parts : List (List Char)} (plain : ∀ part ∈ parts, '/' ∉ part)
    (nonempty : parts ≠ []) : segments (['/'].intercalate parts) = parts := by
  rw [segments_eq_splitOn, List.splitOn_intercalate '/' plain nonempty]

theorem slash_notMem_segments {cs segment : List Char} (member : segment ∈ segments cs) :
    '/' ∉ segment := by
  induction cs generalizing segment with
  | nil =>
    simp only [segments, List.mem_singleton] at member
    simp [member]
  | cons c cs ih =>
    rw [segments] at member
    split at member
    next empty => exact absurd empty (by rw [segments_eq_splitOn]; exact List.splitOn_ne_nil _ _)
    next first more split =>
      have plain (part : List Char) (inside : part ∈ first :: more) : '/' ∉ part :=
        ih (by rw [split]; exact inside)
      split at member
      · rcases List.mem_cons.mp member with rfl | inside
        · simp
        · exact plain segment inside
      · rename_i other
        rcases List.mem_cons.mp member with rfl | inside
        · have apart : '/' ≠ c := fun same => other same.symm
          simp [apart, plain first (List.mem_cons_self ..)]
        · exact plain segment (List.mem_cons_of_mem _ inside)

theorem Component.inner_of_ofSegment? {segment : List Char} {c : Component} (plain : '/' ∉ segment)
    (found : ofSegment? segment = some c) : c.Inner := by
  unfold ofSegment? at found
  split at found
  · exact absurd found (by simp)
  · split at found
    · cases found
      exact .parent
    · rename_i visible notParent
      cases found
      have back {text : String} (same : String.ofList segment = text) : segment = text.toList := by
        rw [← same, String.toList_ofList]
      refine .name ⟨by simpa using plain, ?_, ?_, ?_⟩
      · exact fun empty => visible (.inl (back empty))
      · exact fun dot => visible (.inr (back dot))
      · exact fun dots => notParent (back dots)

/-- A component that may stand anywhere is read back from the text that it is written as. -/
theorem Component.Inner.ofSegment?_text {c : Component} (inner : c.Inner) :
    ofSegment? c.text.toList = some c := by
  cases inner with
  | parent => rfl
  | @name text isName =>
    obtain ⟨_, notEmpty, notDot, notDots⟩ := isName
    have apart {cs : List Char} (other : text ≠ String.ofList cs) : text.toList ≠ cs :=
      fun same => other (by rw [← same, String.ofList_toList])
    rw [ofSegment?, Component.text, if_neg, if_neg (apart notDots), String.ofList_toList]
    exact not_or.mpr ⟨apart notEmpty, apart notDot⟩

theorem Component.Inner.slash_notMem {c : Component} (inner : c.Inner) : '/' ∉ c.text.toList := by
  cases inner with
  | parent => decide
  | name isName => exact isName.1

theorem Component.Inner.text_ne {c : Component} (inner : c.Inner) {segment : List Char}
    (idle : ofSegment? segment = none) : c.text.toList ≠ segment := by
  rintro rfl
  rw [inner.ofSegment?_text] at idle
  cases idle

theorem Component.Inner.settled_cons {c : Component} (inner : c.Inner) {below : List Component}
    (settled : Settled below) : Settled (collapseStep below c) := by
  cases inner with
  | name isName => exact ⟨isName, settled⟩
  | parent =>
    rcases below with _ | ⟨_ | _ | _ | text, below⟩
    · exact fun c member => absurd member (List.not_mem_nil)
    · exact settled
    · exact settled.elim
    · intro c member
      rcases List.mem_cons.mp member with rfl | older
      · rfl
      · exact settled c older
    · exact settled.2

/-- Collapsing keeps a list settled at every step, if the components to come may stand anywhere. -/
theorem settled_foldl {cs done : List Component} (inner : ∀ c ∈ cs, c.Inner) (settled : Settled done) :
    Settled (cs.foldl collapseStep done) := by
  induction cs generalizing done with
  | nil => exact settled
  | cons c cs ih =>
    exact ih (fun c member => inner c (List.mem_cons_of_mem _ member))
      ((inner c (List.mem_cons_self ..)).settled_cons settled)

theorem inner_of_mem_segments {cs : List Char} {c : Component}
    (member : c ∈ (segments cs).filterMap Component.ofSegment?) : c.Inner := by
  obtain ⟨segment, inside, found⟩ := List.mem_filterMap.mp member
  exact Component.inner_of_ofSegment? (slash_notMem_segments inside) found

/-- What collapsing the components of a path comes to is the root or some `..`, and then names. -/
theorem settled_collapse_components (p : Path) : Settled (collapse p.components).reverse := by
  have start : Settled (p.start.foldl collapseStep []) := by
    unfold Path.start
    split
    · rfl
    · split <;> trivial
  rw [collapse, List.reverse_reverse, components, List.foldl_append]
  exact settled_foldl (fun c => inner_of_mem_segments) start

theorem Settled.rooted_or_inner {done : List Component} (settled : Settled done) :
    (∃ names, done = names ++ [.root] ∧ ∀ c ∈ names, c.Inner) ∨ ∀ c ∈ done, c.Inner := by
  induction done with
  | nil => exact .inr fun c member => absurd member List.not_mem_nil
  | cons c below ih =>
    cases c with
    | root => exact .inl ⟨[], by rw [settled]; rfl, fun c member => absurd member List.not_mem_nil⟩
    | current => exact settled.elim
    | parent =>
      refine .inr fun c member => ?_
      rcases List.mem_cons.mp member with rfl | older
      · exact .parent
      · rw [settled c older]
        exact .parent
    | name text =>
      have grow {cs : List Component} (inner : ∀ c ∈ cs, c.Inner) : ∀ c ∈ .name text :: cs, c.Inner :=
        List.forall_mem_cons.mpr ⟨.name settled.1, inner⟩
      rcases ih settled.2 with ⟨names, split, inner⟩ | inner
      · exact .inl ⟨.name text :: names, by rw [split, List.cons_append], grow inner⟩
      · exact .inr (grow inner)

theorem filterMap_ofSegment?_text {cs : List Component} (inner : ∀ c ∈ cs, c.Inner) :
    (cs.map fun c => c.text.toList).filterMap Component.ofSegment? = cs := by
  induction cs with
  | nil => rfl
  | cons c cs ih =>
    have ⟨first, rest⟩ := List.forall_mem_cons.mp inner
    rw [List.map_cons, List.filterMap_cons, first.ofSegment?_text, ih rest]

/-- Components that may stand anywhere are read back from the text in which they are written one after the other. -/
theorem filterMap_segments_intercalate {cs : List Component} (inner : ∀ c ∈ cs, c.Inner) :
    (segments (['/'].intercalate (cs.map fun c => c.text.toList))).filterMap Component.ofSegment? = cs := by
  by_cases empty : cs = []
  · subst empty
    rfl
  · rw [segments_intercalate _ (by simpa using empty), filterMap_ofSegment?_text inner]
    intro part member
    obtain ⟨c, inside, rfl⟩ := List.mem_map.mp member
    exact (inner c inside).slash_notMem

theorem toList_intercalate_text (cs : List Component) :
    ("/".intercalate (cs.map Component.text)).toList =
      ['/'].intercalate (cs.map fun c => c.text.toList) := by
  rw [String.toList_intercalate, List.map_map]
  rfl

theorem components_rooted {names : List Component} (inner : ∀ c ∈ names, c.Inner) :
    (ofComponents (.root :: names)).components = .root :: names := by
  have text : (ofComponents (.root :: names)).text.toList =
      '/' :: ['/'].intercalate (names.map fun c => c.text.toList) := by
    rw [ofComponents, String.toList_append, toList_intercalate_text]
    rfl
  have start : (ofComponents (.root :: names)).start = [.root] := by
    rw [Path.start, isRooted, text]
    rfl
  have first (cs : List Char) : segments ('/' :: cs) = [] :: segments cs := by
    rw [segments_eq_splitOn, segments_eq_splitOn, List.splitOn_cons_eq_if_modifyHead]
    rfl
  rw [components, start, text, first, List.filterMap_cons_none (by rfl),
    filterMap_segments_intercalate inner]
  rfl

theorem components_unrooted {cs : List Component} (inner : ∀ c ∈ cs, c.Inner) :
    (ofComponents cs).components = cs := by
  have text : (ofComponents cs).text.toList = ['/'].intercalate (cs.map fun c => c.text.toList) := by
    rw [← toList_intercalate_text]
    rcases cs with _ | ⟨c, cs⟩
    · rfl
    · cases inner c (List.mem_cons_self ..) <;> rfl
  have start : (ofComponents cs).start = [] := by
    rcases cs with _ | ⟨c, cs⟩
    · rfl
    · have atFirst := inner c (List.mem_cons_self ..)
      have parts : segments (ofComponents (c :: cs)).text.toList = (c :: cs).map fun c => c.text.toList := by
        refine text ▸ segments_intercalate (fun part member => ?_) (by simp)
        obtain ⟨other, inside, rfl⟩ := List.mem_map.mp member
        exact (inner other inside).slash_notMem
      have unrooted : (ofComponents (c :: cs)).isRooted = false := by
        rw [isRooted, beq_eq_false_iff_ne]
        intro rooted
        obtain ⟨rest, split⟩ := List.head?_eq_some_iff.mp rooted
        rw [split, segments_eq_splitOn, List.splitOn_cons_eq_if_modifyHead] at parts
        exact atFirst.text_ne (by rfl) (List.cons.inj parts).1.symm
      have noDot : (segments (ofComponents (c :: cs)).text.toList).head? ≠ some ['.'] := by
        rw [parts]
        exact fun dot => atFirst.text_ne (by rfl) (Option.some.inj dot)
      rw [Path.start, unrooted, if_neg (by decide), if_neg noDot]
  rw [components, start, text, filterMap_segments_intercalate inner]
  rfl

/-- Writing canonical components down and taking them apart again loses nothing, the empty path and the root included.
-/
theorem components_ofComponents {cs : List Component} (settled : Settled cs.reverse) :
    (ofComponents cs).components = cs := by
  rcases settled.rooted_or_inner with ⟨names, split, inner⟩ | inner
  · have same : cs = .root :: names.reverse := by
      rw [← List.reverse_reverse cs, split, List.reverse_append]
      rfl
    rw [same]
    exact components_rooted fun c member => inner c (List.mem_reverse.mp member)
  · exact components_unrooted fun c member => inner c (List.mem_reverse.mpr member)

theorem Settled.collapseStep_eq {c : Component} {below : List Component} (settled : Settled (c :: below)) :
    collapseStep below c = c :: below := by
  cases c with
  | root => rfl
  | current => exact settled.elim
  | name text => rfl
  | parent =>
    rcases below with _ | ⟨_ | _ | _ | text, below⟩
    · rfl
    all_goals first | rfl | exact absurd (settled _ (List.mem_cons_self ..)) (by simp)

theorem settled_parents {cs : List Component} (parents : ∀ c ∈ cs, c = .parent) : Settled cs := by
  cases cs with
  | nil => trivial
  | cons c below =>
    have ⟨first, rest⟩ := List.forall_mem_cons.mp parents
    subst first
    exact rest

theorem Settled.of_cons {c : Component} {below : List Component} (settled : Settled (c :: below)) :
    Settled below := by
  cases c with
  | root => exact settled ▸ trivial
  | current => exact settled.elim
  | parent => exact settled_parents settled
  | name text => exact settled.2

theorem Settled.of_append {above below : List Component} (settled : Settled (above ++ below)) :
    Settled below := by
  induction above with
  | nil => exact settled
  | cons c above ih => exact ih settled.of_cons

theorem Settled.foldl_collapseStep {cs done : List Component} (settled : Settled (cs.reverse ++ done)) :
    cs.foldl collapseStep done = cs.reverse ++ done := by
  induction cs generalizing done with
  | nil => rfl
  | cons c cs ih =>
    rw [List.reverse_cons, List.append_assoc] at settled ⊢
    have atFirst : collapseStep done c = c :: done := settled.of_append.collapseStep_eq
    rw [List.foldl_cons, atFirst]
    exact ih settled

theorem collapse_of_settled {cs : List Component} (settled : Settled cs.reverse) : collapse cs = cs := by
  rw [collapse, Settled.foldl_collapseStep (by rwa [List.append_nil]), List.append_nil, List.reverse_reverse]

/-- The components of the canonical form are those that collapsing comes to: nothing is lost by writing them down. -/
theorem components_normalize (p : Path) : p.normalize.components = collapse p.components :=
  components_ofComponents (settled_collapse_components p)

/-- The canonical form of a path is its own canonical form. -/
theorem normalize_normalize (p : Path) : p.normalize.normalize = p.normalize := by
  rw [normalize, components_normalize, collapse_of_settled (settled_collapse_components p)]
  rfl

/-- The path that an include directive asks for is in canonical form, whatever its argument and the node are. -/
theorem normalize_includeTarget (argument : String) (dirname root : Path) :
    (includeTarget argument dirname root).normalize = includeTarget argument dirname root := by
  unfold includeTarget layoutTarget
  split <;> exact normalize_normalize _

/-- The path that a layout directive asks for is in canonical form, whatever its argument and the root directory are.
-/
theorem normalize_layoutTarget (argument : String) (root : Path) :
    (layoutTarget argument root).normalize = layoutTarget argument root :=
  normalize_normalize _

end Templating.Path
