import Templating.Proofs.Files.Sound

namespace Templating

theorem Except.bind_eq_ok_iff {ε α β : Type} {x : Except ε α} {f : α → Except ε β} {b : β} :
    x.bind f = .ok b ↔ ∃ a, x = .ok a ∧ f a = .ok b := by
  cases x with
  | ok a => exact ⟨fun ran => ⟨a, rfl, ran⟩, fun ⟨_, same, ran⟩ => by cases same; exact ran⟩
  | error e => exact ⟨nofun, fun ⟨_, same, _⟩ => nomatch same⟩

theorem Except.eq_ok_of_toOption {ε α : Type} {x : Except ε α} {a : α} (found : x.toOption = some a) : x = .ok a := by
  cases x with
  | ok b => exact congrArg _ (Option.some.inj found)
  | error e => cases found

namespace FileTree
variable {t t' : FileTree} {here dir loc above l : Location} {name : String} {e : Entry} {bytes : List UInt8}

theorem enter_name (isName : Path.IsName name) (dir : Location) :
    enter dir name.toList =
      if longestName < name.utf8ByteSize then .error .nameTooLong else .ok (dir ++ [name]) := by
  obtain ⟨notEmpty, notDot, notDots⟩ := isName.toList_ne
  rw [enter, if_neg (not_or.mpr ⟨notEmpty, notDot⟩), if_neg notDots, String.ofList_toList]

theorem walk_directory (directory : t.entry? dir = some .directory) (isName : Path.IsName name)
    (more : List (List Char)) :
    t.walk dir (name.toList :: more) =
      if longestName < name.utf8ByteSize then .error .nameTooLong else t.walk (dir ++ [name]) more := by
  rw [walk, directory]
  dsimp only
  rw [enter_name isName]
  split <;> rfl

theorem walk_idle (directory : t.entry? dir = some .directory) (more : List (List Char)) :
    t.walk dir ([] :: more) = t.walk dir more := by
  rw [walk, directory]
  rfl

/-- Above a location stand its start and, behind its first name, what stands above the rest. -/
theorem forall_above_cons_iff {p : Location → Prop} {names : Location} :
    (∀ above, above <+: name :: names → above ≠ name :: names → p above) ↔
      p [] ∧ ∀ above, above <+: names → above ≠ names → p (name :: above) := by
  constructor
  · intro all
    refine ⟨all [] List.nil_prefix nofun, fun above prefixed other => ?_⟩
    exact all (name :: above) (List.cons_prefix_cons.mpr ⟨rfl, prefixed⟩) (by simpa using other)
  · rintro ⟨first, rest⟩ above prefixed other
    cases above with
    | nil => exact first
    | cons head above =>
      obtain ⟨rfl, behind⟩ := List.cons_prefix_cons.mp prefixed
      exact rest above behind (by simpa using other)

/-- A walk down some names gets through exactly if none of them is too long and directories stand all the way; the
last of them need not be there. -/
theorem walk_names_ok_iff {names : Location} (named : names.Named) :
    t.walk dir (names.map String.toList) = .ok l ↔
      l = dir ++ names ∧ (∀ name ∈ names, name.utf8ByteSize ≤ longestName) ∧
        ∀ above, above <+: names → above ≠ names → t.entry? (dir ++ above) = some .directory := by
  induction names generalizing dir with
  | nil =>
    rw [List.map_nil, walk, Except.ok.injEq, List.append_nil, eq_comm]
    refine ⟨fun same => ⟨same, fun _ member => absurd member List.not_mem_nil, fun above atStart other => ?_⟩, And.left⟩
    exact absurd (List.prefix_nil.mp atStart) other
  | cons name names ih =>
    obtain ⟨isName, named⟩ := List.forall_mem_cons.mp named
    -- The directory itself comes first, then those behind the name.
    rw [List.map_cons, forall_above_cons_iff, List.forall_mem_cons, List.append_nil]
    have inner : t.walk (dir ++ [name]) (names.map String.toList) = .ok l ↔ _ := ih named
    simp only [List.append_assoc, List.singleton_append] at inner
    constructor
    · intro walked
      cases found : t.entry? dir with
      | none =>
        rw [walk, found] at walked
        cases walked
      | some e =>
        cases e with
        | file bytes =>
          rw [walk, found] at walked
          cases walked
        | directory =>
          rw [walk_directory found isName] at walked
          split at walked
          next => cases walked
          next short =>
            obtain ⟨place, sizes, rest⟩ := inner.mp walked
            exact ⟨place, ⟨Nat.le_of_not_lt short, sizes⟩, rfl, rest⟩
    · rintro ⟨place, ⟨short, sizes⟩, first, rest⟩
      rw [walk_directory first isName, if_neg (Nat.not_lt.mpr short)]
      exact inner.mpr ⟨place, sizes, rest⟩

/-- Without a file on the way, a walk that does not get through finds something missing. -/
theorem walk_names_error {names : Location} {error : FileError} (named : names.Named)
    (sizes : ∀ name ∈ names, name.utf8ByteSize ≤ longestName)
    (clear : ∀ above bytes, above <+: names → t.entry? (dir ++ above) ≠ some (.file bytes))
    (failed : t.walk dir (names.map String.toList) = .error error) : error = .notFound := by
  induction names generalizing dir with
  | nil => cases failed
  | cons name names ih =>
    obtain ⟨isName, named⟩ := List.forall_mem_cons.mp named
    obtain ⟨short, sizes⟩ := List.forall_mem_cons.mp sizes
    rw [List.map_cons] at failed
    cases found : t.entry? dir with
    | none =>
      rw [walk, found] at failed
      cases failed
      rfl
    | some e =>
      cases e with
      | file bytes =>
        have here := clear [] bytes List.nil_prefix
        rw [List.append_nil] at here
        exact absurd found here
      | directory =>
        rw [walk_directory found isName, if_neg (Nat.not_lt.mpr short)] at failed
        refine ih named sizes (fun above bytes prefixed => ?_) failed
        have inner := clear (name :: above) bytes (List.cons_prefix_cons.mpr ⟨rfl, prefixed⟩)
        rwa [List.append_assoc]

/-- Where the path of a location starts, and its segments; the root has one more that is idle. -/
def segmentsOf (loc : Location) : List (List Char) := [] :: if loc = [] then [[]] else loc.map String.toList

/-- The idle segment that the path of the root ends in does not change where a walk leads. -/
theorem walk_segmentsOf (t : FileTree) (loc : Location) :
    t.walk [] (segmentsOf loc) = t.walk [] (loc.map String.toList) := by
  rw [segmentsOf, walk_idle (entry?_root t)]
  split
  next root =>
    subst root
    exact walk_idle (entry?_root t) []
  next => rfl

theorem walk_segmentsOf_ok_iff (named : loc.Named) :
    t.walk [] (segmentsOf loc) = .ok l ↔
      l = loc ∧ (∀ name ∈ loc, name.utf8ByteSize ≤ longestName) ∧ t.Opens loc := by
  rw [walk_segmentsOf, walk_names_ok_iff named]
  rfl

/-- The system takes the path of a location if it is not too long and has no zero character; it then starts at the
root. -/
theorem route_ofLocation_ok_iff (named : loc.Named) {start : Location × List (List Char)} :
    route here (.ofLocation loc) = .ok start ↔
      start = ([], segmentsOf loc) ∧ (Path.ofLocation loc).text.utf8ByteSize ≤ longestPath ∧
        '\x00' ∉ (Path.ofLocation loc).text.toList := by
  rw [route, if_neg (Path.text_ofLocation_ne loc), Path.isRooted_ofLocation, Path.segments_ofLocation named,
    if_pos rfl]
  split
  next nul => exact ⟨nofun, fun both => absurd (List.contains_iff_mem.mp nul) both.2.2⟩
  next plain =>
    split
    next long => exact ⟨nofun, fun both => absurd both.2.1 (Nat.not_le.mpr long)⟩
    next short =>
      rw [Except.ok.injEq]
      exact ⟨fun same => ⟨same.symm, Nat.le_of_not_lt short, fun nul => plain (List.contains_iff_mem.mpr nul)⟩,
        fun both => both.1.symm⟩

/-- What is found at the path of a location is what the tree has there. It is found exactly if the system takes the
path and directories stand all the way above; the tree need not be in order. -/
theorem find_ok_iff (named : loc.Named) :
    t.find here (.ofLocation loc) = .ok (l, e) ↔
      l = loc ∧ loc.Fits ∧ t.Opens loc ∧ t.entry? loc = some e := by
  rw [find, Except.bind_eq_ok_iff]
  constructor
  · rintro ⟨start, routed, walked⟩
    obtain ⟨rfl, short, plain⟩ := (route_ofLocation_ok_iff named).mp routed
    obtain ⟨place, walked, found⟩ := Except.bind_eq_ok_iff.mp walked
    obtain ⟨rfl, names, opens⟩ := (walk_segmentsOf_ok_iff named).mp walked
    split at found
    next e' there =>
      cases found
      exact ⟨rfl, ⟨short, plain, names⟩, opens, there⟩
    next => cases found
  · rintro ⟨rfl, ⟨short, plain, names⟩, opens, there⟩
    refine ⟨_, (route_ofLocation_ok_iff named).mpr ⟨rfl, short, plain⟩, Except.bind_eq_ok_iff.mpr ?_⟩
    refine ⟨l, (walk_segmentsOf_ok_iff named).mpr ⟨rfl, names, opens⟩, ?_⟩
    rw [there]

theorem fits_of_read (named : loc.Named) (read : t.read here (.ofLocation loc) = .ok bytes) : loc.Fits := by
  obtain ⟨⟨l, e⟩, found, _⟩ := Except.bind_eq_ok_iff.mp read
  exact ((find_ok_iff named).mp found).2.1

/-- In a tree that is in order the directories above an entry are there, so that it is found as soon as the system
takes its path. -/
theorem Sound.find_ok_iff (sound : t.Sound) (named : loc.Named) :
    t.find here (.ofLocation loc) = .ok (l, e) ↔ l = loc ∧ loc.Fits ∧ t.entry? loc = some e := by
  rw [FileTree.find_ok_iff named]
  exact ⟨fun ⟨same, fits, _, found⟩ => ⟨same, fits, found⟩,
    fun ⟨same, fits, found⟩ => ⟨same, fits, sound.opens found, found⟩⟩

/-- In a tree that is in order exactly the files whose path the system takes can be read, and they give their bytes.
-/
theorem Sound.read_ok_iff (sound : t.Sound) (named : loc.Named) :
    t.read here (.ofLocation loc) = .ok bytes ↔ loc.Fits ∧ t.entry? loc = some (.file bytes) := by
  rw [read, Except.bind_eq_ok_iff]
  constructor
  · rintro ⟨⟨l, e⟩, found, same⟩
    obtain ⟨rfl, fits, there⟩ := (sound.find_ok_iff named).mp found
    cases e with
    | file other =>
      cases same
      exact ⟨fits, there⟩
    | directory => cases same
  · rintro ⟨fits, there⟩
    exact ⟨(loc, .file bytes), (sound.find_ok_iff named).mpr ⟨rfl, fits, there⟩, rfl⟩

theorem present_of_read {p : Path} (read : t.read here p = .ok bytes) : t.present here p = true := by
  obtain ⟨⟨l, e⟩, found, _⟩ := Except.bind_eq_ok_iff.mp read
  rw [present, found]

/-- In a tree that is in order an entry is seen exactly if the system takes its path, whatever kind of entry it is. -/
theorem Sound.present_iff (sound : t.Sound) (named : loc.Named) :
    t.present here (.ofLocation loc) = true ↔ loc.Fits ∧ ∃ e, t.entry? loc = some e := by
  unfold present
  constructor
  · intro there
    split at there
    next found =>
      obtain ⟨_, fits, there⟩ := (sound.find_ok_iff named).mp found
      exact ⟨fits, _, there⟩
    next => cases there
  · rintro ⟨fits, e, there⟩
    rw [(sound.find_ok_iff named).mpr ⟨rfl, fits, there⟩]

/-- In a tree that is in order a file is told as one exactly if the system takes its path. One with a path that is too
long is there, but not told. -/
theorem Sound.isFile_iff (sound : t.Sound) (named : loc.Named) :
    t.isFile here (.ofLocation loc) = true ↔ loc.Fits ∧ ∃ bytes, t.entry? loc = some (.file bytes) := by
  unfold isFile
  constructor
  · intro there
    split at there
    next l bytes found =>
      obtain ⟨_, fits, there⟩ := (sound.find_ok_iff named).mp found
      exact ⟨fits, bytes, there⟩
    next => cases there
  · rintro ⟨fits, bytes, there⟩
    rw [(sound.find_ok_iff named).mpr ⟨rfl, fits, there⟩]

/-- A directory is told as one exactly if the system takes its path and directories stand all the way above. -/
theorem isDirectory_iff (named : loc.Named) :
    t.isDirectory here (.ofLocation loc) = true ↔
      loc.Fits ∧ t.Opens loc ∧ t.entry? loc = some .directory := by
  unfold isDirectory
  constructor
  · intro there
    split at there
    next l found => exact ((find_ok_iff named).mp found).2
    next => cases there
  · intro there
    rw [(find_ok_iff named).mpr ⟨rfl, there⟩]

theorem spot_root (t : FileTree) (here : Location) : t.spot here (.ofLocation []) = .ok ⟨[], false, true⟩ := rfl

/-- The path of a location other than the root ends in its name: a file can be written there, and the walk is the only
thing that may fail. -/
theorem spot_ofLocation (named : (above ++ [name]).Named) :
    t.spot here (.ofLocation (above ++ [name])) =
      (route here (.ofLocation (above ++ [name]))).bind fun start =>
        (t.walk start.1 start.2).bind fun loc => .ok ⟨loc, true, false⟩ := by
  have isName := (Location.named_concat.mp named).2
  rw [spot]
  cases routed : route here (.ofLocation (above ++ [name])) with
  | error e => rfl
  | ok start =>
    obtain ⟨rfl, _⟩ := (route_ofLocation_ok_iff named).mp routed
    obtain ⟨notEmpty, notDot, notDots⟩ := isName.toList_ne
    have reversed : (segmentsOf (above ++ [name])).reverse =
        name.toList :: ((above.map String.toList).reverse ++ [[]]) := by
      rw [segmentsOf, if_neg (by simp)]
      simp
    have kept : (name.toList :: ((above.map String.toList).reverse ++ [[]])).dropWhile (· == []) =
        name.toList :: ((above.map String.toList).reverse ++ [[]]) :=
      List.dropWhile_cons_of_neg (by simpa using notEmpty)
    have back : ((above.map String.toList).reverse ++ [[]]).reverse ++ [name.toList] =
        segmentsOf (above ++ [name]) := by
      rw [segmentsOf, if_neg (by simp)]
      simp
    have length : ¬(name.toList :: ((above.map String.toList).reverse ++ [[]])).length <
        (segmentsOf (above ++ [name])).length := by
      rw [← reversed, List.length_reverse]
      exact Nat.lt_irrefl _
    dsimp only [Except.bind]
    rw [reversed, kept]
    dsimp only
    rw [back]
    cases t.walk [] (segmentsOf (above ++ [name])) with
    | error e => rfl
    | ok place =>
      dsimp only
      rw [if_neg (not_or.mpr ⟨notDot, notDots⟩), decide_eq_false length]

end FileTree

end Templating
