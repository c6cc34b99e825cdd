import Templating.Proofs.Files.Access

namespace Templating

/-- A path leads where its segments lead, from the root or from the working directory. -/
theorem Path.location_eq_steps_from (p : Path) (here : Location) :
    p.location here = p.steps.foldl Component.walk (if p.isRooted then [] else here) := by
  cases rooted : p.isRooted with
  | false => rw [location_eq_steps rooted, if_neg Bool.false_ne_true]
  | true =>
    rw [location, components, start, rooted, if_pos rfl, if_pos rfl]
    rfl

namespace FileTree
variable {t t' t'' : FileTree} {here dir next loc : Location} {p : Path} {bytes : List UInt8}

theorem enter_ok {segment : List Char} (entered : enter dir segment = .ok next) :
    next = (Path.Component.ofSegment? segment).elim dir (Path.Component.walk dir) := by
  unfold enter at entered
  unfold Path.Component.ofSegment?
  split at entered
  next idle =>
    rw [if_pos idle]
    exact (Except.ok.inj entered).symm
  next other =>
    rw [if_neg other]
    split at entered
    next up =>
      rw [if_pos up]
      exact (Except.ok.inj entered).symm
    next down =>
      rw [if_neg down]
      dsimp only at entered
      split at entered
      next => cases entered
      next => exact (Except.ok.inj entered).symm

/-- A walk that gets through leads where its segments say, whatever is in the tree. -/
theorem walk_ok {segments : List (List Char)} (walked : t.walk dir segments = .ok loc) :
    loc = (segments.filterMap Path.Component.ofSegment?).foldl Path.Component.walk dir := by
  induction segments generalizing dir with
  | nil => exact (Except.ok.inj walked).symm
  | cons segment more ih =>
    rw [walk] at walked
    split at walked
    next => cases walked
    next => cases walked
    next =>
      obtain ⟨next, entered, rest⟩ := Except.bind_eq_ok_iff.mp walked
      rw [ih rest, enter_ok entered]
      cases found : Path.Component.ofSegment? segment with
      | none => rw [List.filterMap_cons_none found, Option.elim_none]
      | some c => rw [List.filterMap_cons_some found, List.foldl_cons, Option.elim_some]

theorem route_ok {start : Location × List (List Char)} (routed : route dir p = .ok start) :
    start = (if p.isRooted then [] else dir, Path.segments p.text.toList) := by
  unfold route at routed
  split at routed
  next => cases routed
  next =>
    split at routed
    next => cases routed
    next =>
      split at routed
      next => cases routed
      next => exact (Except.ok.inj routed).symm

theorem filterMap_dropWhile_reverse (segments : List (List Char)) :
    (segments.reverse.dropWhile (· == [])).reverse.filterMap Path.Component.ofSegment? =
      segments.filterMap Path.Component.ofSegment? := by
  have idle : ((segments.reverse.takeWhile (· == [])).reverse).filterMap Path.Component.ofSegment? = [] := by
    refine List.filterMap_eq_nil_iff.mpr fun segment member => ?_
    have empty := List.all_eq_true.mp List.all_takeWhile segment (List.mem_reverse.mp member)
    rw [beq_iff_eq.mp empty]
    rfl
  have split : segments = (segments.reverse.dropWhile (· == [])).reverse ++
      (segments.reverse.takeWhile (· == [])).reverse := by
    rw [← List.reverse_append, List.takeWhile_append_dropWhile, List.reverse_reverse]
  conv_rhs => rw [split, List.filterMap_append, idle, List.append_nil]

theorem spot_named {spot : Spot} (spotted : t.spot here p = .ok spot) (named : spot.named = true) :
    spot.location = p.location here ∧ spot.location ≠ [] := by
  obtain ⟨start, routed, rest⟩ := Except.bind_eq_ok_iff.mp spotted
  cases route_ok routed
  dsimp only at rest
  have back := filterMap_dropWhile_reverse (Path.segments p.text.toList)
  split at rest
  next =>
    cases rest
    cases named
  next last before reversed =>
    have nonempty : last ≠ [] := by
      have head := List.head?_dropWhile_not (· == []) (Path.segments p.text.toList).reverse
      rw [reversed] at head
      exact beq_eq_false_iff_ne.mp head
    rw [reversed, List.reverse_cons] at back
    obtain ⟨loc, walked, rest⟩ := Except.bind_eq_ok_iff.mp rest
    have place := walk_ok walked
    split at rest
    next =>
      split at rest
      next =>
        cases rest
        cases named
      next => cases rest
    next name =>
      obtain ⟨notDot, notDots⟩ := not_or.mp name
      cases rest
      refine ⟨by rw [place, back, Path.location_eq_steps_from]; rfl, ?_⟩
      have found : Path.Component.ofSegment? last = some (.name (String.ofList last)) := by
        rw [Path.Component.ofSegment?, if_neg (not_or.mpr ⟨nonempty, notDot⟩), if_neg notDots]
      rw [place, List.filterMap_append, List.filterMap_cons_some found, List.foldl_append]
      exact List.append_ne_nil_of_right_ne_nil _ (List.cons_ne_nil _ _)

/-- A file that is written comes where its path leads and in place of no directory, for any path and any tree. -/
theorem write_ok (wrote : t.write here p bytes = .ok t') :
    p.location here ≠ [] ∧ t.entry? (p.location here) ≠ some .directory ∧
      t' = t.put (p.location here) (.file bytes) := by
  obtain ⟨spot, spotted, rest⟩ := Except.bind_eq_ok_iff.mp wrote
  split at rest
  next => cases rest
  next takes =>
    obtain ⟨place, inner⟩ := spot_named spotted (by simpa using (not_or.mp (mt Bool.or_eq_true_iff.mpr takes)).1)
    rw [place] at rest inner
    split at rest
    next => cases rest
    next other => exact ⟨inner, other, (Except.ok.inj rest).symm⟩

/-- A directory that is made comes where its path leads and where nothing was, for any path and any tree. -/
theorem makeDirectory_ok (made : t.makeDirectory here p = .ok t') :
    p.location here ≠ [] ∧ t.entry? (p.location here) = none ∧ t' = t.put (p.location here) .directory := by
  obtain ⟨spot, spotted, rest⟩ := Except.bind_eq_ok_iff.mp made
  split at rest
  next => cases rest
  next free =>
    obtain ⟨named, missing⟩ := not_or.mp (mt Bool.or_eq_true_iff.mpr free)
    obtain ⟨place, inner⟩ := spot_named spotted (by simpa using named)
    rw [place] at rest inner missing
    exact ⟨inner, by simpa using missing, (Except.ok.inj rest).symm⟩

theorem walk_append (t : FileTree) (dir : Location) (first rest : List (List Char)) :
    t.walk dir (first ++ rest) = (t.walk dir first).bind fun middle => t.walk middle rest := by
  induction first generalizing dir with
  | nil => rfl
  | cons segment more ih =>
    rw [List.cons_append, walk, walk]
    cases t.entry? dir with
    | none => rfl
    | some e =>
      cases e with
      | file bytes => rfl
      | directory =>
        dsimp only
        cases enter dir segment with
        | error error => rfl
        | ok next => exact ih next

/-- A path that leads to a directory has been walked to its end and leads to where its segments say. -/
theorem exists_of_isDirectory (directory : t.isDirectory here p = true) :
    p.text ≠ "" ∧ t.walk (if p.isRooted then [] else here) (Path.segments p.text.toList) = .ok (p.location here) ∧
      t.entry? (p.location here) = some .directory := by
  unfold isDirectory at directory
  split at directory
  next loc found =>
    obtain ⟨start, routed, rest⟩ := Except.bind_eq_ok_iff.mp found
    have nonempty : p.text ≠ "" := by
      intro empty
      rw [route, if_pos empty] at routed
      cases routed
    cases route_ok routed
    obtain ⟨place, walked, there⟩ := Except.bind_eq_ok_iff.mp rest
    have leads := (walk_ok walked).trans (p.location_eq_steps_from here).symm
    rw [leads] at walked there
    split at there
    next e found' =>
      cases there
      exact ⟨nonempty, walked, found'⟩
    next => cases there
  next => cases directory

/-- An entry of a directory that is found is found too, if the system takes its path. -/
theorem present_join {name : String} {e : Entry} {start : Location × List (List Char)}
    (directory : t.isDirectory here p = true) (isName : Path.IsName name) (short : name.utf8ByteSize ≤ longestName)
    (routed : route here (p.join ⟨name⟩) = .ok start) (there : t.entry? (p.location here ++ [name]) = some e) :
    t.present here (p.join ⟨name⟩) = true := by
  obtain ⟨nonempty, walked, opens⟩ := exists_of_isDirectory directory
  have relative : (⟨name⟩ : Path).isRooted = false := by
    rw [Path.isRooted, beq_eq_false_iff_ne]
    intro rooted
    obtain ⟨rest, split⟩ := List.head?_eq_some_iff.mp rooted
    exact isName.1 (split ▸ List.mem_cons_self)
  have single : Path.segments name.toList = [name.toList] := by
    have plain : ∀ part ∈ [name.toList], '/' ∉ part := List.forall_mem_singleton.mpr isName.1
    have parts := Path.segments_intercalate plain (List.cons_ne_nil _ _)
    rwa [List.intercalate_singleton] at parts
  obtain ⟨front, whole, text⟩ := Path.toList_join relative nonempty
  have reached : t.walk (if p.isRooted then [] else here) (Path.segments front) = .ok (p.location here) := by
    -- A separator that the path has already at its end is not put in again; it leads nowhere.
    rcases text with ⟨same, _⟩ | slash
    · rwa [← same]
    · rw [slash, Path.segments_append_slash, walk_append] at walked
      obtain ⟨middle, first, last⟩ := Except.bind_eq_ok_iff.mp walked
      rw [first]
      change t.walk middle [[]] = _ at last
      rw [walk] at last
      split at last
      next => cases last
      next => cases last
      next => exact last
  have behind : t.walk (if (p.join ⟨name⟩).isRooted then [] else here) (Path.segments (p.join ⟨name⟩).text.toList) =
      .ok (p.location here ++ [name]) := by
    rw [Path.isRooted_join, relative, Bool.false_or, whole, Path.segments_append_slash, single, walk_append, reached]
    exact (walk_directory opens isName []).trans (if_neg (Nat.not_lt.mpr short))
  have found : t.find here (p.join ⟨name⟩) = .ok (p.location here ++ [name], e) := by
    cases route_ok routed
    exact Except.bind_eq_ok_iff.mpr ⟨_, routed, Except.bind_eq_ok_iff.mpr ⟨_, behind, by rw [there]⟩⟩
  rw [present, found]

/-- Nothing has changed but for new directories, where `dirs` allows them, and files, where `files` allows
them. No file has come in place of a directory. -/
def Touches (dirs : Location → Prop) (files : Location → List UInt8 → Prop) (t t' : FileTree) : Prop :=
  ∀ l, t'.entry? l = t.entry? l ∨ (dirs l ∧ t.entry? l = none ∧ t'.entry? l = some .directory) ∨
    ∃ bytes, files l bytes ∧ t.entry? l ≠ some .directory ∧ t'.entry? l = some (.file bytes)

namespace Touches
variable {dirs : Location → Prop} {files : Location → List UInt8 → Prop}

theorem refl (t : FileTree) : Touches dirs files t t := fun _ => .inl rfl

/-- Two changes one after the other touch no more than what both may touch. A directory that the first made is not
replaced by the second. -/
theorem trans (first : Touches dirs files t t') (second : Touches dirs files t' t'') :
    Touches dirs files t t'' := by
  intro l
  rcases second l with same | ⟨allowed, missing, made⟩ | ⟨bytes, allowed, other, wrote⟩
  · rw [same]
    exact first l
  · rcases first l with same | ⟨_, _, made'⟩ | ⟨_, _, _, wrote'⟩
    · exact .inr (.inl ⟨allowed, same ▸ missing, made⟩)
    · cases missing.symm.trans made'
    · cases missing.symm.trans wrote'
  · refine .inr (.inr ⟨bytes, allowed, fun directory => ?_, wrote⟩)
    rcases first l with same | ⟨_, _, made'⟩ | ⟨_, _, other', _⟩
    · exact other (same.trans directory)
    · exact other made'
    · exact other' directory

theorem write (wrote : t.write here p bytes = .ok t') (allowed : files (p.location here) bytes) :
    Touches dirs files t t' := by
  obtain ⟨inner, other, rfl⟩ := write_ok wrote
  intro l
  rw [entry?_put inner]
  split
  next same => exact .inr (.inr ⟨bytes, same ▸ allowed, same ▸ other, rfl⟩)
  next => exact .inl rfl

theorem makeDirectory (made : t.makeDirectory here p = .ok t') (allowed : dirs (p.location here)) :
    Touches dirs files t t' := by
  obtain ⟨inner, missing, rfl⟩ := makeDirectory_ok made
  intro l
  rw [entry?_put inner]
  split
  next same => exact .inr (.inl ⟨same ▸ allowed, same ▸ missing, rfl⟩)
  next => exact .inl rfl

/-- Whether or not all directories can be made, those that are made lie where the paths above lead. Attempts that fail
on the way have touched nothing else. -/
theorem makeDirectories {paths : Path → Prop} (closed : ∀ {p above}, paths p → p.parent? = some above → paths above)
    (inside : ∀ {p}, paths p → dirs (p.location here)) (fuel : Nat) (t : FileTree) (allowed : paths p) :
    Touches dirs files t (FileTree.makeDirectories here fuel t p).2 := by
  induction fuel generalizing t p with
  | zero => exact .refl t
  | succ fuel ih =>
    rw [FileTree.makeDirectories]
    split
    next => exact .refl t
    next =>
      split
      next made making => exact .makeDirectory making (inside allowed)
      next =>
        split
        next => exact .refl t
        next above parent =>
          have first := ih t (closed allowed parent)
          split
          next e t' ran =>
            rw [ran] at first
            exact first
          next t' ran =>
            rw [ran] at first
            split
            next made making => exact first.trans (.makeDirectory making (inside allowed))
            next => exact first
      next => exact .refl t

end Touches

end FileTree

end Templating
