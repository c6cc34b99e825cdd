import Templating.Path.Target
import Templating.Proofs.Path.Places

namespace Templating.Path

variable {base below above : Location} {name : String}

theorem relative_eq (below : Location) : relative below = ⟨"/".intercalate below⟩ := by
  have texts : (below.map Component.name).map Component.text = below := by
    rw [List.map_map]
    exact List.map_id below
  have whole : relative below = ⟨"/".intercalate ((below.map Component.name).map Component.text)⟩ := by
    cases below <;> rfl
  rw [whole, texts]

theorem fileName?_ofLocation (named : Location.Named (above ++ [name])) :
    (ofLocation (above ++ [name])).fileName? = some name := by
  rw [fileName?, components_ofLocation named, List.map_append, ← List.cons_append, List.map_singleton,
    List.getLast?_concat]

/-- A name without a dot that counts is its own stem. Otherwise the stem, a dot and the extension are the name. -/
theorem splitName_cases (name : String) :
    splitName name = (name, none) ∨
      ∃ stem extension, splitName name = (stem, some extension) ∧ stem ++ ("." ++ extension) = name := by
  have whole := @List.takeWhile_append_dropWhile _ (· != '.') name.toList.reverse
  unfold splitName
  dsimp only
  split
  · exact .inl rfl
  · exact .inl rfl
  next dot stem _ rest =>
    have isDot : dot = '.' := by
      have stopped := List.head?_dropWhile_not (· != '.') name.toList.reverse
      rw [rest] at stopped
      simpa using stopped
    refine .inr ⟨_, _, rfl, ?_⟩
    rw [rest, isDot] at whole
    generalize name.toList.reverse.takeWhile (· != '.') = extension at whole ⊢
    have forward := congrArg List.reverse whole
    rw [List.reverse_reverse] at forward
    rw [← String.toList_inj, ← forward]
    simp

/-- Seen from a directory above, a location is the names that are left behind those of the directory. -/
theorem relativeTo?_ofLocation (named : Location.Named (base ++ below)) :
    (ofLocation (base ++ below)).relativeTo? (ofLocation base) = some (below.map .name) := by
  have namedBase := (Location.named_append.mp named).1
  rw [relativeTo?, if_pos ((startsWith_ofLocation named namedBase).mpr (List.prefix_append base below)),
    components_ofLocation named, components_ofLocation namedBase, List.map_append, ← List.cons_append,
    List.drop_left]

/-- The directories below one are spelled with a separator after each, so that nothing at all is spelled for the
directory itself. -/
theorem relativeDirname_ofLocation (named : Location.Named (base ++ below)) :
    relativeDirname (ofLocation (base ++ below)) (ofLocation base) = String.join (below.map (· ++ "/")) := by
  rw [relativeDirname, relativeTo?_ofLocation named]
  dsimp only
  rw [List.filterMap_map]
  exact congrArg String.join (congrFun (List.filterMap_eq_map (f := (· ++ "/"))) below)

theorem join_dirs_append (dirs : Location) (name : String) :
    String.join (dirs.map (· ++ "/")) ++ name = "/".intercalate (dirs ++ [name]) := by
  induction dirs with
  | nil => simp
  | cons first dirs ih =>
    rw [List.cons_append, String.intercalate_cons_of_ne_nil (by simp), ← ih, List.map_cons, String.join_cons,
      String.append_assoc]

theorem join_dirs_concat (named : Location.Named (above ++ [name])) :
    ∃ front, String.join ((above ++ [name]).map (· ++ "/")) = front ++ "/" ∧ front ≠ "" ∧
      front.toList.getLast? ≠ some '/' := by
  have isName := (Location.named_concat.mp named).2
  refine ⟨String.join (above.map (· ++ "/")) ++ name, by simp [String.append_assoc], ?_, ?_⟩
  · intro empty
    exact isName.2.1 (String.append_eq_empty_iff.mp empty).2
  · have ends := List.getLast?_eq_some_getLast isName.toList_ne.1
    rw [String.toList_append, List.getLast?_append, ends, Option.some_or]
    intro slash
    exact isName.1 (Option.some.inj slash ▸ List.mem_of_getLast? ends)

theorem join_dirs_eq_empty_iff {dirs : Location} : String.join (dirs.map (· ++ "/")) = "" ↔ dirs = [] := by
  cases dirs <;> simp [String.append_eq_empty_iff]

theorem join_dirs_empty_or {dirs : Location} (named : Location.Named dirs) :
    String.join (dirs.map (· ++ "/")) = "" ∨ ∃ front, String.join (dirs.map (· ++ "/")) = front ++ "/" ∧
      front ≠ "" ∧ front.toList.getLast? ≠ some '/' := by
  rcases List.eq_nil_or_concat dirs with rfl | ⟨above, name, rfl⟩
  · exact .inl (join_dirs_eq_empty_iff.mpr rfl)
  · rw [List.concat_eq_append] at named ⊢
    exact .inr (join_dirs_concat named)

end Templating.Path
