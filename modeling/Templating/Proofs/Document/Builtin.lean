import Templating.Proofs.Document.Loading
import Templating.Proofs.Document.Values
import Templating.Proofs.OrderedMap
import Templating.Proofs.Path.Parts

namespace Templating
open Text

/-- The stem of a file name and the extension with its dot spell the whole name, also for names that begin or end in
dots. -/
theorem Node.filename_append_extname {n : Node} {name : String} (there : n.src.fileName? = some name) :
    n.filename ++ n.extname = name := by
  have extension : n.src.extension? = (Path.splitName name).2 := by
    rw [Path.extension?, there, Option.bind_some]
  have stem : n.filename = (Path.splitName name).1 := by
    rw [filename, Path.stem, there]
  rw [stem, extname, extension]
  rcases Path.splitName_cases name with same | ⟨stem, extension, same, whole⟩
  · rw [same]
    exact String.append_empty
  · rw [same]
    exact whole

/-- No other value is registered under a key that every document has. -/
def Options.KeepsBuiltin (o : Options) : Prop :=
  (∀ entry ∈ builtinData, entry ∈ o.data) ∧
    ∀ entry ∈ o.data, lowercase entry.1 ∈ builtinData.keys → entry ∈ builtinData

namespace Composer
variable {o : Options} {c : Composer} {d : Document} {root src : Path} {source : String} {names : List String}

/-- A key that every document has keeps its value if no other value is registered under a spelling of it. -/
theorem value?_of_builtin (made : Composer.new o = .ok c) (opened : c.document src source = .ok d)
    (keeps : o.KeepsBuiltin) {key : String} {value : DataValue} (member : (key, value) ∈ builtinData) :
    d.setting.value? key = some (value.evaluate d.page) := by
  obtain ⟨kept, only⟩ := keeps
  have listed : key ∈ builtinData.keys := List.mem_map_of_mem member
  obtain ⟨⟨key', value'⟩, there, alike, known⟩ :=
    exists_value?_of_key made opened (List.mem_map_of_mem (kept _ member)) (rfl : lowercase key = _)
  rw [lowercase_of_builtin listed] at alike
  have isBuiltin := only _ there (alike ▸ listed)
  obtain rfl : key' = key := (lowercase_of_builtin (List.mem_map_of_mem isBuiltin)).symm.trans alike
  have nodup : builtinData.keys.Nodup := by decide
  have found := OrderedMap.lookup_of_mem nodup isBuiltin
  rw [OrderedMap.lookup_of_mem nodup member] at found
  rw [known, Option.some.inj found]

/-- Where a page lies below its root directory, by names. The root may be given in any spelling, as long as it is one
from the root. -/
theorem exists_location_page (rooted : root.isRooted = true) (base : o.root = root.normalize)
    (made : Composer.new o = .ok c) (opened : c.document src source = .ok d)
    (below : d.page.src.components = root.normalize.components ++ names.map .name) :
    ∃ above, Location.Named (above ++ names) ∧ c.options.root = .ofLocation above ∧
      d.page.root = .ofLocation above ∧ d.page.src = .ofLocation (above ++ names) := by
  obtain ⟨above, named, normal⟩ := Path.exists_location_normalize rooted
  obtain ⟨page, _⟩ := document_eq opened
  have pageSrc : d.page.src = c.resolve src := (congrArg Node.src page :)
  have pageRoot : d.page.root = c.options.root := (congrArg Node.root page :)
  have options : c.options.root = .ofLocation above := by rw [(new_eq made).1, base, normal]
  have srcRooted : d.page.src.isRooted = true := by
    rw [pageSrc, resolve, Path.isRooted_normalize, Path.isRooted_join, options, Path.isRooted_ofLocation, Bool.or_true]
  obtain ⟨loc, namedLoc, there⟩ := Path.exists_location srcRooted (Composer.made opened).src
  rw [there, normal, Path.components_ofLocation namedLoc, Path.components_ofLocation named, List.cons_append,
    ← List.map_append] at below
  obtain rfl : loc = above ++ names :=
    List.map_injective_iff.mpr Path.Component.name_injective (List.cons.inj below).2
  exact ⟨above, namedLoc, options, pageRoot.trans options, there⟩

/-- For a page below the root directory, what every document says of its page spells the names that lead there, and
names the page again. Directories are spelled with one separator at the end, and there are none only directly in the
root directory. Nothing is assumed of the names. -/
theorem builtin_spells_src (rooted : root.isRooted = true) (base : o.root = root.normalize)
    (made : Composer.new o = .ok c) (opened : c.document src source = .ok d)
    (below : d.page.src.components = root.normalize.components ++ names.map .name) (nonempty : names ≠ []) :
    ∃ dirname filename extname,
      builtinData.map (fun (key, value) => (key, value.evaluate d.page)) =
        [("dirname", dirname), ("filename", filename), ("extname", extname)] ∧
      (o.KeepsBuiltin → d.setting.value? "dirname" = some dirname ∧
        d.setting.value? "filename" = some filename ∧ d.setting.value? "extname" = some extname) ∧
      dirname ++ filename ++ extname = "/".intercalate names ∧
      c.resolve ⟨dirname ++ filename ++ extname⟩ = d.page.src ∧
      (dirname = "" ↔ names.length = 1) ∧
      (dirname = "" ∨ ∃ front, dirname = front ++ "/" ∧ front ≠ "" ∧ front.toList.getLast? ≠ some '/') := by
  obtain ⟨above, named, options, pageRoot, pageSrc⟩ := exists_location_page rooted base made opened below
  obtain ⟨dirs, name, rfl⟩ := (List.eq_nil_or_concat names).resolve_left nonempty
  rw [List.concat_eq_append] at named pageSrc nonempty ⊢
  have namedDirs : Location.Named (above ++ dirs) := (Location.named_concat.mp (List.append_assoc .. ▸ named)).1
  rw [← List.append_assoc] at pageSrc
  have directory : d.page.dirname = .ofLocation (above ++ dirs) := by
    rw [Node.dirname, pageSrc, Path.parent?_ofLocation (List.append_assoc .. ▸ named)]
    rfl
  have spelled : Path.relativeDirname d.page.dirname d.page.root = String.join (dirs.map (· ++ "/")) := by
    rw [directory, pageRoot, Path.relativeDirname_ofLocation namedDirs]
  have called : d.page.filename ++ d.page.extname = name := by
    apply Node.filename_append_extname
    rw [pageSrc, Path.fileName?_ofLocation (List.append_assoc .. ▸ named)]
  have whole : Path.relativeDirname d.page.dirname d.page.root ++ d.page.filename ++ d.page.extname =
      "/".intercalate (dirs ++ [name]) := by
    rw [String.append_assoc, called, spelled, Path.join_dirs_append]
  refine ⟨Path.relativeDirname d.page.dirname d.page.root, d.page.filename, d.page.extname, rfl,
    fun keeps => ?known, whole, ?resolved, ?direct, ?one⟩
  case known =>
    have known {key : String} {value : DataValue} := @value?_of_builtin _ _ _ _ _ made opened keeps key value
    exact ⟨known (.head _), known (.tail _ (.head _)), known (.tail _ (.tail _ (.head _)))⟩
  case resolved =>
    have namedBelow := Location.named_append.mp named
    rw [whole, ← Path.relative_eq, resolve, options, Path.join_relative namedBelow.1 namedBelow.2 nonempty,
      Path.normalize_ofLocation named, pageSrc, List.append_assoc]
  case direct =>
    rw [spelled, Path.join_dirs_eq_empty_iff]
    simp
  case one =>
    rw [spelled]
    exact Path.join_dirs_empty_or (Location.named_append.mp namedDirs).2

/-- Names with dots in all places, a space and a backslash. -/
theorem builtin_spells_src_dotted :
    ∃ c d, Composer.new (.new ⟨"/site/./"⟩) = .ok c ∧ c.document ⟨"a\\b/.. c/..x.y."⟩ "" = .ok d ∧
      d.setting.value? "dirname" = some "a\\b/.. c/" ∧ d.setting.value? "filename" = some "..x.y" ∧
      d.setting.value? "extname" = some "." ∧
      c.resolve ⟨"a\\b/.. c/" ++ "..x.y" ++ "."⟩ = d.page.src := by
  obtain ⟨c, made, _⟩ := exists_new_of_usable (o := .new ⟨"/site/./"⟩) (by decide) (by decide)
  obtain ⟨d, opened, _⟩ := @document_of_named c ⟨"a\\b/.. c/..x.y."⟩ (by decide) ""
  have page := (document_eq opened).1
  rw [resolve, (new_eq made).1] at page
  have place : d.page.src = ⟨"/site/a\\b/.. c/..x.y."⟩ := by
    rw [page]
    decide +kernel
  have below : d.page.src.components =
      (Path.mk "/site/./").normalize.components ++ ["a\\b", ".. c", "..x.y."].map .name := by
    rw [place]
    decide +kernel
  obtain ⟨dirname, filename, extname, values, known, _, resolved, _⟩ :=
    builtin_spells_src (by decide) rfl made opened below (by simp)
  have spelled : builtinData.map (fun (key, value) => (key, value.evaluate d.page)) =
      [("dirname", "a\\b/.. c/"), ("filename", "..x.y"), ("extname", ".")] := by
    rw [page]
    decide +kernel
  cases spelled.symm.trans values
  obtain ⟨dir, file, ext⟩ := known ⟨fun _ member => member, fun _ member _ => member⟩
  exact ⟨c, d, made, opened, dir, file, ext, resolved⟩

end Composer

end Templating
