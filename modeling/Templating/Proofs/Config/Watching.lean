import Templating.Config.Check
import Templating.Proofs.Path.Parts
import Templating.Proofs.Text.AsciiCase

namespace Templating

/-- A name is cut at its last dot, if that is not its first character. -/
theorem Path.splitName_append {stem last : String} (filled : stem ≠ "") (plain : '.' ∉ last.toList) :
    splitName (stem ++ ("." ++ last)) = (stem, some last) := by
  have reversed : (stem ++ ("." ++ last)).toList.reverse = last.toList.reverse ++ '.' :: stem.toList.reverse := by
    simp
  have inside : ∀ c ∈ last.toList.reverse, (c != '.') = true := fun c member =>
    bne_iff_ne.mpr fun dot => plain (dot ▸ List.mem_reverse.mp member)
  have behind : (last.toList.reverse ++ '.' :: stem.toList.reverse).dropWhile (· != '.') =
      '.' :: stem.toList.reverse := by
    rw [List.dropWhile_append_of_pos inside, List.dropWhile_cons_of_neg (by decide)]
  have front : (last.toList.reverse ++ '.' :: stem.toList.reverse).takeWhile (· != '.') = last.toList.reverse := by
    rw [List.takeWhile_append_of_pos inside, List.takeWhile_cons_of_neg (by decide), List.append_nil]
  have named : stem.toList.reverse ≠ [] := by simpa using filled
  rw [splitName, reversed, behind, front]
  split
  next same => cases same
  next same => exact absurd (List.cons.inj same).2 named
  next same =>
    obtain ⟨_, rfl⟩ := List.cons.inj same
    rw [List.reverse_reverse, List.reverse_reverse, String.ofList_toList, String.ofList_toList]

namespace Text
variable {s t front last : String}

theorem exists_lastDot (dotted : '.' ∈ s.toList) : ∃ front last, s = front ++ ("." ++ last) ∧ '.' ∉ last.toList := by
  obtain ⟨behind, before, split, plain⟩ := List.eq_append_cons_of_mem (List.mem_reverse.mpr dotted)
  refine ⟨String.ofList before.reverse, String.ofList behind.reverse, ?_, by simpa using plain⟩
  have whole := congrArg List.reverse split
  rw [List.reverse_reverse] at whole
  rw [← String.toList_inj, whole]
  simp

/-- The last dot of a text stays where it is in any letter case, and what is behind it differs in letter case only. -/
theorem AsciiAlike.exists_lastDot (alike : AsciiAlike t (front ++ ("." ++ last))) (plain : '.' ∉ last.toList) :
    ∃ front' last', t = front' ++ ("." ++ last') ∧ '.' ∉ last'.toList ∧ AsciiAlike last' last := by
  have whole : (front ++ ("." ++ last)).toList = front.toList ++ '.' :: last.toList := by simp
  rw [AsciiAlike, whole, List.map_append, List.map_eq_append_iff] at alike
  obtain ⟨before, rest, split, _, behind⟩ := alike
  obtain ⟨c, after, rfl, isDot, same⟩ := List.map_eq_cons_iff.mp behind
  cases toLower_eq_dot_iff.mp isDot
  refine ⟨String.ofList before, String.ofList after, ?_, ?_, ?_⟩
  · rw [← String.toList_inj, split]
    simp
  · rw [String.toList_ofList]
    intro inside
    have there : '.' ∈ last.toList.map Char.toLower := same ▸ List.mem_map.mpr ⟨'.', inside, rfl⟩
    obtain ⟨c, member, isDot⟩ := List.mem_map.mp there
    exact plain (toLower_eq_dot_iff.mp isDot ▸ member)
  · rw [AsciiAlike, String.toList_ofList, same]

end Text

namespace Config
variable {c : Config} {entry stem spelled last : String} {p : Path}

/-- The extensions that are compared are the entries to watch, and those that are always watched, in lower case. -/
theorem mem_watchedExtensions {extension : String} :
    extension ∈ c.watchedExtensions ↔ ∃ entry ∈ c.watch ++ alwaysWatched, Text.lowercase entry = extension := by
  rw [watchedExtensions, List.mem_eraseDups, List.mem_map]

/-- A file with an extension is composed exactly if that extension, with its dot and in lower case, is one of the
entries in lower case. -/
theorem isWatched_iff_of_extension (extension : p.extension? = some last) :
    c.isWatched p = true ↔
      ∃ entry ∈ c.watch ++ alwaysWatched, Text.lowercase entry = Text.lowercase ("." ++ last) := by
  rw [isWatched, extension, Text.lowercase_dot]
  exact List.contains_iff_mem.trans mem_watchedExtensions

theorem dot_mem_of_isExtension (extension : isExtension entry = true) : '.' ∈ entry.toList := by
  rw [isExtension, Bool.and_eq_true, beq_iff_eq] at extension
  exact List.mem_of_head? extension.1

/-- A configuration without errors for its entries to watch has only entries that pass as extensions. -/
theorem isExtension_of_accepted {isFile : Path → Bool} {dir : Path} (accepted : ∀ e, .watch e ∉ c.errors isFile dir)
    (member : entry ∈ c.watch) : isExtension entry = true := by
  by_contra refused
  refine accepted entry ?_
  have reported : ConfigError.watch entry ∈ watchErrors c.watch :=
    List.mem_map_of_mem (List.mem_filter.mpr ⟨member, by simpa using refused⟩)
  rw [errors]
  simp only [List.mem_append]
  exact .inl (.inl (.inr reported))

/-- Of an accepted entry what stands from its last dot on decides whether the files whose names end in the entry
are composed. So they are if that is the whole entry, and else if it is an entry, too. -/
theorem isWatched_of_entry {isFile : Path → Bool} {dir : Path} (accepted : ∀ e, .watch e ∉ c.errors isFile dir)
    (member : entry ∈ c.watch) (alike : Text.AsciiAlike spelled entry) (filled : stem ≠ "")
    (named : p.fileName? = some (stem ++ spelled)) :
    ∃ front last, entry = front ++ ("." ++ last) ∧ '.' ∉ last.toList ∧
      (c.isWatched p = true ↔
        ∃ other ∈ c.watch ++ alwaysWatched, Text.lowercase other = Text.lowercase ("." ++ last)) ∧
      ('.' ∉ entry.toList.tail → c.isWatched p = true) := by
  have extension := isExtension_of_accepted accepted member
  obtain ⟨front, last, rfl, plain⟩ := Text.exists_lastDot (dot_mem_of_isExtension extension)
  obtain ⟨front', last', rfl, plain', same⟩ := alike.exists_lastDot plain
  have filled' : stem ++ front' ≠ "" := fun empty => filled (String.append_eq_empty_iff.mp empty).1
  have found : p.extension? = some last' := by
    rw [Path.extension?, named, Option.bind_some, ← String.append_assoc, Path.splitName_append filled' plain']
  have watched := isWatched_iff_of_extension (c := c) found
  rw [Text.lowercase_dot, same.lowercase_eq, ← Text.lowercase_dot] at watched
  refine ⟨front, last, rfl, plain, watched, fun single => watched.mpr ?_⟩
  have whole : front = "" := by
    by_contra more
    obtain ⟨first, rest, split⟩ := List.exists_cons_of_ne_nil (mt String.toList_eq_nil_iff.mp more)
    exact single (by simp [split])
  exact ⟨_, List.mem_append_left _ member, by rw [whole, String.empty_append]⟩

/-- A configuration that watches templates and packed archives. -/
def archiving : Config := { default with watch := [".tpl", ".tar.gz"] }

theorem isWatched_of_entry_archiving :
    (∀ e, ConfigError.watch e ∉ archiving.errors (fun _ => false) ⟨"/site"⟩) ∧ ".tpl" ∈ archiving.watch ∧
      Text.AsciiAlike ".Tpl" ".tpl" ∧ (⟨"/site/page.Tpl"⟩ : Path).fileName? = some ("page" ++ ".Tpl") ∧
        archiving.isWatched ⟨"/site/page.Tpl"⟩ = true := by
  have accepted : archiving.errors (fun _ => false) ⟨"/site"⟩ = [] := by decide +kernel
  have none (e : String) : ConfigError.watch e ∉ archiving.errors (fun _ => false) ⟨"/site"⟩ := by
    rw [accepted]
    exact List.not_mem_nil
  have member : ".tpl" ∈ archiving.watch := by decide
  have alike : Text.AsciiAlike ".Tpl" ".tpl" := by decide
  have named : (⟨"/site/page.Tpl"⟩ : Path).fileName? = some ("page" ++ ".Tpl") := by decide +kernel
  obtain ⟨_, _, _, _, _, effective⟩ := isWatched_of_entry none member alike (by decide) named
  refine ⟨none, member, alike, named, effective (by decide)⟩

/-- An entry with two dots is accepted, but a file whose name ends in it is not composed: only the part from the last
dot on is compared, and that is no entry. -/
theorem isWatched_archive_eq_false :
    archiving.errors (fun _ => false) ⟨"/site"⟩ = [] ∧ ".tar.gz" ∈ archiving.watch ∧
      (⟨"/site/page.tar.gz"⟩ : Path).fileName? = some ("page" ++ ".tar.gz") ∧
        archiving.isWatched ⟨"/site/page.tar.gz"⟩ = false := by
  refine ⟨by decide +kernel, by decide, by decide +kernel, by decide +kernel⟩

end Config

end Templating
