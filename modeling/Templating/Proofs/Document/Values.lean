import Templating.Proofs.Document.Runs
import Templating.Proofs.Scan.Search
import Templating.Proofs.Text.Spelling

namespace Templating

section Lookup
variable {α : Type} {pairs : List (String × α)} {key : String}

/-- A key that is among the pairs is found from behind, with a value that stands beside it. -/
theorem exists_lookup_reverse (member : key ∈ pairs.map Prod.fst) :
    ∃ value, pairs.reverse.lookup key = some value ∧ (key, value) ∈ pairs := by
  obtain ⟨pair, there, rfl⟩ := List.mem_map.mp member
  have found : (pairs.reverse.lookup pair.1).isSome = true :=
    List.lookup_isSome_iff.mpr ⟨pair, List.mem_reverse.mpr there, beq_self_eq_true _⟩
  obtain ⟨value, found⟩ := Option.isSome_iff_exists.mp found
  obtain ⟨before, after, split, _⟩ := List.lookup_eq_some_iff.mp found
  refine ⟨value, found, List.mem_reverse.mp ?_⟩
  rw [split]
  exact List.mem_append_right before (List.mem_cons_self ..)

end Lookup

theorem lowercase_of_builtin {key : String} (member : key ∈ builtinData.keys) : Text.lowercase key = key := by
  have lowered : ∀ key ∈ builtinData.keys, Text.lowercase key = key := by decide +kernel
  exact lowered key member

namespace Composer
open Text

variable {o : Options} {c : Composer} {d : Document} {src : Path} {page source k : String} {start : Nat} {hit : Hit}

/-- A composer is made of options exactly with these options, their tags and the keys that a scan looks for. -/
theorem new_eq_ok_iff : Composer.new o = .ok c ↔
    c.options = o ∧ c.scanner.tags = o.tags ∧ c.scanner.keys = scanKeys o.tags o.data.keys := by
  rw [← Scanner.new_eq_ok_iff]
  unfold Composer.new
  constructor
  · intro made
    split at made
    next s new =>
      cases made
      exact ⟨rfl, new⟩
    next => cases made
  · rintro ⟨rfl, new⟩
    rw [new]

theorem new_eq (made : Composer.new o = .ok c) :
    c.options = o ∧ c.scanner.keys = scanKeys o.tags o.data.keys :=
  (new_eq_ok_iff.mp made).imp_right And.right

theorem exists_new_of_usable (data : o.tags.data.hasEmpty = false) (directive : o.tags.directive.hasEmpty = false) :
    ∃ c, Composer.new o = .ok c ∧ c.scanner.tags = o.tags ∧ c.scanner.keys = scanKeys o.tags o.data.keys :=
  ⟨⟨o, o.tags, scanKeys o.tags o.data.keys, data, directive⟩, new_eq_ok_iff.mpr ⟨rfl, rfl, rfl⟩, rfl, rfl⟩

theorem setting_of_document (opened : c.document src page = .ok d) :
    d.setting.scanner = c.scanner ∧ d.setting.values = c.values d.page := by
  unfold Composer.document at opened
  split at opened
  · cases opened
  · cases opened
    exact ⟨rfl, rfl⟩

/-- A data key that a scan finds is a spelling of a registered one, white space around that aside. -/
theorem exists_key_of_next? (made : Composer.new o = .ok c) (found : c.scanner.next? source start = some hit)
    (data : hit.directive = .data k) : ∃ key ∈ o.data.keys, fold (keyForm key) = fold k := by
  obtain ⟨_, keys⟩ := new_eq made
  have inked : ∀ key ∈ c.scanner.keys, Inked key.toList := by
    intro key member
    rw [keys] at member
    exact inked_of_mem_scanKeys member
  obtain ⟨form, member, spells⟩ := Scanner.spells_of_next? inked found data
  rw [keys] at member
  obtain ⟨⟨key, registered, rfl⟩, _⟩ := mem_scanKeys.mp member
  exact ⟨key, registered, fold_eq_fold_iff.mpr spells⟩

/-- A registered key with the same lower case gives a key its value, which is the value of some entry with that lower
case. -/
theorem exists_value?_of_key {key : String} (made : Composer.new o = .ok c)
    (opened : c.document src page = .ok d) (registered : key ∈ o.data.keys) (same : lowercase key = lowercase k) :
    ∃ entry ∈ o.data, lowercase entry.1 = lowercase k ∧ d.setting.value? k = some (entry.2.evaluate d.page) := by
  obtain ⟨options, _⟩ := new_eq made
  obtain ⟨_, values⟩ := setting_of_document opened
  rw [Composer.values, options] at values
  have member : lowercase k ∈ d.setting.values.map Prod.fst := by
    obtain ⟨entry, there, rfl⟩ := List.mem_map.mp registered
    rw [values, List.map_map, ← same]
    exact List.mem_map_of_mem there
  obtain ⟨value, found, pair⟩ := exists_lookup_reverse member
  rw [values] at pair
  obtain ⟨entry, there, here⟩ := List.mem_map.mp pair
  obtain ⟨lower, evaluated⟩ := Prod.mk.inj here
  exact ⟨entry, there, lower, found.trans (congrArg some evaluated.symm)⟩

/-- A data key that a scan finds has a value under two conditions: no registered key has white space around it, and
those of the same folding have the same lower case. -/
theorem exists_substituted (made : Composer.new o = .ok c) (opened : c.document src page = .ok d)
    (found : c.scanner.next? source start = some hit) (data : hit.directive = .data k)
    (bare : ∀ key ∈ o.data.keys, trim key = key)
    (agree : ∀ key ∈ o.data.keys, fold (lowercase key) = fold k → lowercase key = lowercase k) :
    ∃ entry ∈ o.data, lowercase entry.1 = lowercase k ∧ d.setting.value? k = some (entry.2.evaluate d.page) := by
  obtain ⟨key, registered, spelled⟩ := exists_key_of_next? made found data
  rw [keyForm, bare key registered] at spelled
  exact exists_value?_of_key made opened registered (agree key registered spelled)

/-- A data key with a value is replaced by that value as a piece of its own, and the node goes on behind the
directive. -/
theorem advance_of_value {setting : Setting} {s : State} {node : Node} {value : String}
    (found : setting.scanner.next? node.source node.index = some hit) (data : hit.directive = .data k)
    (known : setting.value? k = some value) :
    setting.advance s node = .step (((s.emit (slice node.source node.index hit.start) node.role).modify
      fun n => { n with index := hit.stop }).emit value node.role) := by
  simp only [Setting.advance, found, data, known, Option.getD_some]

/-- Where no key has white space around it and each has the lower case of its spelling that is found, a data key that
a scan finds has a value, and is replaced by it. Without these two conditions it may be left as it is. -/
theorem value?_of_next? (made : Composer.new o = .ok c) (opened : c.document src page = .ok d)
    (found : c.scanner.next? source start = some hit) (data : hit.directive = .data k)
    (bare : ∀ key ∈ o.data.keys, trim key = key)
    (agree : ∀ key ∈ o.data.keys, fold (lowercase key) = fold k → lowercase key = lowercase k) :
    ∃ entry ∈ o.data, lowercase entry.1 = lowercase k ∧
      d.setting.value? k = some (entry.2.evaluate d.page) ∧
      ∀ s node, node.source = source → node.index = start →
        d.setting.advance s node = .step (((s.emit (slice source start hit.start) node.role).modify
          fun n => { n with index := hit.stop }).emit (entry.2.evaluate d.page) node.role) := by
  obtain ⟨entry, there, lower, known⟩ := exists_substituted made opened found data bare agree
  refine ⟨entry, there, lower, known, ?_⟩
  rintro s node rfl rfl
  rw [← (setting_of_document opened).1] at found
  exact advance_of_value found data known

/-- A root directory and one text value. -/
def valued (key value : String) : Options := ⟨⟨"/site"⟩, .default, [(key, .text value)], .none⟩

theorem new_valued (key form value : String) (keys : scanKeys .default [key] = [form]) :
    Composer.new (valued key value) = .ok ⟨valued key value, .default, [form], by decide, by decide⟩ := by
  simp only [Composer.new, Scanner.new, valued, OrderedMap.keys, List.map_cons, List.map_nil, keys]
  rfl

theorem value?_of_next?_capitals :
    ∃ c d, Composer.new (valued "Name" "x") = .ok c ∧
      c.document ⟨"a.html"⟩ "\x7b\x7b NAME \x7d\x7d" = .ok d ∧
      c.scanner.next? d.page.source d.page.index = some ⟨0, 10, .data "NAME"⟩ ∧
      ∃ entry ∈ (valued "Name" "x").data, d.setting.value? "NAME" = some (entry.2.evaluate d.page) ∧
        d.setting.advance (.start d.page) d.page = .step ((((State.start d.page).emit "" .root).modify
          fun n => { n with index := 10 }).emit (entry.2.evaluate d.page) .root) := by
  have made := new_valued "Name" "name" "x" (by decide +kernel)
  have opened : document ⟨valued "Name" "x", .default, ["name"], by decide, by decide⟩ ⟨"a.html"⟩
      "\x7b\x7b NAME \x7d\x7d" = .ok _ := if_neg (by decide)
  have found : Scanner.next? ⟨.default, ["name"], by decide, by decide⟩ "\x7b\x7b NAME \x7d\x7d" 0 =
      some ⟨0, 10, .data "NAME"⟩ := by decide +kernel
  obtain ⟨entry, there, _, known, moves⟩ :=
    value?_of_next? made opened found rfl (by decide +kernel) (by decide +kernel)
  exact ⟨_, _, made, opened, found, entry, there, known, moves _ _ rfl rfl⟩

/-- White space around a registered key keeps its value from being found, and so does the long s, which
is no letter s once it is lower case: what is found is left as it is. -/
theorem value?_of_next?_eq_none :
    (∃ c d, Composer.new (valued " a " "x") = .ok c ∧ c.document ⟨"p.html"⟩ "\x7b\x7ba\x7d\x7d" = .ok d ∧
      c.scanner.next? d.page.source 0 = some ⟨0, 5, .data "a"⟩ ∧ d.setting.value? "a" = none ∧
      d.run? (fun _ => .ok "") 3 = some ⟨[.data "\x7b\x7ba\x7d\x7d" .root, .finish], []⟩) ∧
    ∃ c d, Composer.new (valued "s" "x") = .ok c ∧ c.document ⟨"p.html"⟩ "\x7b\x7bſ\x7d\x7d" = .ok d ∧
      c.scanner.next? d.page.source 0 = some ⟨0, 6, .data "ſ"⟩ ∧ d.setting.value? "ſ" = none ∧
      d.run? (fun _ => .ok "") 3 = some ⟨[.data "\x7b\x7bſ\x7d\x7d" .root, .finish], []⟩ := by
  constructor
  · have made := new_valued " a " "a" "x" (by decide +kernel)
    exact ⟨_, _, made, if_neg (by decide), by decide +kernel, by decide +kernel, by decide +kernel⟩
  · have made := new_valued "s" "s" "x" (by decide +kernel)
    exact ⟨_, _, made, if_neg (by decide), by decide +kernel, by decide +kernel, by decide +kernel⟩

end Composer

end Templating
