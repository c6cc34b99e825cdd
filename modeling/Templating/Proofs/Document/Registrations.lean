import Templating.Proofs.Document.Loading
import Templating.Proofs.Document.Values
import Templating.Proofs.OrderedMap

namespace Templating
open Text

/-- One data value that is given to options. -/
inductive Registration
  /-- Under its key in lower case. -/
  | lowered (key : String) (value : DataValue)
  /-- Under its key as it is spelled. -/
  | spelled (key : String) (value : DataValue)

namespace Registration

def entry : Registration → String × DataValue
  | .lowered key value => (lowercase key, value)
  | .spelled key value => (key, value)

/-- What a list of registrations amounts to, with the values that every document has as the first ones. -/
def all (rs : List Registration) : List (String × DataValue) := builtinData ++ rs.map entry

end Registration

namespace Options

def register (o : Options) : Registration → Options
  | .lowered key value => o.withData key value
  | .spelled key value => o.withKey key value

/-- The options of a root directory with data values registered one after the other. -/
def registered (root : Path) (rs : List Registration) : Options := rs.foldl register (.new root)

/-- A registration sets one value under one key, in lower case or as it is spelled; other keys keep their values. -/
theorem data_register (o : Options) (r : Registration) :
    (o.register r).data = o.data.set r.entry.1 r.entry.2 := by
  cases r <;> rfl

/-- Registering values one after the other gives the map of all entries, the ones that every document has first. -/
theorem data_registered (root : Path) (rs : List Registration) :
    (registered root rs).data = .ofEntries (Registration.all rs) := by
  induction rs using List.reverseRecOn with
  | nil => rfl
  | append_singleton rs r ih =>
    rw [registered, List.foldl_append, List.foldl_cons, List.foldl_nil, data_register, ← registered, ih,
      ← OrderedMap.ofEntries_concat, Registration.all, Registration.all, List.map_append, List.map_singleton,
      List.append_assoc]

theorem tags_registered (root : Path) (rs : List Registration) : (registered root rs).tags = .default := by
  induction rs using List.reverseRecOn with
  | nil => rfl
  | append_singleton rs r ih =>
    rw [registered, List.foldl_append, List.foldl_cons, List.foldl_nil, ← registered, ← ih]
    cases r <;> rfl

end Options

/-- A spelling is the last to be new among the names with its lower case: each of those that comes after it
was there before. -/
def Newest (names : List String) (spelling : String) : Prop :=
  ∃ before after, names = before ++ spelling :: after ∧ spelling ∉ before ∧
    ∀ other ∈ after, lowercase other = lowercase spelling → other = spelling ∨ other ∈ before

section Newest
variable {names before after : List String} {spelling other : String}

/-- Without repetition a name stays where it comes first, behind those that came before it. -/
theorem exists_eraseDups_append_cons (new : spelling ∉ before) :
    ∃ rest, (before ++ spelling :: after).eraseDups = before.eraseDups ++ spelling :: rest := by
  refine ⟨((after.removeAll before).filter fun name => !name == spelling).eraseDups, ?_⟩
  rw [List.eraseDups_append, List.cons_removeAll, if_pos (by simpa using new), List.eraseDups_cons]

/-- Of the names without repetition, the newest spelling is the last one with its lower case. -/
theorem newest_of_eraseDups (split : names.eraseDups = before ++ spelling :: after)
    (last : ∀ other ∈ after, lowercase other ≠ lowercase spelling) : Newest names spelling := by
  obtain ⟨front, back, rfl, new⟩ := List.eq_append_cons_of_mem
    (List.mem_eraseDups.mp (split ▸ List.mem_append_right before List.mem_cons_self) : spelling ∈ names)
  obtain ⟨rest, first⟩ : ∃ rest, (front ++ spelling :: back).eraseDups = front.eraseDups ++ spelling :: rest :=
    exists_eraseDups_append_cons new
  have nodup := nodup_eraseDups (front ++ spelling :: back)
  rw [split, List.nodup_append, List.nodup_cons] at nodup
  obtain ⟨_, ⟨notAfter, _⟩, apart⟩ := nodup
  have notBefore : spelling ∉ before := fun member => apart _ member _ List.mem_cons_self rfl
  obtain ⟨same, _, _⟩ := (List.append_cons_inj_of_notMem notBefore notAfter).mp (split.symm.trans first)
  refine ⟨front, back, rfl, new, fun other member alike => ?_⟩
  have there : other ∈ before ++ spelling :: after := by
    rw [← split, List.mem_eraseDups]
    exact List.mem_append_right _ (List.mem_cons_of_mem _ member)
  rcases List.mem_append.mp there with early | late
  · exact .inr (List.mem_eraseDups.mp (same ▸ early))
  · rcases List.mem_cons.mp late with here | later
    · exact .inl here
    · exact absurd alike (last other later)

theorem Newest.mem (newest : Newest names spelling) : spelling ∈ names := by
  obtain ⟨before, after, rfl, _⟩ := newest
  exact List.mem_append_right before List.mem_cons_self

theorem mem_before_of_ne
    (covered : ∀ other ∈ after, lowercase other = lowercase spelling → other = spelling ∨ other ∈ before)
    (member : other ∈ before ++ spelling :: after) (same : lowercase other = lowercase spelling)
    (differ : other ≠ spelling) : other ∈ before := by
  rcases List.mem_append.mp member with early | late
  · exact early
  · exact (covered other ((List.mem_cons.mp late).resolve_left differ) same).resolve_left differ

/-- No two spellings of a key are the newest, so that the winner is determined. -/
theorem Newest.eq (first : Newest names spelling) (second : Newest names other)
    (same : lowercase other = lowercase spelling) : other = spelling := by
  by_contra differ
  have there := second.mem
  have there' := first.mem
  obtain ⟨before, after, rfl, new, covered⟩ := first
  obtain ⟨before', after', split, new', covered'⟩ := second
  have older := mem_before_of_ne covered there same differ
  have older' := mem_before_of_ne covered' (split ▸ there') same.symm (Ne.symm differ)
  rcases List.append_eq_append_iff.mp split with ⟨between, rfl, _⟩ | ⟨between, rfl, _⟩
  · exact new' (List.mem_append_left between older)
  · exact new (List.mem_append_left between older')

/-- A spelling that no other one stands beside is the newest, however often it is registered. -/
theorem newest_of_only (member : spelling ∈ names)
    (only : ∀ other ∈ names, lowercase other = lowercase spelling → other = spelling) : Newest names spelling := by
  obtain ⟨before, after, rfl, new⟩ := List.eq_append_cons_of_mem member
  exact ⟨before, after, rfl, new, fun other there same =>
    .inl (only other (List.mem_append_right before (List.mem_cons_of_mem _ there)) same)⟩

end Newest

section Last
variable {α : Type} {before after pairs : List (String × α)} {key : String} {value : α}

theorem exists_split_last {P : String × α → Prop} (there : ∃ pair ∈ pairs, P pair) :
    ∃ before pair after, pairs = before ++ pair :: after ∧ P pair ∧ ∀ other ∈ after, ¬ P other := by
  induction pairs with
  | nil =>
    obtain ⟨_, member, _⟩ := there
    cases member
  | cons first pairs ih =>
    by_cases later : ∃ pair ∈ pairs, P pair
    · obtain ⟨before, pair, after, rfl, holds, last⟩ := ih later
      exact ⟨first :: before, pair, after, rfl, holds, last⟩
    · obtain ⟨pair, member, holds⟩ := there
      rcases List.mem_cons.mp member with rfl | member
      · exact ⟨[], pair, pairs, rfl, holds, fun other there yes => later ⟨other, there, yes⟩⟩
      · exact absurd ⟨pair, member, holds⟩ later

theorem lookup_reverse_split (last : ∀ pair ∈ after, pair.1 ≠ key) :
    (before ++ (key, value) :: after).reverse.lookup key = some value := by
  have absent : after.reverse.lookup key = none := by
    rw [List.lookup_eq_none_iff]
    intro pair member
    exact bne_iff_ne.mpr (Ne.symm (last pair (List.mem_reverse.mp member)))
  rw [List.reverse_append, List.reverse_cons, List.append_assoc, List.lookup_append, absent, Option.none_or,
    List.singleton_append, List.lookup_cons_self]

end Last

namespace Composer
variable {o : Options} {c : Composer} {d : Document} {root src : Path} {source k spelling : String}
  {rs : List Registration} {entries before after : List (String × DataValue)} {value : DataValue}

/-- The value of a key is what was set last under its newest spelling. Some spelling of the key must be registered. -/
theorem exists_newest_value? (made : Composer.new o = .ok c) (data : o.data = .ofEntries entries)
    (opened : c.document src source = .ok d) (there : ∃ entry ∈ entries, lowercase entry.1 = lowercase k) :
    ∃ newest value, Newest (entries.map Prod.fst) newest ∧ lowercase newest = lowercase k ∧
      entries.reverse.lookup newest = some value ∧ d.setting.value? k = some (value.evaluate d.page) := by
  obtain ⟨before, ⟨newest, value⟩, after, split, same, last⟩ :=
    exists_split_last ((OrderedMap.exists_key_ofEntries (P := fun name => lowercase name = lowercase k)).mpr there)
  have names : (entries.map Prod.fst).eraseDups = before.map Prod.fst ++ newest :: after.map Prod.fst := by
    rw [← OrderedMap.keys_ofEntries, split, OrderedMap.keys, List.map_append, List.map_cons]
  refine ⟨newest, value, newest_of_eraseDups names ?latest, same, ?value, ?known⟩
  case latest =>
    intro other member alike
    obtain ⟨pair, later, rfl⟩ := List.mem_map.mp member
    exact last pair later (alike.trans same)
  case value =>
    rw [← OrderedMap.lookup_ofEntries]
    exact OrderedMap.lookup_of_mem (OrderedMap.nodup_keys_ofEntries entries)
      (split ▸ List.mem_append_right before List.mem_cons_self)
  case known =>
    rw [Setting.value?, (setting_of_document opened).2, Composer.values, (new_eq made).1, data, split,
      List.map_append, List.map_cons, ← same]
    refine lookup_reverse_split fun pair member alike => ?_
    obtain ⟨pair, later, rfl⟩ := List.mem_map.mp member
    exact last pair later (alike.trans same)

/-- A key has no value exactly if no spelling of it is registered at all. -/
theorem value?_eq_none_iff (made : Composer.new o = .ok c) (data : o.data = .ofEntries entries)
    (opened : c.document src source = .ok d) :
    d.setting.value? k = none ↔ ∀ entry ∈ entries, lowercase entry.1 ≠ lowercase k := by
  constructor
  · intro unknown entry member same
    obtain ⟨_, _, _, _, _, known⟩ := exists_newest_value? made data opened ⟨entry, member, same⟩
    rw [unknown] at known
    cases known
  · intro apart
    rw [Setting.value?, List.lookup_eq_none_iff, (setting_of_document opened).2, Composer.values, (new_eq made).1,
      data]
    intro pair member
    obtain ⟨kept, there, rfl⟩ := List.mem_map.mp (List.mem_reverse.mp member)
    refine bne_iff_ne.mpr fun same => ?_
    obtain ⟨entry, set, alike⟩ :=
      (OrderedMap.exists_key_ofEntries (P := fun name => lowercase name = lowercase k)).mp ⟨kept, there, same.symm⟩
    exact apart entry set alike

/-- Data values alone do not keep a composer from being made, whatever their keys are. -/
theorem exists_new_registered (root : Path) (rs : List Registration) :
    ∃ c, Composer.new (.registered root rs) = .ok c := by
  have tags := Options.tags_registered root rs
  obtain ⟨c, made, _⟩ := exists_new_of_usable (o := .registered root rs) (by rw [tags]; decide) (by rw [tags]; decide)
  exact ⟨c, made⟩

/-- What is found from behind under the newest spelling of a key is its value in every document. -/
theorem value?_of_newest (made : Composer.new o = .ok c) (data : o.data = .ofEntries entries)
    (opened : c.document src source = .ok d) (newest : Newest (entries.map Prod.fst) spelling)
    (same : lowercase spelling = lowercase k) (found : entries.reverse.lookup spelling = some value) :
    d.setting.value? k = some (value.evaluate d.page) := by
  obtain ⟨entry, member, rfl⟩ := List.mem_map.mp newest.mem
  obtain ⟨name, winner, newest', alike, found', known⟩ := exists_newest_value? made data opened ⟨entry, member, same⟩
  rw [newest.eq newest' (alike.trans same.symm), found] at found'
  rw [known, ← Option.some.inj found']

/-- Where all keys are in lower case, what is set last for a key is its value, as one would expect. -/
theorem value?_of_lowered (made : Composer.new o = .ok c) (data : o.data = .ofEntries entries)
    (opened : c.document src source = .ok d) (lowered : ∀ entry ∈ entries, lowercase entry.1 = entry.1)
    (split : entries = before ++ (spelling, value) :: after) (same : lowercase spelling = lowercase k)
    (last : ∀ entry ∈ after, entry.1 ≠ spelling) : d.setting.value? k = some (value.evaluate d.page) := by
  have member : (spelling, value) ∈ entries := split ▸ List.mem_append_right before List.mem_cons_self
  have only : ∀ other ∈ entries.map Prod.fst, lowercase other = lowercase spelling → other = spelling := by
    intro other there alike
    obtain ⟨entry, set, rfl⟩ := List.mem_map.mp there
    rwa [lowered entry set, lowered (spelling, value) member] at alike
  refine value?_of_newest made data opened (newest_of_only (List.mem_map_of_mem member) only) same ?_
  rw [split, lookup_reverse_split last]

/-- What is registered last for a key is its value if no other spelling of the key was new after that one. In any case
it is what was registered last for the newest spelling; and there is none exactly if no spelling is registered. -/
theorem value?_of_registered (made : Composer.new (.registered root rs) = .ok c)
    (opened : c.document src source = .ok d) (k : String) :
    (d.setting.value? k = none ↔ ∀ entry ∈ Registration.all rs, lowercase entry.1 ≠ lowercase k) ∧
      ∀ before spelling value after, Registration.all rs = before ++ (spelling, value) :: after →
        lowercase spelling = lowercase k → (∀ entry ∈ after, lowercase entry.1 ≠ lowercase k) →
        ∃ newest winner, Newest ((Registration.all rs).map Prod.fst) newest ∧ lowercase newest = lowercase k ∧
          (Registration.all rs).reverse.lookup newest = some winner ∧
          d.setting.value? k = some (winner.evaluate d.page) ∧
          (Newest ((Registration.all rs).map Prod.fst) spelling → newest = spelling ∧ winner = value) := by
  have data := Options.data_registered root rs
  refine ⟨value?_eq_none_iff made data opened, fun before spelling value after split same last => ?_⟩
  have member : (spelling, value) ∈ Registration.all rs :=
    split ▸ List.mem_append_right before List.mem_cons_self
  obtain ⟨newest, winner, isNewest, alike, found, known⟩ :=
    exists_newest_value? made data opened ⟨(spelling, value), member, same⟩
  refine ⟨newest, winner, isNewest, alike, found, known, fun isNewest' => ?_⟩
  obtain rfl : newest = spelling := isNewest'.eq isNewest (alike.trans same.symm)
  rw [split, lookup_reverse_split fun entry member alike => last entry member (alike ▸ same)] at found
  exact ⟨rfl, (Option.some.inj found).symm⟩

/-- A key that is registered again under its old spelling, and before that under another one. -/
def retitled : List Registration :=
  [.spelled "Title" (.text "a"), .lowered "TITLE" (.text "b"), .lowered "Filename" (.text "f"),
    .lowered "title" (.text "c")]

theorem value?_of_registered_retitled :
    ∃ c d, Composer.new (.registered ⟨"/site"⟩ retitled) = .ok c ∧ c.document ⟨"p.html"⟩ "" = .ok d ∧
      d.setting.value? "TITLE" = some "c" := by
  obtain ⟨c, made⟩ := exists_new_registered ⟨"/site"⟩ retitled
  obtain ⟨d, opened, _⟩ := @document_of_named c ⟨"p.html"⟩ (by decide) ""
  have title : lowercase "TITLE" = "title" := by decide +kernel
  have lowered : lowercase "title" = "title" := by decide +kernel
  have filename : lowercase "Filename" = "filename" := by decide +kernel
  have newest : Newest ((Registration.all retitled).map Prod.fst) "title" :=
    ⟨["dirname", "filename", "extname", "Title"], ["filename", "title"], by decide +kernel, by decide,
      by decide +kernel⟩
  have split : Registration.all retitled = builtinData ++ [("Title", .text "a"), ("title", .text "b"),
      ("filename", .text "f")] ++ ("title", .text "c") :: [] := by
    simp [Registration.all, retitled, Registration.entry, title, filename, lowered]
  obtain ⟨_, known⟩ := value?_of_registered made opened "TITLE"
  obtain ⟨_, _, _, _, _, value, wins⟩ := known _ _ _ _ split (by decide +kernel) (by simp)
  obtain ⟨rfl, rfl⟩ := wins newest
  exact ⟨c, d, made, opened, value⟩

/-- An old spelling that is registered again does not win over one that was new in between: not over another
spelling of a key that every document has, and not over one that was given after it. -/
theorem value?_of_registered_older :
    (∃ c d, Composer.new (.registered ⟨"/site"⟩ [.spelled "FILENAME" (.text "x"), .spelled "filename" (.text "y")]) =
        .ok c ∧ c.document ⟨"p.html"⟩ "" = .ok d ∧ d.setting.value? "filename" = some "x") ∧
      ∃ c d, Composer.new (.registered ⟨"/site"⟩
          [.lowered "a" (.text "1"), .spelled "A" (.text "2"), .spelled "a" (.text "3")]) = .ok c ∧
        c.document ⟨"p.html"⟩ "" = .ok d ∧ d.setting.value? "a" = some "2" := by
  have known {rs : List Registration} {spelling k text : String}
      (newest : Newest ((Registration.all rs).map Prod.fst) spelling) (same : lowercase spelling = lowercase k)
      (found : (Registration.all rs).reverse.lookup spelling = some (.text text)) :
      ∃ c d, Composer.new (.registered ⟨"/site"⟩ rs) = .ok c ∧ c.document ⟨"p.html"⟩ "" = .ok d ∧
        d.setting.value? k = some text := by
    obtain ⟨c, made⟩ := exists_new_registered ⟨"/site"⟩ rs
    obtain ⟨d, opened, _⟩ := @document_of_named c ⟨"p.html"⟩ (by decide) ""
    exact ⟨c, d, made, opened, value?_of_newest made (Options.data_registered ..) opened newest same found⟩
  constructor
  · have newest : Newest ((Registration.all
        [.spelled "FILENAME" (.text "x"), .spelled "filename" (.text "y")]).map Prod.fst) "FILENAME" :=
      ⟨["dirname", "filename", "extname"], ["filename"], by decide +kernel, by decide, by decide +kernel⟩
    exact known newest (by decide +kernel) (by simp [Registration.all, Registration.entry, List.lookup_cons])
  · have newest : Newest ((Registration.all
        [.lowered "a" (.text "1"), .spelled "A" (.text "2"), .spelled "a" (.text "3")]).map Prod.fst) "A" :=
      ⟨["dirname", "filename", "extname", "a"], ["a"], by decide +kernel, by decide, by decide +kernel⟩
    exact known newest (by decide +kernel) (by simp [Registration.all, Registration.entry, List.lookup_cons])

end Composer

end Templating
