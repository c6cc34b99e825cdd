import Templating.Proofs.Scan.Search

namespace Templating

namespace Scanner
open Text Directive

/-- The first of the keys that have a match at the front of `cs`. None of these has more bytes. -/
structure FirstKey (tags : Tags) (keys : List String) (cs : List Char) (key : String) : Prop where
  first : ∃ earlier later, keys = earlier ++ key :: later ∧ ∀ k ∈ earlier, ¬SomeAt tags.data (KeyWritten k) cs
  longest : ∀ k ∈ keys, SomeAt tags.data (KeyWritten k) cs → k.utf8ByteSize ≤ key.utf8ByteSize

/-- What is known of a hit from an offset on: it is a data key exactly where no other directive stands at
its start, and then it is a match of the first key that has one there. -/
def Decided (tags : Tags) (keys : List String) (source : String) (start : Nat) (hit : Hit) : Prop :=
  ∃ gap behind text, dropBytes start source.toList = gap ++ behind ∧ hit.start = start + byteLength gap ∧
    hit.stop = hit.start + byteLength text ∧
    (SomeAt tags.directive Written behind → ∀ word, hit.directive ≠ .data word) ∧
    (¬SomeAt tags.directive Written behind → ∃ word key space, hit.directive = .data word ∧
      FirstKey tags keys behind key ∧ LongestAt tags.data (KeyWritten key) behind (.data word.toList) space text)

variable {tags : Tags} {keys others : List String} {cs text : List Char} {phrase : Phrase}

/-- A data key is taken exactly where no other directive stands, and then it is the first key. -/
theorem firstKey_of_chosen (chosen : Chosen tags (scanKeys tags keys) cs phrase text) :
    (SomeAt tags.directive Written cs → ∀ word, phrase ≠ .data word) ∧
      (¬SomeAt tags.directive Written cs → ∃ word key gap, phrase = .data word ∧
        FirstKey tags (scanKeys tags keys) cs key ∧
        LongestAt tags.data (KeyWritten key) cs (.data word) gap text) := by
  cases chosen with
  | @structural _ gap _ here =>
    refine ⟨fun _ word same => ?_, fun nothing => absurd ⟨_, gap, text, here.toMatchAt⟩ nothing⟩
    obtain ⟨_, _, written, _, _⟩ := here.enclosed
    rw [same] at written
    cases written
  | @data earlier key later _ gap _ nothing split before here =>
    refine ⟨fun here => absurd here nothing, fun _ => ?_⟩
    obtain ⟨_, _, ⟨spells⟩, _, _⟩ := here.enclosed
    refine ⟨_, key, gap, rfl, ⟨⟨earlier, later, split, before⟩, fun k member matched => ?_⟩, here⟩
    rw [split, List.mem_append, List.mem_cons] at member
    rcases member with early | rfl | late
    · exact absurd matched (before k early)
    · exact Nat.le_refl _
    · exact utf8ByteSize_le_of_scanKeys split k late

/-- Only the set of registered keys counts, in the form in which they are compared: neither their order nor how often
or in what case one is registered. -/
theorem scanKeys_congr (tags : Tags)
    (same : ∀ form, form ≠ "" → (form ∈ keys.map keyForm ↔ form ∈ others.map keyForm)) :
    scanKeys tags keys = scanKeys tags others := by
  refine scanKeys_eq_of_mem_iff (nodup_scanKeys tags others) (pairwise_scanKeys tags others) fun key => ?_
  rw [mem_scanKeys, mem_scanKeys, ← List.mem_map, ← List.mem_map]
  constructor
  · rintro ⟨registered, filled, free⟩
    exact ⟨(same key filled).mp registered, filled, free⟩
  · rintro ⟨registered, filled, free⟩
    exact ⟨(same key filled).mpr registered, filled, free⟩

/-- Each key comes before the shorter ones and, among those of its length, before the later ones in
alphabetical order. -/
theorem ordered_scanKeys (tags : Tags) (keys : List String) : (scanKeys tags keys).Pairwise fun a b =>
    b.utf8ByteSize < a.utf8ByteSize ∨ a.utf8ByteSize = b.utf8ByteSize ∧ a < b := by
  refine (List.Pairwise.and (pairwise_scanKeys tags keys) (nodup_scanKeys tags keys)).imp fun ⟨before, other⟩ => ?_
  refine (keyBefore_iff.mp before).imp_right fun ⟨same, le⟩ => ⟨same, ?_⟩
  exact String.not_le.mp fun ge => other (String.le_antisymm le ge)

theorem new_congr (same : scanKeys tags keys = scanKeys tags others) :
    Scanner.new tags keys = Scanner.new tags others := by
  unfold Scanner.new
  simp only [same]

/-- A hit is a match that is chosen at its place, and the scan has passed over all that stands before it. -/
theorem exists_chosen_of_next? {s : Scanner} {source : String} {start : Nat} {hit : Hit}
    (inked : ∀ key ∈ s.keys, Inked key.toList) (found : s.next? source start = some hit) :
    ∃ gap behind text phrase, dropBytes start source.toList = gap ++ behind ∧
      hit.start = start + byteLength gap ∧ hit.stop = hit.start + byteLength text ∧
      Chosen s.tags s.keys behind phrase text ∧ ofPhrase? phrase = some hit.directive := by
  obtain ⟨gap, text, after, phrase, split, recognised, names, first, last⟩ := firstHit_split s.match?_takesSome found
  obtain ⟨text', chosen, again⟩ := match?_split inked recognised
  rw [List.append_cancel_right again] at last
  exact ⟨gap, text ++ after, text', phrase, split, first, last, chosen, names⟩

theorem eq_data_of_ofPhrase? {word : String} (names : ofPhrase? phrase = some (.data word)) :
    phrase = .data word.toList := by
  cases phrase with
  | data key =>
    cases names
    rw [String.toList_ofList]
  | noLayout | slot => cases names
  | inclusion | layout =>
    obtain ⟨_, _, same⟩ := Option.map_eq_some_iff.mp names
    cases same

/-- A hit of a scanner is decided by the set of its keys, from any offset on. -/
theorem decided_of_next? {s : Scanner} {source : String} {start : Nat} {hit : Hit}
    (made : Scanner.new tags keys = .ok s) (found : s.next? source start = some hit) :
    Decided tags (scanKeys tags keys) source start hit := by
  obtain ⟨rfl, sameKeys⟩ := new_eq_ok_iff.mp made
  have inked : ∀ key ∈ s.keys, Inked key.toList := by
    rw [sameKeys]
    exact fun key => inked_of_mem_scanKeys
  obtain ⟨gap, behind, text, phrase, split, first, last, chosen, names⟩ := exists_chosen_of_next? inked found
  rw [sameKeys] at chosen
  obtain ⟨structural, keyed⟩ := firstKey_of_chosen chosen
  refine ⟨gap, behind, text, split, first, last, fun stands word data => ?_, fun nothing => ?_⟩
  · rw [data] at names
    exact structural stands word.toList (eq_data_of_ofPhrase? names)
  · obtain ⟨word, key, space, rfl, firstKey, longest⟩ := keyed nothing
    refine ⟨String.ofList word, key, space, (Option.some.inj names).symm, firstKey, ?_⟩
    rwa [String.toList_ofList]

/-- Two scanners are equal if their keys are the same set, in the form in which keys are compared. Their
keys are those that are registered and are neither empty nor words of directives in their own
delimiters, each once and in the order of trial. Where several keys have a match the first is taken. -/
theorem next?_of_same_keys (tags : Tags) {keys others : List String}
    (same : ∀ form, form ≠ "" → (form ∈ keys.map keyForm ↔ form ∈ others.map keyForm)) :
    scanKeys tags keys = scanKeys tags others ∧ (scanKeys tags keys).Nodup ∧
      ((scanKeys tags keys).Pairwise fun a b =>
        b.utf8ByteSize < a.utf8ByteSize ∨ a.utf8ByteSize = b.utf8ByteSize ∧ a < b) ∧
      (∀ key, key ∈ scanKeys tags keys ↔
        key ∈ keys.map keyForm ∧ key ≠ "" ∧ (tags.coincide = true → key ∉ directiveWords)) ∧
      Scanner.new tags keys = Scanner.new tags others ∧
      ∀ s s', Scanner.new tags keys = .ok s → Scanner.new tags others = .ok s' → ∀ source start,
        s.next? source start = s'.next? source start ∧
        ∀ hit, s.next? source start = some hit → Decided tags (scanKeys tags keys) source start hit := by
  have alike := scanKeys_congr tags same
  refine ⟨alike, nodup_scanKeys tags keys, ordered_scanKeys tags keys, fun key => ?_, new_congr alike, ?_⟩
  · rw [mem_scanKeys, List.mem_map]
  · intro s s' made made' source start
    obtain rfl : s = s' := Except.ok.inj (made.symm.trans ((new_congr alike).trans made'))
    exact ⟨rfl, fun hit => decided_of_next? made⟩

/-- Brackets as delimiters of data keys. -/
def bracketTags : Tags := ⟨⟨"[", "]"⟩, ⟨"<!--", "-->"⟩⟩

theorem next?_of_same_keys_brackets :
    scanKeys bracketTags [" A]] ", "a", "", "A"] = scanKeys bracketTags ["a", "a]]"] ∧
      ∃ s, Scanner.new bracketTags [" A]] ", "a", "", "A"] = .ok s ∧ Scanner.new bracketTags ["a", "a]]"] = .ok s ∧
        s.next? "[a]]]" 0 = some ⟨0, 5, .data "a]]"⟩ := by
  have forms : [" A]] ", "a", "", "A"].map keyForm = ["a]]", "a", "", "a"] ∧
      ["a", "a]]"].map keyForm = ["a", "a]]"] := by decide +kernel
  have same : ∀ form, form ≠ "" →
      (form ∈ [" A]] ", "a", "", "A"].map keyForm ↔ form ∈ ["a", "a]]"].map keyForm) := by
    intro form filled
    rw [forms.1, forms.2]
    simp [filled]
    tauto
  obtain ⟨alike, _, _, _, new, _⟩ := next?_of_same_keys bracketTags same
  have tried : scanKeys bracketTags ["a", "a]]"] = ["a]]", "a"] := by
    refine scanKeys_eq_of_mem_iff (by decide) (by decide) fun key => ?_
    rw [mem_scanKeys, ← List.mem_map, forms.2]
    have apart : bracketTags.coincide = false := by decide
    simp only [apart, List.mem_cons, List.not_mem_nil, or_false, Bool.false_eq_true, false_implies, and_true]
    constructor
    · exact fun ⟨either, _⟩ => either.symm
    · rintro (rfl | rfl)
      · exact ⟨.inr rfl, by decide⟩
      · exact ⟨.inl rfl, by decide⟩
  have made : Scanner.new bracketTags ["a", "a]]"] = .ok ⟨bracketTags, ["a]]", "a"], by decide, by decide⟩ :=
    new_eq_ok_iff.mpr ⟨rfl, tried.symm⟩
  exact ⟨alike, _, new.trans made, made, by decide +kernel⟩

end Scanner

end Templating
