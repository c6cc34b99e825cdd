import Templating.Proofs.Scan.Search

namespace Templating

/-- The text that stands for the value of a key. -/
def Tags.keyText (tags : Tags) (key : String) : String := tags.data.opening ++ key ++ tags.data.closing

namespace Scanner
open Text Directive

/-- What keeps a key from being taken for itself, where it stands alone between its delimiters. -/
structure Reaches (s : Scanner) (key : String) : Prop where
  /-- The text does not ask to be left alone. -/
  kept : s.skips (s.tags.keyText key) = false
  /-- No directive stands at its front. -/
  plain : ¬SomeAt s.tags.directive Written (s.tags.keyText key).toList
  /-- The key is a spelling of its lower case. -/
  spelled : Spells (lowercase key).toList key.toList
  /-- A key with fewer characters that stands at the front is tried later. -/
  longest : ∀ k ∈ s.keys, SomeAt s.tags.data (KeyWritten k) (s.tags.keyText key).toList →
    k.length < key.length → k.utf8ByteSize < (lowercase key).utf8ByteSize

section Whole
variable {s : Scanner} {tags : Tags} {key k : String} {phrase : Phrase} {gap text : List Char}

theorem toList_keyText : (tags.keyText key).toList =
    tags.data.opening.toList ++ (key.toList ++ tags.data.closing.toList) := by
  rw [Tags.keyText, String.toList_append, String.toList_append, List.append_assoc]

theorem matchAt_keyText (spells : Spells k.toList key.toList) :
    MatchAt tags.data (KeyWritten k) (tags.keyText key).toList (.data key.toList) []
      (tags.keyText key).toList := by
  refine ⟨?_, List.prefix_refl _⟩
  rw [toList_keyText]
  exact .mk (.refl _) (List.forall_mem_nil _) (.mk spells) (List.forall_mem_nil _) (.refl _)

/-- A key with as many characters can only take the whole text, with no white space passed over. -/
theorem whole_of_matchAt (here : MatchAt tags.data (KeyWritten k) (tags.keyText key).toList phrase gap text)
    (longer : key.length ≤ k.length) :
    phrase = .data key.toList ∧ gap = [] ∧ text = (tags.keyText key).toList ∧ Spells k.toList key.toList := by
  obtain ⟨rest, whole⟩ := here.front
  cases here.enclosed with
  | @mk opening space word closing opens _ written _ closes =>
    obtain ⟨spells⟩ := written
    rw [toList_keyText] at whole ⊢
    have total := congrArg List.length whole
    have first := opens.length
    have body := spells.length
    have last := closes.length
    rw [← String.length_toList, ← String.length_toList] at longer
    simp only [List.length_append] at total
    obtain rfl : space = [] := List.length_eq_zero_iff.mp (by omega)
    obtain rfl : gap = [] := List.length_eq_zero_iff.mp (by omega)
    obtain rfl : rest = [] := List.length_eq_zero_iff.mp (by omega)
    rw [List.append_nil, List.nil_append, List.nil_append] at whole
    have behind := (List.append_inj whole first).2
    obtain rfl : word = key.toList := (List.append_inj behind (by omega)).1
    exact ⟨rfl, rfl, whole, spells⟩

/-- The whole text is the longest match of a key that is spelled in it. -/
theorem longestAt_keyText (spells : Spells k.toList key.toList) :
    LongestAt tags.data (KeyWritten k) (tags.keyText key).toList (.data key.toList) []
      (tags.keyText key).toList := by
  refine ⟨matchAt_keyText spells, fun phrase gap text other => ?_⟩
  have length := spells.length
  rw [String.length_toList, String.length_toList] at length
  rw [(whole_of_matchAt other (Nat.le_of_eq length)).2.1]

/-- A key that is reached is the one hit in its text, as it was spelled. -/
theorem Reaches.next?_keyText {names : List String} (reaches : s.Reaches key)
    (keys : s.keys = scanKeys s.tags names) (member : lowercase key ∈ s.keys) :
    s.next? (s.tags.keyText key) 0 = some ⟨0, size (s.tags.keyText key), .data key⟩ := by
  classical
  have inked : ∀ k ∈ s.keys, Inked k.toList := by
    rw [keys]
    exact fun k => inked_of_mem_scanKeys
  let front := fun k => decide (SomeAt s.tags.data (KeyWritten k) (s.tags.keyText key).toList)
  have found : (s.keys.find? front).isSome = true :=
    List.find?_isSome.mpr ⟨_, member, decide_eq_true ⟨_, _, _, matchAt_keyText reaches.spelled⟩⟩
  obtain ⟨first, found⟩ := Option.isSome_iff_exists.mp found
  obtain ⟨here, earlier, later, split, before⟩ := List.find?_eq_some_iff_append.mp found
  have here : SomeAt s.tags.data (KeyWritten first) _ := of_decide_eq_true here
  have before : ∀ k ∈ earlier, ¬SomeAt s.tags.data (KeyWritten k) (s.tags.keyText key).toList :=
    fun k there => of_decide_eq_false (Bool.not_eq_true' _ ▸ before k there)
  -- The key itself stands at the front too, so the first one that does has as many bytes.
  have size : (lowercase key).utf8ByteSize ≤ first.utf8ByteSize := by
    rw [split, List.mem_append, List.mem_cons] at member
    rcases member with early | same | late
    · exact absurd ⟨_, _, _, matchAt_keyText reaches.spelled⟩ (before _ early)
    · exact Nat.le_of_eq (congrArg String.utf8ByteSize same)
    · exact utf8ByteSize_le_of_scanKeys (keys ▸ split) _ late
  have longer : key.length ≤ first.length := by
    by_contra shorter
    have less := reaches.longest first (by rw [split]; simp) here (by omega)
    omega
  obtain ⟨phrase, gap, text, match_⟩ := here
  obtain ⟨_, _, _, spells⟩ := whole_of_matchAt match_ longer
  have chosen : Chosen s.tags s.keys (s.tags.keyText key).toList (.data key.toList) (s.tags.keyText key).toList :=
    .data reaches.plain split before (longestAt_keyText spells)
  have place : FirstPlace s.tags s.keys (s.tags.keyText key) 0 [] (s.tags.keyText key).toList := by
    refine ⟨rfl, Nat.le_refl 0, .inr ⟨first, by rw [split]; simp, _, _, _, match_⟩, fun _ _ _ _ _ => Nat.zero_le _⟩
  have names : ofPhrase? (.data key.toList) = some (.data key) := by rw [ofPhrase?, String.ofList_toList]
  have finds := Finds.hit place chosen names
  rw [byteLength, Nat.zero_add] at finds
  exact next?_of_finds inked finds (isBoundary_zero _)

end Whole

end Scanner

end Templating
