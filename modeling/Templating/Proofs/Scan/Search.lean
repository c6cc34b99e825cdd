import Mathlib.Data.Nat.Find
import Templating.Proofs.Scan.Hits
import Templating.Proofs.Scan.Keys

namespace Templating

namespace Text

/-- Of two ways to cut a text, the one that cuts later has a gap between the two cuts. -/
theorem exists_gap {front cs before behind : List Char} (same : front ++ cs = before ++ behind)
    (reached : byteLength front ≤ byteLength before) : ∃ gap, before = front ++ gap ∧ cs = gap ++ behind := by
  rcases List.append_eq_append_iff.mp same with ⟨gap, later, split⟩ | ⟨gap, earlier, split⟩
  · exact ⟨gap, later, split⟩
  · have empty : gap = [] := by
      by_contra some
      have positive := byteLength_pos some
      rw [earlier, byteLength_append] at reached
      omega
    subst empty
    exact ⟨[], by simpa using earlier.symm, by simpa using split.symm⟩

end Text

namespace Scanner
open Text Directive

section FirstHit
variable {recognise : List Char → Option (Phrase × List Char)} {text rest : List Char} {phrase : Phrase}

theorem firstHit_covered (place : Nat) (inside rest : List Char) :
    firstHit recognise inside.length place (inside ++ rest) =
      firstHit recognise 0 (place + byteLength inside) rest := by
  induction inside generalizing place with
  | nil => rfl
  | cons c inside ih =>
    rw [List.cons_append, List.length_cons, firstHit, ih, byteLength, Nat.add_assoc]

theorem firstHit_found {directive : Directive} (nonempty : text ≠ [])
    (recognised : recognise (text ++ rest) = some (phrase, rest)) (names : ofPhrase? phrase = some directive)
    (place : Nat) : firstHit recognise 0 place (text ++ rest) =
      some ⟨place, place + byteLength text, directive⟩ := by
  obtain ⟨c, inside, rfl⟩ := List.exists_cons_of_ne_nil nonempty
  have whole := taken_append_self (c :: inside) rest
  rw [List.cons_append] at recognised whole ⊢
  simp only [firstHit, recognised, names, whole]

theorem firstHit_further (nonempty : text ≠ []) (recognised : recognise (text ++ rest) = some (phrase, rest))
    (blank : ofPhrase? phrase = none) (place : Nat) :
    firstHit recognise 0 place (text ++ rest) = firstHit recognise 0 (place + byteLength text) rest := by
  obtain ⟨c, inside, rfl⟩ := List.exists_cons_of_ne_nil nonempty
  have whole := taken_append_self (c :: inside) rest
  rw [List.cons_append] at recognised whole ⊢
  simp only [firstHit, recognised, blank, whole, List.length_cons, Nat.add_sub_cancel]
  rw [firstHit_covered, byteLength, Nat.add_assoc]

theorem firstHit_gap {gap behind : List Char} (place : Nat)
    (nothing : ∀ front cs, gap = front ++ cs → cs ≠ [] → recognise (cs ++ behind) = none) :
    firstHit recognise 0 place (gap ++ behind) = firstHit recognise 0 (place + byteLength gap) behind := by
  induction gap generalizing place with
  | nil => rfl
  | cons c gap ih =>
    have here : recognise (c :: (gap ++ behind)) = none := nothing [] (c :: gap) rfl (List.cons_ne_nil c gap)
    simp only [List.cons_append, firstHit, here]
    rw [ih _ fun front cs split => nothing (c :: front) cs (congrArg (c :: ·) split), byteLength, Nat.add_assoc]

end FirstHit

section Search
variable {s : Scanner} {source : String} {start : Nat}

theorem next?_of_split {front cs : List Char} (split : source.toList = front ++ cs) :
    s.next? source (byteLength front) = firstHit s.match? 0 (byteLength front) cs := by
  rw [next?, split, dropBytes_byteLength]

theorem next?_eq_none (inked : ∀ key ∈ s.keys, Inked key.toList) (boundary : IsBoundary source start)
    (nothing : ∀ before behind, source.toList = before ++ behind → start ≤ byteLength before →
      ¬Matches s.tags s.keys behind) : s.next? source start = none := by
  obtain ⟨front, cs, split, rfl⟩ := isBoundary_iff.mp boundary
  rw [next?_of_split split, ← List.append_nil cs, firstHit_gap]
  · rfl
  · intro before behind parts _
    rw [match?_eq_none_iff inked, List.append_nil]
    refine nothing (front ++ before) behind ?_ ?_
    · rw [split, parts, List.append_assoc]
    · rw [byteLength_append]
      omega

/-- A scan comes to the first place with a match and goes on from there. -/
theorem next?_of_firstPlace (inked : ∀ key ∈ s.keys, Inked key.toList) (boundary : IsBoundary source start)
    {before behind : List Char} (place : FirstPlace s.tags s.keys source start before behind) :
    s.next? source start = firstHit s.match? 0 (byteLength before) behind := by
  obtain ⟨front, cs, split, rfl⟩ := isBoundary_iff.mp boundary
  obtain ⟨gap, rfl, rfl⟩ := exists_gap (split.symm.trans place.split) place.reached
  rw [next?_of_split split, firstHit_gap, byteLength_append]
  rintro early late rfl some
  rw [match?_eq_none_iff inked]
  intro matched
  have least := place.first (front ++ early) (late ++ behind) (by rw [split]; simp)
    (by rw [byteLength_append]; omega) matched
  have positive := byteLength_pos some
  simp only [byteLength_append] at least
  omega

/-- A match that is chosen is never empty, if no key begins with white space. -/
theorem Chosen.text_ne_nil (inked : ∀ key ∈ s.keys, Inked key.toList) {cs text : List Char} {phrase : Phrase}
    (chosen : Chosen s.tags s.keys cs phrase text) : text ≠ [] := by
  rintro rfl
  obtain ⟨found, rest, recognised, _, split⟩ := match?_of_chosen inked chosen
  have shorter := (s.match?_takesSome recognised).2
  rw [split, List.nil_append] at shorter
  omega

theorem FirstPlace.isBoundary {tags : Tags} {keys : List String} {before behind text rest : List Char}
    (place : FirstPlace tags keys source start before behind) (split : behind = text ++ rest) :
    IsBoundary source (byteLength before + byteLength text) :=
  isBoundary_iff.mpr ⟨before ++ text, rest, by rw [place.split, split, List.append_assoc],
    byteLength_append before text⟩

/-- What a scan is to find, it finds. The induction is on the matches that name nothing and are passed over on the
way. -/
theorem next?_of_finds (inked : ∀ key ∈ s.keys, Inked key.toList) {result : Option Hit}
    (finds : Finds s.tags s.keys source start result) (boundary : IsBoundary source start) :
    s.next? source start = result := by
  induction finds with
  | nothing nothing => exact next?_eq_none inked boundary nothing
  | hit place chosen names =>
    obtain ⟨found, rest, recognised, same, rfl⟩ := match?_of_chosen inked chosen
    rw [next?_of_firstPlace inked boundary place]
    exact firstHit_found (chosen.text_ne_nil inked) recognised (same.trans names) _
  | further place chosen blank _ ih =>
    obtain ⟨found, rest, recognised, same, rfl⟩ := match?_of_chosen inked chosen
    have stop := place.isBoundary rfl
    rw [next?_of_firstPlace inked boundary place,
      firstHit_further (chosen.text_ne_nil inked) recognised (same.trans blank), ← ih stop,
      ← byteLength_append, next?_of_split (by rw [place.split, List.append_assoc])]

/-- If there is a match at or after an offset, there is a first one. -/
theorem exists_firstPlace {tags : Tags} {keys : List String} {before behind : List Char}
    (split : source.toList = before ++ behind) (reached : start ≤ byteLength before)
    (matched : Matches tags keys behind) :
    ∃ before behind, FirstPlace tags keys source start before behind := by
  classical
  have place : ∃ n before behind, byteLength before = n ∧ source.toList = before ++ behind ∧
      start ≤ byteLength before ∧ Matches tags keys behind :=
    ⟨_, before, behind, rfl, split, reached, matched⟩
  obtain ⟨first, rest, least, split, reached, matched⟩ := Nat.find_spec place
  refine ⟨first, rest, split, reached, matched, fun before' behind' split' reached' matched' => ?_⟩
  rw [least]
  exact Nat.find_min' place ⟨before', behind', rfl, split', reached', matched'⟩

-- A match is not empty, so that the place behind it is nearer to the end.
/-- From every offset there is something to find, or nothing: the search behind matches that name nothing comes to an
end. -/
theorem exists_finds (inked : ∀ key ∈ s.keys, Inked key.toList) (source : String) (start : Nat) :
    ∃ result, Finds s.tags s.keys source start result := by
  induction left : size source - start using Nat.strong_induction_on generalizing start with
  | _ left ih =>
    by_cases matched : ∃ before behind, source.toList = before ++ behind ∧ start ≤ byteLength before ∧
        Matches s.tags s.keys behind
    · obtain ⟨_, _, split, reached, found⟩ := matched
      obtain ⟨before, behind, place⟩ := exists_firstPlace split reached found
      have recognised : s.match? behind ≠ none := (match?_eq_none_iff inked).not_left.mpr place.matched
      obtain ⟨⟨phrase, rest⟩, recognised⟩ := Option.ne_none_iff_exists'.mp recognised
      obtain ⟨text, chosen, parts⟩ := match?_split inked recognised
      cases names : ofPhrase? phrase with
      | some directive => exact ⟨_, .hit place chosen names⟩
      | none =>
        have stop := (place.isBoundary parts).le_size
        have positive := byteLength_pos (chosen.text_ne_nil inked)
        have reached := place.reached
        obtain ⟨result, finds⟩ := ih (size source - (byteLength before + byteLength text)) (by omega) _ rfl
        exact ⟨result, .further place chosen names finds⟩
    · refine ⟨none, .nothing fun before behind split reached found => ?_⟩
      exact matched ⟨before, behind, split, reached, found⟩

/-- A scanner finds what the grammar says and nothing else, from every boundary between characters, if no key begins
with white space. -/
theorem next?_eq_iff_finds (inked : ∀ key ∈ s.keys, Inked key.toList) (boundary : IsBoundary source start)
    (result : Option Hit) : s.next? source start = result ↔ Finds s.tags s.keys source start result := by
  constructor
  · rintro rfl
    obtain ⟨result, finds⟩ := exists_finds inked source start
    rwa [next?_of_finds inked finds boundary]
  · intro finds
    exact next?_of_finds inked finds boundary

theorem Chosen.spells {tags : Tags} {keys : List String} {cs word text : List Char}
    (chosen : Chosen tags keys cs (.data word) text) : ∃ key ∈ keys, Spells key.toList word := by
  cases chosen with
  | structural here =>
    obtain ⟨_, _, written, _, _⟩ := here.enclosed
    cases written
  | data _ parts _ here =>
    obtain ⟨_, _, written, _, _⟩ := here.enclosed
    cases written with
    | mk spells => exact ⟨_, by rw [parts]; exact List.mem_append_right _ (List.mem_cons_self ..), spells⟩

/-- A data key that is found is a spelling of one of the keys that the scanner looks for. -/
theorem spells_of_next? (inked : ∀ key ∈ s.keys, Inked key.toList) {hit : Hit} {k : String}
    (found : s.next? source start = some hit) (data : hit.directive = .data k) :
    ∃ key ∈ s.keys, Spells key.toList k.toList := by
  obtain ⟨_, _, _, phrase, _, recognised, names, _⟩ := firstHit_split s.match?_takesSome found
  rw [data] at names
  obtain ⟨text, chosen, _⟩ := match?_split inked recognised
  cases phrase with
  | data word =>
    cases names
    simpa only [String.toList_ofList] using chosen.spells
  | inclusion argument => simp [ofPhrase?] at names
  | layout argument => simp [ofPhrase?] at names
  | noLayout => cases names
  | slot => cases names

end Search

/-- With delimiters that are not empty there is a scanner, and from every edge between characters it
finds what the grammar says of the texts of the directives and of the keys in their order. -/
theorem exists_next?_iff_finds (tags : Tags) (keys : List String) (data : tags.data.hasEmpty = false)
    (directive : tags.directive.hasEmpty = false) :
    ∃ s, Scanner.new tags keys = .ok s ∧ ∀ source start, IsBoundary source start → ∀ result,
      s.next? source start = result ↔ Finds tags (scanKeys tags keys) source start result := by
  refine ⟨⟨tags, scanKeys tags keys, data, directive⟩, ?_, fun source start boundary result => ?_⟩
  · rw [Scanner.new, dif_neg (by rw [data]; exact Bool.false_ne_true),
      dif_neg (by rw [directive]; exact Bool.false_ne_true)]
  · exact next?_eq_iff_finds (fun key => inked_of_mem_scanKeys) boundary result

/-- Behind a character of two bytes, an inclusion that names nothing, and a key in another case. -/
def blankInclusion : String := "é<!-- include( ) -->\x7b\x7b NAME \x7d\x7d"

theorem scanKeys_name : scanKeys .default [" Name"] = ["name"] := by decide +kernel

theorem exists_next?_iff_finds_blankInclusion :
    ∃ s, Scanner.new .default [" Name"] = .ok s ∧
      s.next? blankInclusion 2 = some ⟨21, 31, .data "NAME"⟩ ∧
      Finds .default (scanKeys .default [" Name"]) blankInclusion 2 (some ⟨21, 31, .data "NAME"⟩) := by
  obtain ⟨s, made, finds⟩ := exists_next?_iff_finds .default [" Name"] (by decide) (by decide)
  have boundary : IsBoundary blankInclusion 2 := isBoundary_iff.mpr ⟨['é'], _, rfl, by decide⟩
  have next : s.next? blankInclusion 2 = some ⟨21, 31, .data "NAME"⟩ := by
    -- The kernel does not get through the sorting of keys, so they are put in as sorted.
    have same : s.match? = match? ⟨.default, ["name"], by decide, by decide⟩ := by
      cases made
      simp only [scanKeys_name]
    rw [next?, same]
    decide +kernel
  exact ⟨s, made, next, (finds _ _ boundary _).mp next⟩

end Scanner

end Templating
