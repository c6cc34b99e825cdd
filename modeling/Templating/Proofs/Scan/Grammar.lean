import Templating.Scan
import Templating.Proofs.Text.Boundary
import Templating.Proofs.Text.Spelling

namespace Templating

namespace Directive
open Text

/-- An argument in its parentheses, with the white space that may stand around it. -/
inductive Bracketed (argument : List Char) : List Char → Prop
  | mk {gap before after} : Blank gap → Blank before → Blank after → argument ≠ [] →
      (∀ c ∈ argument, isParenthesis c = false) →
      Bracketed argument (gap ++ '(' :: (before ++ (argument ++ after) ++ [')']))

/-- The texts of a phrase that is no data key. -/
inductive Written : Phrase → List Char → Prop
  | inclusion {word argument text} : Spells "include".toList word → Bracketed argument text →
      Written (.inclusion argument) (word ++ text)
  | slot {word} : Spells "slot".toList word → Written .slot word
  | layout {word argument text} : Spells "layout".toList word → Bracketed argument text →
      Written (.layout argument) (word ++ text)
  | noLayout {word} : Spells "!layout".toList word → Written .noLayout word

/-- The texts of a data key. -/
inductive KeyWritten (key : String) : Phrase → List Char → Prop
  | mk {word} : Spells key.toList word → KeyWritten key (.data word) word

/-- A phrase between delimiters. White space may stand on both sides of it; `gap` is the one behind. -/
inductive Enclosed (d : Delimiters) (said : Phrase → List Char → Prop) (phrase : Phrase)
    (gap : List Char) : List Char → Prop
  | mk {opening space body closing} : Spells d.opening.toList opening → Blank space → said phrase body →
      Blank gap → Spells d.closing.toList closing →
      Enclosed d said phrase gap (opening ++ (space ++ (body ++ (gap ++ closing))))

/-- A match at the front of `cs`. -/
structure MatchAt (d : Delimiters) (said : Phrase → List Char → Prop) (cs : List Char) (phrase : Phrase)
    (gap text : List Char) : Prop where
  enclosed : Enclosed d said phrase gap text
  front : text <+: cs

/-- A match at the front of `cs` that passes over as much white space behind its phrase as any. -/
structure LongestAt (d : Delimiters) (said : Phrase → List Char → Prop) (cs : List Char) (phrase : Phrase)
    (gap text : List Char) : Prop extends MatchAt d said cs phrase gap text where
  longest : ∀ phrase' gap' text', MatchAt d said cs phrase' gap' text' → gap'.length ≤ gap.length

/-- There is a match at the front of `cs`. -/
def SomeAt (d : Delimiters) (said : Phrase → List Char → Prop) (cs : List Char) : Prop :=
  ∃ phrase gap text, MatchAt d said cs phrase gap text

end Directive

namespace Scanner
open Text Directive

section Search
variable (tags : Tags) (keys : List String)

/-- A directive in directive delimiters or a data key stands at the front of `cs`. Nothing here runs: a match is a
text that is put together from its parts. -/
def Matches (cs : List Char) : Prop :=
  SomeAt tags.directive Written cs ∨ ∃ key ∈ keys, SomeAt tags.data (KeyWritten key) cs

/-- The match that is taken at the front of `cs`: a data key only where no other directive stands, and
of the keys the first. -/
inductive Chosen (cs : List Char) : Phrase → List Char → Prop
  | structural {phrase gap text} : LongestAt tags.directive Written cs phrase gap text →
      Chosen cs phrase text
  | data {earlier key later phrase gap text} : ¬SomeAt tags.directive Written cs →
      keys = earlier ++ key :: later → (∀ k ∈ earlier, ¬SomeAt tags.data (KeyWritten k) cs) →
      LongestAt tags.data (KeyWritten key) cs phrase gap text → Chosen cs phrase text

/-- The first place at or after an offset where there is a match: between `before` and `behind`. -/
structure FirstPlace (source : String) (start : Nat) (before behind : List Char) : Prop where
  split : source.toList = before ++ behind
  reached : start ≤ byteLength before
  matched : Matches tags keys behind
  first : ∀ before' behind', source.toList = before' ++ behind' → start ≤ byteLength before' →
    Matches tags keys behind' → byteLength before ≤ byteLength before'

/-- What a scan from an offset is to find. A match whose argument names nothing is passed over as a
whole. -/
inductive Finds (source : String) : (start : Nat) → Option Hit → Prop
  | nothing {start} : (∀ before behind, source.toList = before ++ behind → start ≤ byteLength before →
      ¬Matches tags keys behind) → Finds source start none
  | hit {start before behind phrase text directive} : FirstPlace tags keys source start before behind →
      Chosen tags keys behind phrase text → ofPhrase? phrase = some directive →
      Finds source start (some ⟨byteLength before, byteLength before + byteLength text, directive⟩)
  | further {start before behind phrase text result} : FirstPlace tags keys source start before behind →
      Chosen tags keys behind phrase text → ofPhrase? phrase = none →
      Finds source (byteLength before + byteLength text) result → Finds source start result

end Search

end Scanner

end Templating
