import Templating.Proofs.Scan.Layouts
import Templating.Proofs.Text.Spelling

namespace Templating

namespace Text

theorem dropSpacesRight_concat {c : Char} (ink : isSpace c = false) (cs : List Char) :
    dropSpacesRight (cs ++ [c]) = cs ++ [c] := by
  induction cs with
  | nil => exact if_neg (by rw [ink]; exact Bool.false_ne_true)
  | cons d cs ih =>
    rw [List.cons_append, dropSpacesRight, ih]
    cases cs <;> rfl

theorem trimSpaces_of_edges {c d : Char} (first : isSpace c = false) (last : isSpace d = false)
    (cs : List Char) : trimSpaces (c :: (cs ++ [d])) = c :: (cs ++ [d]) := by
  rw [trimSpaces, dropSpaces_cons first, ← List.cons_append, dropSpacesRight_concat last]

end Text

namespace Directive
open Text

/-- The characters that an argument may be written between. -/
inductive IsQuote : Char → Prop
  | double : IsQuote '"'
  | single : IsQuote '\''

/-- A text between two quotes of one kind. -/
inductive Quoted (inner : List Char) : List Char → Prop
  | mk {quote} : IsQuote quote → Quoted inner (quote :: (inner ++ [quote]))

/-- The ways to write an argument: between quotes, where white space may stand inside them, or as it
is, unless it is itself between quotes. -/
inductive Worded (argument : List Char) : List Char → Prop
  | bare : (∀ inner, ¬Quoted inner argument) → Worded argument argument
  | quoted {before after text} : Blank before → Blank after →
      Quoted (before ++ (argument ++ after)) text → Worded argument text

/-- The texts of a word with an argument in delimiters, and of nothing else. White space may stand behind
the opening delimiter, on both sides of each parenthesis, and so before the closing delimiter. -/
inductive Calls (d : Delimiters) (word : String) (argument : List Char) : List Char → Prop
  | mk {opening space name gap before wording after gap' closing} : Spells d.opening.toList opening →
      Blank space → Spells word.toList name → Blank gap → Blank before → Worded argument wording →
      Blank after → Blank gap' → Spells d.closing.toList closing →
      Calls d word argument (opening ++ (space ++
        (name ++ (gap ++ '(' :: (before ++ (wording ++ after) ++ [')'])) ++ (gap' ++ closing))))

section Unquote
variable {cs inner argument wording : List Char}

theorem IsQuote.isSpace {quote : Char} (isQuote : IsQuote quote) : isSpace quote = false := by
  cases isQuote <;> decide

theorem IsQuote.isParenthesis {quote : Char} (isQuote : IsQuote quote) : isParenthesis quote = false := by
  cases isQuote <;> decide

theorem Quoted.trimSpaces (quoted : Quoted inner cs) : trimSpaces cs = cs := by
  obtain ⟨isQuote⟩ := quoted
  exact trimSpaces_of_edges isQuote.isSpace isQuote.isSpace inner

theorem Quoted.head?_eq_getLast? (quoted : Quoted inner cs) : cs.head? = cs.getLast? := by
  obtain ⟨_⟩ := quoted
  rw [← List.cons_append, List.getLast?_concat, List.cons_append, List.head?_cons]

/-- A text is read as quoted exactly if a quote stands at each of its ends, be there quotes of that kind inside it or
not. -/
theorem quoted?_eq_some_iff {quote : Char} :
    quoted? quote cs = some inner ↔ cs = quote :: (inner ++ [quote]) := by
  cases cs with
  | nil => simp [quoted?]
  | cons c cs =>
    rw [quoted?]
    constructor
    · intro found
      split at found
      next ends =>
        obtain ⟨rfl, last⟩ := ends
        obtain ⟨front, rfl⟩ := List.getLast?_eq_some_iff.mp last
        rw [List.dropLast_concat] at found
        cases found
        rfl
      next => cases found
    · intro split
      cases split
      rw [List.getLast?_concat, List.dropLast_concat, if_pos ⟨rfl, rfl⟩]

theorem Quoted.unquote (quoted : Quoted inner cs) : unquote cs = inner := by
  obtain ⟨isQuote⟩ := quoted
  cases isQuote with
  | double => rw [Directive.unquote, quoted?_eq_some_iff.mpr rfl, Option.some_or, Option.getD_some]
  | single =>
    have other : quoted? '"' ('\'' :: (inner ++ ['\''])) = none := rfl
    rw [Directive.unquote, other, Option.none_or, quoted?_eq_some_iff.mpr rfl, Option.getD_some]

theorem unquote_of_bare (bare : ∀ inner, ¬Quoted inner cs) : unquote cs = cs := by
  have unquoted {quote : Char} (isQuote : IsQuote quote) : quoted? quote cs = none := by
    refine Option.eq_none_iff_forall_ne_some.mpr fun inner found => bare inner ?_
    rw [quoted?_eq_some_iff.mp found]
    exact .mk isQuote
  rw [unquote, unquoted .double, unquoted .single, Option.or_none, Option.getD_none]

/-- An argument without white space at its ends is read as it was meant, however it is written. -/
theorem target?_of_worded (trimmed : trimSpaces argument = argument) (nonempty : argument ≠ [])
    (worded : Worded argument wording) : target? wording = some (String.ofList argument) := by
  have read : Text.trimSpaces (unquote (Text.trimSpaces wording)) = argument := by
    cases worded with
    | bare bare => rw [trimmed, unquote_of_bare bare, trimmed]
    | quoted first last quoted => rw [quoted.trimSpaces, quoted.unquote, trimSpaces_of_blank first last, trimmed]
  rw [target?, read]
  cases argument with
  | nil => exact absurd rfl nonempty
  | cons c cs => rfl

end Unquote

section Calls
variable {argument wording text : List Char}

theorem Worded.ne_nil (worded : Worded argument wording) (nonempty : argument ≠ []) : wording ≠ [] := by
  cases worded with
  | bare => exact nonempty
  | quoted _ _ quoted =>
    obtain ⟨_⟩ := quoted
    exact List.cons_ne_nil _ _

theorem Worded.free (worded : Worded argument wording) (free : ∀ c ∈ argument, isParenthesis c = false) :
    ∀ c ∈ wording, isParenthesis c = false := by
  cases worded with
  | bare => exact free
  | quoted first last quoted =>
    obtain ⟨isQuote⟩ := quoted
    have quote := isQuote.isParenthesis
    simp only [List.mem_cons, List.mem_append, List.not_mem_nil, or_false]
    rintro c (rfl | (early | inside | late) | rfl)
    · exact quote
    · exact isParenthesis_of_isSpace (first c early)
    · exact free c inside
    · exact isParenthesis_of_isSpace (last c late)
    · exact quote

/-- A call is a phrase between delimiters, in the sense of the grammar, with one of the wordings of the argument in
it. -/
theorem Calls.exists_enclosed {d : Delimiters} {word : String} {phrase : List Char → Phrase}
    (writes : ∀ {name wording text}, Spells word.toList name → Bracketed wording text →
      Written (phrase wording) (name ++ text))
    (calls : Calls d word argument text) (nonempty : argument ≠ [])
    (free : ∀ c ∈ argument, isParenthesis c = false) :
    ∃ wording gap, Worded argument wording ∧ Enclosed d Written (phrase wording) gap text := by
  obtain ⟨opens, blank, spells, gap, before, worded, after, gap', closes⟩ := calls
  have bracketed := Bracketed.mk gap before after (worded.ne_nil nonempty) (worded.free free)
  exact ⟨_, _, worded, .mk opens blank (writes spells bracketed) gap' closes⟩

end Calls

end Directive

namespace Scanner
open Text Directive

section Whole
variable {s : Scanner} {source : String} {phrase : Phrase} {directive : Directive} {gap text : List Char}

/-- Where a match is the whole text, no other one passes over more white space: the closing delimiter would have to be
shorter. -/
theorem longestAt_of_enclosed {d : Delimiters} {phrase? : List Char → Option (Phrase × List Char)}
    {said : Phrase → List Char → Prop} (recognises : Recognises phrase? said)
    (whole : Enclosed d said phrase gap text) : LongestAt d said text phrase gap text := by
  have here : MatchAt d said text phrase gap text := ⟨whole, List.prefix_refl _⟩
  refine ⟨here, fun phrase' gap' text' other => ?_⟩
  obtain ⟨_, _, closing, rest, opened, _, _, closes, _, split⟩ := opened?_of_matchAt recognises here
  obtain ⟨_, _, closing', rest', opened', _, _, closes', _⟩ := opened?_of_matchAt recognises other
  have behind : gap ++ (closing ++ rest) = gap' ++ (closing' ++ rest') :=
    congrArg Prod.snd (Option.some.inj (opened.symm.trans opened'))
  have nothing : rest = [] := List.self_eq_append_right.mp split
  have total := congrArg List.length behind
  have length := closes.length
  have length' := closes'.length
  rw [nothing] at total
  simp only [List.length_append, List.length_nil] at total
  omega

/-- A text that is one phrase between delimiters is recognised to its end, with an argument that names the same. -/
theorem match?_of_whole (whole : Enclosed s.tags.directive Written phrase gap text) :
    ∃ found, s.match? text = some (found, []) ∧ ofPhrase? found = ofPhrase? phrase ∧ text ≠ [] := by
  obtain ⟨found, rest, taken, same, split⟩ :=
    enclosed?_of_longestAt recognises_phrase? (longestAt_of_enclosed recognises_phrase? whole)
  obtain rfl : rest = [] := List.self_eq_append_right.mp split
  have recognised : s.match? text = some (found, []) := by rw [match?, taken, Option.some_or]
  refine ⟨found, recognised, same, ?_⟩
  rintro rfl
  exact absurd (s.match?_takesSome recognised).2 (Nat.lt_irrefl _)

theorem next?_of_whole (whole : Enclosed s.tags.directive Written phrase gap source.toList)
    (names : ofPhrase? phrase = some directive) : s.next? source 0 = some ⟨0, size source, directive⟩ := by
  obtain ⟨found, recognised, same, nonempty⟩ := match?_of_whole whole
  rw [← List.append_nil source.toList] at recognised
  have hit := firstHit_found nonempty recognised (same.trans names) 0
  rw [List.append_nil, Nat.zero_add] at hit
  have start : source.toList = [] ++ source.toList := rfl
  exact (next?_of_split start).trans hit

/-- A text that is one layout directive and nothing else is the layout directive in effect. -/
theorem layout?_of_whole (whole : Enclosed s.tags.directive Written phrase gap source.toList)
    (names : ofPhrase? phrase = some directive) (kind : directive.isLayout = true) :
    s.layout? source = some ⟨0, size source, directive⟩ := by
  obtain ⟨found, recognised, same, nonempty⟩ := match?_of_whole whole
  have isLayout : found.isLayout = true := (isLayout_of_ofPhrase? (same.trans names)).symm.trans kind
  have seen := layoutMatch?_eq_some_iff.mpr ⟨recognised, isLayout⟩
  rw [← List.append_nil source.toList] at seen
  have hit := lastHit_take nonempty seen 0
  rw [List.append_nil, Nat.zero_add, Match.hit?, same, names] at hit
  exact hit

end Whole

/-- An include or a layout directive that is written out, with its argument bare or in quotes, is found
as one hit that covers the whole text and has that argument. -/
theorem next?_of_calls (tags : Tags) (keys : List String) (data : tags.data.hasEmpty = false)
    (directive : tags.directive.hasEmpty = false) :
    ∃ s, Scanner.new tags keys = .ok s ∧ ∀ argument source : String, argument ≠ "" → trim argument = argument →
      (∀ c ∈ argument.toList, isParenthesis c = false) →
      (Calls tags.directive "include" argument.toList source.toList →
        s.next? source 0 = some ⟨0, size source, .inclusion argument⟩) ∧
      (Calls tags.directive "layout" argument.toList source.toList →
        s.next? source 0 = some ⟨0, size source, .layout argument⟩ ∧
        s.layout? source = some ⟨0, size source, .layout argument⟩) := by
  refine ⟨⟨tags, scanKeys tags keys, data, directive⟩, new_eq_ok_iff.mpr ⟨rfl, rfl⟩, ?_⟩
  intro argument source nonempty trimmed free
  have filled : argument.toList ≠ [] := by simpa using nonempty
  have edges : trimSpaces argument.toList = argument.toList := by
    have same := congrArg String.toList trimmed
    rwa [trim, String.toList_ofList] at same
  have reads {wording : List Char} (worded : Worded argument.toList wording) :
      target? wording = .some argument := by
    rw [target?_of_worded edges filled worded, String.ofList_toList]
  constructor
  · intro calls
    obtain ⟨wording, gap, worded, whole⟩ := calls.exists_enclosed .inclusion filled free
    exact next?_of_whole whole (by rw [ofPhrase?, reads worded, Option.map_some])
  · intro calls
    obtain ⟨wording, gap, worded, whole⟩ := calls.exists_enclosed .layout filled free
    have names : ofPhrase? (.layout wording) = .some (.layout argument) := by
      rw [ofPhrase?, reads worded, Option.map_some]
    exact ⟨next?_of_whole whole names, layout?_of_whole whole names rfl⟩

/-- Delimiters with white space in them. -/
def spacedTags : Tags := ⟨⟨"\x7b\x7b", "\x7d\x7d"⟩, ⟨"<% ", " %>"⟩⟩

/-- An argument with quotes of both kinds and the text of another directive in it. -/
def entangled : String := "\"a\" <% !layout %> 'b'"

theorem next?_of_calls_entangled :
    ∃ s, Scanner.new spacedTags ["b"] = .ok s ∧
      (Calls spacedTags.directive "include" entangled.toList
          "<%  INCLUDE(' \"a\" <% !layout %> 'b'')\n %>".toList ∧
        s.next? "<%  INCLUDE(' \"a\" <% !layout %> 'b'')\n %>" 0 = some ⟨0, 41, .inclusion entangled⟩) ∧
      Calls spacedTags.directive "layout" entangled.toList "<% Layout ( \"a\" <% !layout %> 'b' ) %>".toList ∧
      s.layout? "<% Layout ( \"a\" <% !layout %> 'b' ) %>" = some ⟨0, 38, .layout entangled⟩ := by
  obtain ⟨s, made, reads⟩ := next?_of_calls spacedTags ["b"] (by decide) (by decide)
  have opens : Spells spacedTags.directive.opening.toList "<% ".toList := .refl _
  have closes : Spells spacedTags.directive.closing.toList " %>".toList := .refl _
  have space : Blank [' '] := List.forall_mem_singleton.mpr (by decide)
  have line : Blank ['\n'] := List.forall_mem_singleton.mpr (by decide)
  have blank : Blank [] := List.forall_mem_nil _
  have capitals : Spells "include".toList "INCLUDE".toList := fold_eq_fold_iff.mp (by decide +kernel)
  have capital : Spells "layout".toList "Layout".toList := fold_eq_fold_iff.mp (by decide +kernel)
  have quoted : Worded entangled.toList _ := .quoted space blank (.mk .single)
  have bare : Worded entangled.toList entangled.toList :=
    .bare fun _ quoted => absurd quoted.head?_eq_getLast? (by decide)
  have calls : Calls spacedTags.directive "include" entangled.toList
      "<%  INCLUDE(' \"a\" <% !layout %> 'b'')\n %>".toList :=
    .mk opens space capitals blank blank quoted blank line closes
  have calls' : Calls spacedTags.directive "layout" entangled.toList
      "<% Layout ( \"a\" <% !layout %> 'b' ) %>".toList :=
    .mk opens blank capital space space bare space blank closes
  have free : (entangled.toList.all fun c => !isParenthesis c) = true := by decide
  simp only [List.all_eq_true, Bool.not_eq_true'] at free
  have read (source : String) := reads entangled source (by decide) (by decide +kernel) free
  exact ⟨s, made, ⟨calls, (read _).1 calls⟩, calls', ((read _).2 calls').2⟩

end Scanner

end Templating
