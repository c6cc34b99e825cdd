import Templating.Proofs.Scan.Grammar

namespace Templating

namespace Directive
open Text

/-- A word is taken off the front exactly if a spelling of it stands there. -/
theorem word?_eq_some_iff {word cs rest : List Char} :
    word? word cs = some rest ↔ ∃ text, Spells word text ∧ cs = text ++ rest := by
  induction word generalizing cs with
  | nil =>
    have same : word? [] cs = some cs := by cases cs <;> rfl
    rw [same]
    constructor
    · intro found
      exact ⟨[], .nil, Option.some.inj found⟩
    · rintro ⟨text, spells, rfl⟩
      cases spells
      rfl
  | cons w word ih =>
    constructor
    · intro found
      cases cs with
      | nil => cases found
      | cons c cs =>
        rw [word?] at found
        split at found
        next same =>
          obtain ⟨text, spells, rfl⟩ := ih.mp found
          exact ⟨c :: text, .cons same spells, rfl⟩
        next => cases found
    · rintro ⟨text, spells, rfl⟩
      cases spells with
      | @cons _ c _ text same spells =>
        rw [List.cons_append, word?, if_pos same]
        exact ih.mpr ⟨text, spells, rfl⟩

/-- A word is not found where another one is spelled that starts with another letter. -/
theorem word?_eq_none {w w' : Char} {ws ws' text : List Char} (spells : Spells (w' :: ws') text)
    (apart : foldChar w ≠ foldChar w') (rest : List Char) : word? (w :: ws) (text ++ rest) = none := by
  obtain ⟨c, cs, rfl, same⟩ := spells.head
  rw [List.cons_append, word?, if_neg]
  intro here
  exact apart ((sameFold_iff.mp here).trans same.symm)

section Closing
variable {close cs rest : List Char}

/-- What is taken by a closing delimiter is white space and a spelling of the delimiter. -/
theorem closing?_split (found : closing? close cs = some rest) :
    ∃ gap text, Blank gap ∧ Spells close text ∧ cs = gap ++ (text ++ rest) := by
  have atOnce {cs : List Char} (here : word? close cs = some rest) :
      ∃ gap text, Blank gap ∧ Spells close text ∧ cs = gap ++ (text ++ rest) := by
    obtain ⟨text, spells, split⟩ := word?_eq_some_iff.mp here
    exact ⟨[], text, List.forall_mem_nil _, spells, split⟩
  induction cs with
  | nil => exact atOnce found
  | cons c cs ih =>
    rw [closing?] at found
    split at found
    next space =>
      rcases Option.or_eq_some_iff.mp found with later | ⟨_, here⟩
      · obtain ⟨gap, text, blank, spells, split⟩ := ih later
        exact ⟨c :: gap, text, List.forall_mem_cons.mpr ⟨space, blank⟩, spells, congrArg (c :: ·) split⟩
      · exact atOnce here
    next => exact atOnce found

/-- If white space and a closing delimiter stand at the front, the delimiter is found there, behind at least as much
white space. It may itself begin with some. -/
theorem closing?_longest {gap text : List Char} (blank : Blank gap) (spells : Spells close text)
    (rest : List Char) : ∃ left, closing? close (gap ++ (text ++ rest)) = some left ∧
      left.length ≤ rest.length := by
  induction gap with
  | nil =>
    have here : word? close (text ++ rest) = some rest := word?_eq_some_iff.mpr ⟨text, spells, rfl⟩
    rw [List.nil_append]
    cases split : text ++ rest with
    | nil =>
      rw [split] at here
      exact ⟨rest, here, le_rfl⟩
    | cons c cs =>
      rw [split] at here
      rw [closing?]
      split
      next =>
        cases later : closing? close cs with
        | none => exact ⟨rest, by rw [Option.none_or, here], le_rfl⟩
        | some left =>
          obtain ⟨gap, text', _, spells', split'⟩ := closing?_split later
          refine ⟨left, Option.some_or, ?_⟩
          have total := congrArg List.length split
          have total' := congrArg List.length split'
          have length := spells.length
          have length' := spells'.length
          simp only [List.length_append, List.length_cons] at total total'
          omega
      next => exact ⟨rest, here, le_rfl⟩
  | cons c gap ih =>
    have ⟨space, more⟩ := List.forall_mem_cons.mp blank
    obtain ⟨left, later, length⟩ := ih more
    refine ⟨left, ?_, length⟩
    rw [List.cons_append, closing?, if_pos space, later, Option.some_or]

end Closing

theorem isParenthesis_of_isSpace {c : Char} (space : isSpace c = true) : isParenthesis c = false := by
  cases parenthesis : isParenthesis c with
  | false => rfl
  | true =>
    rw [isParenthesis, Bool.or_eq_true, beq_iff_eq, beq_iff_eq] at parenthesis
    rcases parenthesis with rfl | rfl <;> cases space

/-- What is taken as an argument is one in its parentheses, in the sense of the grammar. -/
theorem argument?_split {cs argument rest : List Char} (found : argument? cs = some (argument, rest)) :
    ∃ text, Bracketed argument text ∧ cs = text ++ rest := by
  unfold argument? at found
  split at found
  next inner opened =>
    split at found
    next c more rest' inside left =>
      cases found
      obtain ⟨gap, blank, split⟩ := exists_blank_dropSpaces cs
      have free : ∀ d ∈ c :: more, isParenthesis d = false := by
        intro d member
        rw [← inside] at member
        simpa using List.mem_takeWhile_imp member
      have parts : inner = c :: more ++ ')' :: rest := by
        rw [← inside, ← left, List.takeWhile_append_dropWhile]
      refine ⟨_, .mk blank (List.forall_mem_nil _) (List.forall_mem_nil _) (List.cons_ne_nil c more) free, ?_⟩
      rw [split, opened, parts]
      simp
    next => cases found
  next => cases found

theorem argument?_of_bracketed {argument text : List Char} (bracketed : Bracketed argument text)
    (rest : List Char) : ∃ before after, Blank before ∧ Blank after ∧
      argument? (text ++ rest) = some (before ++ (argument ++ after), rest) := by
  cases bracketed with
  | @mk gap before after blank first last nonempty free =>
    refine ⟨before, after, first, last, ?_⟩
    have free : ∀ c ∈ before ++ (argument ++ after), (!isParenthesis c) = true := by
      simp only [List.mem_append, Bool.not_eq_true']
      rintro c (early | inside | late)
      · exact isParenthesis_of_isSpace (first c early)
      · exact free c inside
      · exact isParenthesis_of_isSpace (last c late)
    have opened : dropSpaces (gap ++ '(' :: (before ++ (argument ++ after) ++ [')']) ++ rest) =
        '(' :: (before ++ (argument ++ after) ++ ')' :: rest) := by
      rw [List.append_assoc, dropSpaces_of_blank blank, List.cons_append, dropSpaces_cons (by rfl)]
      simp
    have inside : (before ++ (argument ++ after) ++ ')' :: rest).takeWhile (!isParenthesis ·) =
        before ++ (argument ++ after) := by
      rw [List.takeWhile_append_of_pos free]
      exact List.append_nil _
    have left : (before ++ (argument ++ after) ++ ')' :: rest).dropWhile (!isParenthesis ·) = ')' :: rest := by
      rw [List.dropWhile_append_of_pos free]
      rfl
    simp only [argument?, opened, inside, left]
    cases same : before ++ (argument ++ after) with
    | nil => simp [nonempty] at same
    | cons c more => rfl

theorem target?_of_blank {before after : List Char} (first : Blank before) (last : Blank after)
    (argument : List Char) : target? (before ++ (argument ++ after)) = target? argument := by
  rw [target?, trimSpaces_of_blank first last, target?]

/-- A recogniser takes the texts of a phrase off the front, and only these; they do not start with white
space. What it finds may be read with more white space around an argument, which makes no difference. -/
structure Recognises (phrase? : List Char → Option (Phrase × List Char))
    (said : Phrase → List Char → Prop) : Prop where
  split : ∀ {cs phrase rest}, phrase? cs = some (phrase, rest) → ∃ body, said phrase body ∧ cs = body ++ rest
  found : ∀ {phrase body}, said phrase body → ∀ rest, ∃ phrase',
    phrase? (body ++ rest) = some (phrase', rest) ∧ ofPhrase? phrase' = ofPhrase? phrase
  inked : ∀ {phrase body}, said phrase body → Inked body

theorem layoutPhrase?_split {cs rest : List Char} {phrase : Phrase}
    (found : layoutPhrase? cs = some (phrase, rest)) : ∃ body, Written phrase body ∧ cs = body ++ rest := by
  unfold layoutPhrase? at found
  split at found
  next behind word =>
    obtain ⟨⟨argument, left⟩, taken, same⟩ := Option.map_eq_some_iff.mp found
    cases same
    obtain ⟨first, spells, rfl⟩ := word?_eq_some_iff.mp word
    obtain ⟨text, bracketed, rfl⟩ := argument?_split taken
    exact ⟨first ++ text, .layout spells bracketed, (List.append_assoc ..).symm⟩
  next =>
    obtain ⟨left, word, same⟩ := Option.map_eq_some_iff.mp found
    cases same
    obtain ⟨first, spells, rfl⟩ := word?_eq_some_iff.mp word
    exact ⟨first, .noLayout spells, rfl⟩

/-- What a recogniser of phrases takes off the front is one of the texts of the phrase that it finds. -/
theorem phrase?_split {cs rest : List Char} {phrase : Phrase} (found : phrase? cs = some (phrase, rest)) :
    ∃ body, Written phrase body ∧ cs = body ++ rest := by
  unfold phrase? at found
  split at found
  next behind word =>
    obtain ⟨⟨argument, left⟩, taken, same⟩ := Option.map_eq_some_iff.mp found
    cases same
    obtain ⟨first, spells, rfl⟩ := word?_eq_some_iff.mp word
    obtain ⟨text, bracketed, rfl⟩ := argument?_split taken
    exact ⟨first ++ text, .inclusion spells bracketed, (List.append_assoc ..).symm⟩
  next =>
    split at found
    next behind word =>
      cases found
      obtain ⟨first, spells, rfl⟩ := word?_eq_some_iff.mp word
      exact ⟨first, .slot spells, rfl⟩
    next => exact layoutPhrase?_split found

-- The four words differ in their first letters, so at most one of them stands at the front.
/-- Every text of a phrase is recognised, whatever stands behind it. -/
theorem phrase?_found {phrase : Phrase} {body : List Char} (written : Written phrase body)
    (rest : List Char) : ∃ phrase', phrase? (body ++ rest) = some (phrase', rest) ∧
      ofPhrase? phrase' = ofPhrase? phrase := by
  have noInclude {w : Char} {ws word : List Char} (spells : Spells (w :: ws) word)
      (apart : foldChar 'i' ≠ foldChar w) (rest : List Char) : word? "include".toList (word ++ rest) = none :=
    word?_eq_none spells apart rest
  have noSlot {w : Char} {ws word : List Char} (spells : Spells (w :: ws) word)
      (apart : foldChar 's' ≠ foldChar w) (rest : List Char) : word? "slot".toList (word ++ rest) = none :=
    word?_eq_none spells apart rest
  cases written with
  | @inclusion word argument text spells bracketed =>
    obtain ⟨before, after, first, last, taken⟩ := argument?_of_bracketed bracketed rest
    refine ⟨.inclusion (before ++ (argument ++ after)), ?_, ?_⟩
    · rw [List.append_assoc, phrase?, word?_eq_some_iff.mpr ⟨word, spells, rfl⟩]
      simp only [taken, Option.map_some]
    · rw [ofPhrase?, target?_of_blank first last, ofPhrase?]
  | @slot word spells =>
    refine ⟨.slot, ?_, rfl⟩
    rw [phrase?, noInclude spells (by decide) rest, word?_eq_some_iff.mpr ⟨body, spells, rfl⟩]
  | @layout word argument text spells bracketed =>
    obtain ⟨before, after, first, last, taken⟩ := argument?_of_bracketed bracketed rest
    refine ⟨.layout (before ++ (argument ++ after)), ?_, ?_⟩
    · rw [List.append_assoc, phrase?, noInclude spells (by decide), noSlot spells (by decide), layoutPhrase?,
        word?_eq_some_iff.mpr ⟨word, spells, rfl⟩]
      simp only [taken, Option.map_some]
    · rw [ofPhrase?, target?_of_blank first last, ofPhrase?]
  | @noLayout word spells =>
    refine ⟨.noLayout, ?_, rfl⟩
    have noWord : word? "layout".toList (body ++ rest) = none := word?_eq_none spells (by decide) rest
    rw [phrase?, noInclude spells (by decide) rest, noSlot spells (by decide) rest, layoutPhrase?, noWord,
      word?_eq_some_iff.mpr ⟨body, spells, rfl⟩]
    rfl

/-- The recogniser of phrases takes exactly the texts of the grammar. -/
theorem recognises_phrase? : Recognises phrase? Written where
  split := phrase?_split
  found := phrase?_found
  inked written := by
    cases written with
    | slot spells | noLayout spells => exact spells.inked ⟨_, _, rfl, by decide⟩
    | @inclusion word _ text spells _ | @layout word _ text spells _ =>
      obtain ⟨c, cs, rfl, ink⟩ := spells.inked ⟨_, _, rfl, by decide⟩
      exact ⟨c, cs ++ text, rfl, ink⟩

theorem keyPhrase?_split {key : String} {cs rest : List Char} {phrase : Phrase}
    (found : keyPhrase? key.toList cs = some (phrase, rest)) :
    ∃ body, KeyWritten key phrase body ∧ cs = body ++ rest := by
  obtain ⟨left, word, same⟩ := Option.map_eq_some_iff.mp found
  cases same
  obtain ⟨text, spells, rfl⟩ := word?_eq_some_iff.mp word
  rw [← spells.length, List.take_left]
  exact ⟨text, .mk spells, rfl⟩

/-- The recogniser of a key takes exactly the spellings of the key, if that does not begin with white space. -/
theorem recognises_keyPhrase? {key : String} (inked : Inked key.toList) :
    Recognises (keyPhrase? key.toList) (KeyWritten key) where
  split := keyPhrase?_split
  found {_ body} written rest := by
    cases written with
    | mk spells =>
      refine ⟨.data body, ?_, rfl⟩
      rw [keyPhrase?, word?_eq_some_iff.mpr ⟨body, spells, rfl⟩, ← spells.length, List.take_left]
      rfl
  inked written := by
    cases written with
    | mk spells => exact spells.inked inked

end Directive

namespace Scanner
open Text Directive

/-- Takes an opening delimiter and a phrase off the front. -/
def opened? (d : Delimiters) (phrase? : List Char → Option (Phrase × List Char)) (cs : List Char) :
    Option (Phrase × List Char) :=
  (word? d.opening.toList cs).bind fun inner => phrase? (dropSpaces inner)

section Enclosed
variable {d : Delimiters} {phrase? : List Char → Option (Phrase × List Char)}
  {said : Phrase → List Char → Prop} {cs gap text : List Char} {phrase : Phrase}

theorem enclosed?_eq (d : Delimiters) (phrase? : List Char → Option (Phrase × List Char)) (cs : List Char) :
    enclosed? d phrase? cs = (opened? d phrase? cs).bind fun (found, behind) =>
      (closing? d.closing.toList behind).map fun rest => (found, rest) := by
  rw [enclosed?, opened?, Option.bind_assoc]

theorem enclosed?_of_opened {behind left : List Char} (opened : opened? d phrase? cs = some (phrase, behind))
    (closed : closing? d.closing.toList behind = some left) : enclosed? d phrase? cs = some (phrase, left) := by
  rw [enclosed?_eq, opened, Option.bind_some]
  dsimp only
  rw [closed, Option.map_some]

theorem opened?_split (recognises : Recognises phrase? said) {behind : List Char}
    (opened : opened? d phrase? cs = some (phrase, behind)) :
    ∃ opening space body, Spells d.opening.toList opening ∧ Blank space ∧ said phrase body ∧
      cs = opening ++ (space ++ (body ++ behind)) := by
  obtain ⟨inner, word, spoken⟩ := Option.bind_eq_some_iff.mp opened
  obtain ⟨opening, spells, rfl⟩ := word?_eq_some_iff.mp word
  obtain ⟨space, blank, split⟩ := exists_blank_dropSpaces inner
  obtain ⟨body, written, left⟩ := recognises.split spoken
  exact ⟨opening, space, body, spells, blank, written, by rw [← left, ← split]⟩

/-- Up to the white space behind the phrase a match is what the recogniser reads. -/
theorem opened?_of_matchAt (recognises : Recognises phrase? said) (here : MatchAt d said cs phrase gap text) :
    ∃ found front closing rest, opened? d phrase? cs = some (found, gap ++ (closing ++ rest)) ∧
      ofPhrase? found = ofPhrase? phrase ∧ Blank gap ∧ Spells d.closing.toList closing ∧
      text = front ++ (gap ++ closing) ∧ cs = text ++ rest := by
  obtain ⟨enclosed, rest, rfl⟩ := here
  cases enclosed with
  | @mk opening space body closing opens blank written blank' closes =>
    obtain ⟨found, spoken, same⟩ := recognises.found written (gap ++ (closing ++ rest))
    obtain ⟨c, more, split, ink⟩ := recognises.inked written
    refine ⟨found, opening ++ (space ++ body), closing, rest, ?_, same, blank', closes, by simp, rfl⟩
    have word : word? d.opening.toList (opening ++ (space ++ (body ++ (gap ++ closing))) ++ rest) =
        some (space ++ (body ++ (gap ++ (closing ++ rest)))) :=
      word?_eq_some_iff.mpr ⟨opening, opens, by simp⟩
    have dropped : dropSpaces (space ++ (body ++ (gap ++ (closing ++ rest)))) =
        body ++ (gap ++ (closing ++ rest)) := by
      rw [dropSpaces_of_blank blank, split, List.cons_append, dropSpaces_cons ink]
    rw [opened?, word, Option.bind_some, dropped, spoken]

/-- What is recognised between delimiters is a match, and no other one passes over more white space: the phrase can be
read in one way only up to the space behind it. -/
theorem enclosed?_split (recognises : Recognises phrase? said) {rest : List Char}
    (found : enclosed? d phrase? cs = some (phrase, rest)) :
    ∃ gap text, LongestAt d said cs phrase gap text ∧ cs = text ++ rest := by
  rw [enclosed?_eq] at found
  obtain ⟨⟨phrase, behind⟩, opened, found⟩ := Option.bind_eq_some_iff.mp found
  obtain ⟨left, closed, same⟩ := Option.map_eq_some_iff.mp found
  cases same
  obtain ⟨opening, space, body, opens, blank, written, split⟩ := opened?_split recognises opened
  obtain ⟨gap, closing, blank', closes, parts⟩ := closing?_split closed
  have whole : cs = opening ++ (space ++ (body ++ (gap ++ closing))) ++ rest := by
    rw [split, parts]
    simp
  refine ⟨gap, _, ⟨⟨.mk opens blank written blank' closes, rest, whole.symm⟩, ?_⟩, whole⟩
  intro phrase' gap' text' other
  obtain ⟨found', front, closing', rest', opened', _, blank'', closes', _⟩ := opened?_of_matchAt recognises other
  cases Option.some.inj (opened.symm.trans opened')
  obtain ⟨left, closed', shorter⟩ := closing?_longest blank'' closes' rest'
  cases Option.some.inj (closed.symm.trans closed')
  have total := congrArg List.length parts
  have length := closes.length
  have length' := closes'.length
  simp only [List.length_append] at total
  omega

/-- A match that passes over as much white space as any is recognised and taken to its end. -/
theorem enclosed?_of_longestAt (recognises : Recognises phrase? said)
    (here : LongestAt d said cs phrase gap text) :
    ∃ found rest, enclosed? d phrase? cs = some (found, rest) ∧ ofPhrase? found = ofPhrase? phrase ∧
      cs = text ++ rest := by
  obtain ⟨found, front, closing, rest, opened, same, blank, closes, _, split⟩ :=
    opened?_of_matchAt recognises here.toMatchAt
  obtain ⟨left, closed, shorter⟩ := closing?_longest blank closes rest
  have taken := enclosed?_of_opened opened closed
  obtain ⟨gap', text', longest, split'⟩ := enclosed?_split recognises taken
  obtain ⟨_, _, closing', rest', opened', _, _, closes', _, again⟩ :=
    opened?_of_matchAt recognises longest.toMatchAt
  have parts : gap ++ (closing ++ rest) = gap' ++ (closing' ++ rest') :=
    congrArg Prod.snd (Option.some.inj (opened.symm.trans opened'))
  -- What is taken is a match too, and as both pass over the most white space they leave the same rest.
  have tail : left = rest' := List.append_cancel_left (split'.symm.trans again)
  have total := congrArg List.length parts
  have length := closes.length
  have length' := closes'.length
  have atMost := here.longest _ _ _ longest.toMatchAt
  simp only [List.length_append] at total
  have same' : left = rest :=
    (List.append_inj' (split'.symm.trans split) (by rw [tail] at shorter ⊢; omega)).2
  exact ⟨found, rest, by rw [taken, same'], same, split⟩

theorem enclosed?_eq_none_iff (recognises : Recognises phrase? said) :
    enclosed? d phrase? cs = none ↔ ¬SomeAt d said cs := by
  constructor
  · rintro nothing ⟨phrase, gap, text, here⟩
    obtain ⟨found, _, closing, rest, opened, _, blank, closes, _⟩ := opened?_of_matchAt recognises here
    obtain ⟨left, closed, _⟩ := closing?_longest blank closes rest
    rw [enclosed?_of_opened opened closed] at nothing
    cases nothing
  · intro nothing
    cases taken : enclosed? d phrase? cs with
    | none => rfl
    | some found =>
      obtain ⟨gap, text, longest, _⟩ := enclosed?_split recognises taken
      exact absurd ⟨_, gap, text, longest.toMatchAt⟩ nothing

end Enclosed

/-- Keys are tried one after the other, and the first that is recognised between its delimiters is taken. -/
theorem keyed?_eq (d : Delimiters) (keys : List String) (cs : List Char) :
    keyed? d keys cs = keys.findSome? fun key => enclosed? d (keyPhrase? key.toList) cs := by
  cases word : word? d.opening.toList cs with
  | none =>
    rw [keyed?, word, Option.bind_none]
    exact (List.findSome?_eq_none_iff.mpr fun key _ => by rw [enclosed?, word, Option.bind_none]).symm
  | some inner => simp only [keyed?, enclosed?, word, Option.bind_some]

section Match
variable {s : Scanner} {cs text rest : List Char} {phrase : Phrase}

/-- What a scanner recognises at a place is the match that is to be chosen there. -/
theorem match?_split (inked : ∀ key ∈ s.keys, Inked key.toList) (found : s.match? cs = some (phrase, rest)) :
    ∃ text, Chosen s.tags s.keys cs phrase text ∧ cs = text ++ rest := by
  rcases Option.or_eq_some_iff.mp found with structural | ⟨nothing, keyed⟩
  · obtain ⟨gap, text, longest, split⟩ := enclosed?_split recognises_phrase? structural
    exact ⟨text, .structural longest, split⟩
  · rw [keyed?_eq, List.findSome?_eq_some_iff] at keyed
    obtain ⟨earlier, key, later, keys, here, before⟩ := keyed
    have inked' : ∀ k ∈ earlier, Inked k.toList := fun k member =>
      inked k (by rw [keys]; exact List.mem_append_left _ member)
    have inkedKey : Inked key.toList := inked key (by rw [keys]; simp)
    obtain ⟨gap, text, longest, split⟩ := enclosed?_split (recognises_keyPhrase? inkedKey) here
    refine ⟨text, .data ((enclosed?_eq_none_iff recognises_phrase?).mp nothing) keys ?_ longest, split⟩
    exact fun k member => (enclosed?_eq_none_iff (recognises_keyPhrase? (inked' k member))).mp (before k member)

/-- The match that is to be chosen at a place is recognised there, and taken to its end. -/
theorem match?_of_chosen (inked : ∀ key ∈ s.keys, Inked key.toList) (chosen : Chosen s.tags s.keys cs phrase text) :
    ∃ found rest, s.match? cs = some (found, rest) ∧ ofPhrase? found = ofPhrase? phrase ∧
      cs = text ++ rest := by
  cases chosen with
  | structural longest =>
    obtain ⟨found, rest, taken, same, split⟩ := enclosed?_of_longestAt recognises_phrase? longest
    exact ⟨found, rest, by rw [match?, taken, Option.some_or], same, split⟩
  | @data earlier key later _ gap _ nothing keys before longest =>
    have inked' : ∀ k ∈ earlier, Inked k.toList := fun k member =>
      inked k (by rw [keys]; exact List.mem_append_left _ member)
    have inkedKey : Inked key.toList := inked key (by rw [keys]; simp)
    obtain ⟨found, rest, taken, same, split⟩ := enclosed?_of_longestAt (recognises_keyPhrase? inkedKey) longest
    refine ⟨found, rest, ?_, same, split⟩
    rw [match?, (enclosed?_eq_none_iff recognises_phrase?).mpr nothing, Option.none_or, keyed?_eq,
      List.findSome?_eq_some_iff]
    exact ⟨earlier, key, later, keys, taken, fun k member =>
      (enclosed?_eq_none_iff (recognises_keyPhrase? (inked' k member))).mpr (before k member)⟩

theorem match?_eq_none_iff (inked : ∀ key ∈ s.keys, Inked key.toList) :
    s.match? cs = none ↔ ¬Matches s.tags s.keys cs := by
  rw [match?, Option.or_eq_none_iff, enclosed?_eq_none_iff recognises_phrase?, keyed?_eq,
    List.findSome?_eq_none_iff, Matches, not_or]
  refine and_congr_right fun _ => ?_
  constructor
  · rintro nothing ⟨key, member, here⟩
    exact (enclosed?_eq_none_iff (recognises_keyPhrase? (inked key member))).mp (nothing key member) here
  · intro nothing key member
    refine (enclosed?_eq_none_iff (recognises_keyPhrase? (inked key member))).mpr fun here => ?_
    exact nothing ⟨key, member, here⟩

end Match

end Scanner

end Templating
