import Templating.Proofs.Scan.Sequence

namespace Templating

namespace Directive
open Text

/-- Whether a phrase says something about the layout. -/
def Phrase.isLayout : Phrase → Bool
  | .layout _ | .noLayout => true
  | .data _ | .inclusion _ | .slot => false

def isLayout : Directive → Bool
  | .layout _ | .noLayout => true
  | .data _ | .inclusion _ | .slot => false

variable {cs rest : List Char} {phrase : Phrase}

theorem isLayout_of_ofPhrase? {directive : Directive} (names : ofPhrase? phrase = some directive) :
    directive.isLayout = phrase.isLayout := by
  cases phrase with
  | data | noLayout | slot =>
    cases names
    rfl
  | inclusion | layout =>
    obtain ⟨_, _, rfl⟩ := Option.map_eq_some_iff.mp names
    rfl

theorem isLayout_of_layoutPhrase? (found : layoutPhrase? cs = some (phrase, rest)) :
    phrase.isLayout = true := by
  unfold layoutPhrase? at found
  split at found
  all_goals
    obtain ⟨_, _, same⟩ := Option.map_eq_some_iff.mp found
    cases same
    rfl

-- Neither word about layouts starts like one of the others.
theorem phrase?_eq_layoutPhrase? {w : Char} {ws word : List Char} (spells : Spells (w :: ws) word)
    (noInclude : foldChar 'i' ≠ foldChar w) (noSlot : foldChar 's' ≠ foldChar w) (rest : List Char) :
    phrase? (word ++ rest) = layoutPhrase? (word ++ rest) := by
  have include? : word? "include".toList (word ++ rest) = none := word?_eq_none spells noInclude rest
  have slot? : word? "slot".toList (word ++ rest) = none := word?_eq_none spells noSlot rest
  rw [phrase?, include?, slot?]

/-- The phrases that the scan for the layout knows are those of the other scan that say something about layouts. -/
theorem layoutPhrase?_eq_some_iff :
    layoutPhrase? cs = some (phrase, rest) ↔ phrase? cs = some (phrase, rest) ∧ phrase.isLayout = true := by
  constructor
  · intro found
    have kind := isLayout_of_layoutPhrase? found
    refine ⟨?_, kind⟩
    obtain ⟨body, written, rfl⟩ := layoutPhrase?_split found
    cases written with
    | layout spells =>
      rw [List.append_assoc] at found ⊢
      rw [← found]
      exact phrase?_eq_layoutPhrase? spells (by decide) (by decide) _
    | noLayout spells =>
      rw [← found]
      exact phrase?_eq_layoutPhrase? spells (by decide) (by decide) _
    | inclusion | slot => cases kind
  · rintro ⟨found, kind⟩
    unfold phrase? at found
    split at found
    next =>
      obtain ⟨_, _, same⟩ := Option.map_eq_some_iff.mp found
      cases same
      cases kind
    next =>
      split at found
      next =>
        cases found
        cases kind
      next => exact found

end Directive

namespace Scanner
open Text Directive

theorem enclosed?_eq_some_iff {d : Delimiters} {phrase? : List Char → Option (Phrase × List Char)}
    {cs rest : List Char} {phrase : Phrase} :
    enclosed? d phrase? cs = some (phrase, rest) ↔ ∃ inner behind, word? d.opening.toList cs = some inner ∧
      phrase? (dropSpaces inner) = some (phrase, behind) ∧ closing? d.closing.toList behind = some rest := by
  constructor
  · intro found
    obtain ⟨inner, opened, found⟩ := Option.bind_eq_some_iff.mp found
    obtain ⟨⟨said, behind⟩, spoken, found⟩ := Option.bind_eq_some_iff.mp found
    obtain ⟨left, closed, same⟩ := Option.map_eq_some_iff.mp found
    cases same
    exact ⟨inner, behind, opened, spoken, closed⟩
  · rintro ⟨inner, behind, opened, spoken, closed⟩
    rw [enclosed?, opened, Option.bind_some, spoken, Option.bind_some]
    dsimp only
    rw [closed, Option.map_some]

theorem isLayout_of_keyed? {d : Delimiters} {keys : List String} {cs rest : List Char} {phrase : Phrase}
    (found : keyed? d keys cs = some (phrase, rest)) : phrase.isLayout = false := by
  rw [keyed?_eq] at found
  obtain ⟨key, _, found⟩ := List.exists_of_findSome?_eq_some found
  obtain ⟨_, _, _, spoken, _⟩ := enclosed?_eq_some_iff.mp found
  obtain ⟨_, _, same⟩ := Option.map_eq_some_iff.mp spoken
  cases same
  rfl

section Layouts
variable {s : Scanner} {cs rest : List Char} {phrase : Phrase} {place : Nat}

/-- At one place the scan for the layout recognises what the other one does, if that is about layouts. The scans
differ only in what they pass over. -/
theorem layoutMatch?_eq_some_iff :
    s.layoutMatch? cs = some (phrase, rest) ↔ s.match? cs = some (phrase, rest) ∧ phrase.isLayout = true := by
  rw [layoutMatch?, match?, Option.or_eq_some_iff, enclosed?_eq_some_iff]
  simp only [layoutPhrase?_eq_some_iff]
  constructor
  · rintro ⟨inner, behind, opened, ⟨spoken, kind⟩, closed⟩
    exact ⟨.inl (enclosed?_eq_some_iff.mpr ⟨inner, behind, opened, spoken, closed⟩), kind⟩
  · rintro ⟨structural | ⟨_, keyed⟩, kind⟩
    · obtain ⟨inner, behind, opened, spoken, closed⟩ := enclosed?_eq_some_iff.mp structural
      exact ⟨inner, behind, opened, ⟨spoken, kind⟩, closed⟩
    · rw [isLayout_of_keyed? keyed] at kind
      cases kind

theorem layoutMatch?_takesSome (s : Scanner) : TakesSome s.layoutMatch? :=
  fun found => s.match?_takesSome (layoutMatch?_eq_some_iff.mp found).1

theorem layoutMatch?_eq_none (nothing : s.match? cs = none) : s.layoutMatch? cs = none := by
  refine Option.eq_none_iff_forall_ne_some.mpr fun (phrase, rest) found => ?_
  rw [(layoutMatch?_eq_some_iff.mp found).1] at nothing
  cases nothing

theorem layoutMatch?_eq_none_of_isLayout (taken : s.match? cs = some (phrase, rest))
    (other : phrase.isLayout = false) : s.layoutMatch? cs = none := by
  refine Option.eq_none_iff_forall_ne_some.mpr fun (phrase', rest') found => ?_
  obtain ⟨same, kind⟩ := layoutMatch?_eq_some_iff.mp found
  cases Option.some.inj (taken.symm.trans same)
  rw [other] at kind
  cases kind

/-- No layout directive starts inside a match of another kind. -/
def Apart (s : Scanner) (place : Nat) (cs : List Char) : Prop :=
  ∀ m ∈ matchesFrom s.match? 0 place cs, m.phrase.isLayout = false → ∀ before behind, cs = before ++ behind →
    m.start < place + byteLength before → place + byteLength before < m.stop → s.layoutMatch? behind = none

theorem apart_pass_iff {c : Char} (nothing : s.match? (c :: cs) = none) :
    s.Apart place (c :: cs) ↔ s.Apart (place + c.utf8Size) cs := by
  unfold Apart
  rw [matchesFrom_pass nothing]
  constructor
  · intro apart m member other before behind split early late
    refine apart m member other (c :: before) behind (by rw [split, List.cons_append]) ?_ ?_
    all_goals rw [byteLength]; omega
  · intro apart m member other before behind split early late
    have first := le_start_of_mem_matchesFrom s.match?_takesSome member
    cases before with
    | nil =>
      rw [byteLength] at early
      omega
    | cons c' before =>
      cases split
      rw [byteLength] at early late
      exact apart m member other before behind rfl (by omega) (by omega)

/-- Layout directives stand apart in a text that begins with a match exactly if they do behind it and none starts
inside it. -/
theorem apart_take_iff {text : List Char} (nonempty : text ≠ [])
    (taken : s.match? (text ++ rest) = some (phrase, rest)) :
    s.Apart place (text ++ rest) ↔ s.Apart (place + byteLength text) rest ∧
      (phrase.isLayout = false → ∀ before behind, text = before ++ behind → before ≠ [] → behind ≠ [] →
        s.layoutMatch? (behind ++ rest) = none) := by
  unfold Apart
  rw [matchesFrom_take nonempty taken, List.forall_mem_cons]
  constructor
  · rintro ⟨here, apart⟩
    refine ⟨fun m member other before behind split early late => ?_, fun other before behind split some some' => ?_⟩
    · refine apart m member other (text ++ before) behind (by rw [split, List.append_assoc]) ?_ ?_
      all_goals rw [byteLength_append]; omega
    · have positive := byteLength_pos some
      have positive' := byteLength_pos some'
      refine here other before (behind ++ rest) (by rw [split, List.append_assoc])
        (Nat.lt_add_of_pos_right positive) ?_
      dsimp only
      rw [split, byteLength_append]
      omega
  · rintro ⟨apart, inside⟩
    refine ⟨fun other before behind split early late => ?_, fun m member other before behind split early late => ?_⟩
    · -- A place inside the match cuts it into two parts that are not empty.
      dsimp only at early late
      rcases List.append_eq_append_iff.mp split with ⟨gap, rfl, _⟩ | ⟨gap, rfl, rfl⟩
      · rw [byteLength_append] at late
        omega
      · rw [byteLength_append] at late
        refine inside other before gap rfl ?_ ?_
        · rintro rfl
          exact Nat.lt_irrefl _ early
        · rintro rfl
          exact Nat.lt_irrefl _ late
    · have first := le_start_of_mem_matchesFrom s.match?_takesSome member
      obtain ⟨gap, rfl, rfl⟩ := exists_gap split (by omega)
      rw [byteLength_append] at early late
      exact apart m member other gap behind rfl (by omega) (by omega)

theorem matchesFrom_gap {recognise : List Char → Option (Phrase × List Char)} {gap behind : List Char}
    (place : Nat) (nothing : ∀ before cs, gap = before ++ cs → cs ≠ [] → recognise (cs ++ behind) = none) :
    matchesFrom recognise 0 place (gap ++ behind) =
      matchesFrom recognise 0 (place + byteLength gap) behind := by
  induction gap generalizing place with
  | nil => rfl
  | cons c gap ih =>
    have here : recognise (c :: (gap ++ behind)) = none := nothing [] (c :: gap) rfl (List.cons_ne_nil c gap)
    rw [List.cons_append, matchesFrom_pass here, byteLength, ← Nat.add_assoc]
    exact ih _ fun before cs split => nothing (c :: before) cs (congrArg (c :: ·) split)

/-- Both scans take the same layout directives exactly if these stand apart from all else. The induction follows the
scan of the text, passing one character or one match at a time. -/
theorem matchesFrom_layoutMatch?_iff (s : Scanner) (place : Nat) (cs : List Char) :
    matchesFrom s.layoutMatch? 0 place cs = (matchesFrom s.match? 0 place cs).filter (·.phrase.isLayout) ↔
      s.Apart place cs := by
  induction cs using TakesSome.induction s.match?_takesSome generalizing place with
  | nil => exact iff_of_true rfl nofun
  | pass c cs nothing ih =>
    rw [apart_pass_iff nothing, ← ih, matchesFrom_pass nothing, matchesFrom_pass (layoutMatch?_eq_none nothing)]
  | take text rest phrase nonempty taken ih =>
    rw [apart_take_iff nonempty taken, ← ih, matchesFrom_take nonempty taken]
    cases kind : phrase.isLayout with
    | true =>
      have here := layoutMatch?_eq_some_iff.mpr ⟨taken, kind⟩
      rw [List.filter_cons_of_pos (by exact kind), matchesFrom_take nonempty here, List.cons_inj_right,
        and_iff_left (fun other => nomatch other)]
    | false =>
      rw [List.filter_cons_of_neg (by exact Bool.eq_false_iff.mp kind)]
      have here := layoutMatch?_eq_none_of_isLayout taken kind
      have passed (inside : ∀ before behind, text = before ++ behind → before ≠ [] → behind ≠ [] →
          s.layoutMatch? (behind ++ rest) = none) :
          matchesFrom s.layoutMatch? 0 place (text ++ rest) =
            matchesFrom s.layoutMatch? 0 (place + byteLength text) rest := by
        refine matchesFrom_gap place fun before behind split filled => ?_
        by_cases front : before = []
        · subst front
          rwa [split] at here
        · exact inside before behind split front filled
      constructor
      · intro same
        -- A directive that starts inside the match is seen there, but the scan takes nothing before its end.
        have inside : ∀ before behind, text = before ++ behind → before ≠ [] → behind ≠ [] →
            s.layoutMatch? (behind ++ rest) = none := by
          intro before behind split _ some
          by_contra seen
          obtain ⟨found, seen⟩ := Option.ne_none_iff_exists'.mp seen
          obtain ⟨m, member, start⟩ :=
            exists_mem_matchesFrom_le s.layoutMatch?_takesSome before seen place
          rw [← List.append_assoc, ← split, same] at member
          have late := le_start_of_mem_matchesFrom s.match?_takesSome (List.mem_of_mem_filter member)
          have positive := byteLength_pos some
          rw [split, byteLength_append] at late
          omega
        exact ⟨(passed inside).symm.trans same, fun _ => inside⟩
      · rintro ⟨same, inside⟩
        exact (passed (inside rfl)).trans same

theorem filter_filterMap_hit? (found : List Match) :
    (found.filterMap Match.hit?).filter (·.directive.isLayout) =
      (found.filter (·.phrase.isLayout)).filterMap Match.hit? := by
  induction found with
  | nil => rfl
  | cons m found ih =>
    cases names : ofPhrase? m.phrase with
    | none =>
      have blank : m.hit? = none := by rw [Match.hit?, names, Option.map_none]
      rw [List.filterMap_cons_none blank, ih, List.filter_cons]
      split
      · rw [List.filterMap_cons_none blank]
      · rfl
    | some directive =>
      have named : m.hit? = some ⟨m.start, m.stop, directive⟩ := by rw [Match.hit?, names, Option.map_some]
      have kind := isLayout_of_ofPhrase? names
      rw [List.filterMap_cons_some named, List.filter_cons, List.filter_cons, ih, kind]
      split
      · rw [List.filterMap_cons_some named]
      · rfl

/-- The layout directive in effect is the last one that names something, of those that the scan for the layout takes.
-/
theorem layout?_eq_getLast? (s : Scanner) (source : String) :
    s.layout? source = ((matchesFrom s.layoutMatch? 0 0 source.toList).filterMap Match.hit?).getLast? :=
  lastHit_eq_getLast? s.layoutMatch?_takesSome 0 source.toList

/-- The directive in effect is what a scan that starts there finds, whether or not a scan from the beginning comes to
it. -/
theorem next?_of_layout? {source : String} {hit : Hit} (found : s.layout? source = some hit) :
    hit.directive.isLayout = true ∧ s.next? source hit.start = some hit := by
  rw [layout?_eq_getLast?] at found
  obtain ⟨m, member, named⟩ := List.mem_filterMap.mp (List.mem_of_getLast? found)
  obtain ⟨directive, names, rfl⟩ := Option.map_eq_some_iff.mp named
  obtain ⟨before, inside, after, split, nonempty, seen, start, stop⟩ :=
    split_of_mem_matchesFrom s.layoutMatch?_takesSome member
  obtain ⟨taken, kind⟩ := layoutMatch?_eq_some_iff.mp seen
  rw [Nat.zero_add] at start
  refine ⟨(isLayout_of_ofPhrase? names).trans kind, ?_⟩
  dsimp only
  rw [stop, start, next?_of_split split, firstHit_found nonempty taken names]

end Layouts

/-- The scan for the layout and the scan of the text see the same layout directives exactly if none
starts inside a match of another kind. Then the layout directive in effect is the last hit about
layouts; and always it is what a scan that starts there finds. -/
theorem layout?_eq_last_hit (s : Scanner) (source : String) :
    (matchesFrom s.layoutMatch? 0 0 source.toList =
        (matchesFrom s.match? 0 0 source.toList).filter (·.phrase.isLayout) ↔ s.Apart 0 source.toList) ∧
      (∃ hits, (∀ others, s.Yields source 0 others ↔ others = hits) ∧
        (s.Apart 0 source.toList → s.layout? source = (hits.filter (·.directive.isLayout)).getLast?)) ∧
      ∀ hit, s.layout? source = some hit →
        hit.directive.isLayout = true ∧ s.next? source hit.start = some hit := by
  have same := s.matchesFrom_layoutMatch?_iff 0 source.toList
  refine ⟨same, ⟨s.hits source, fun others => ?_, fun apart => ?_⟩, fun hit found => next?_of_layout? found⟩
  · constructor
    · exact fun yields => yields.unique (s.yields_hits source)
    · rintro rfl
      exact s.yields_hits source
  · rw [layout?_eq_getLast?, same.mpr apart, ← filter_filterMap_hit?]
    rfl

/-- A layout, a data key and an inclusion, and then no layout. -/
def switched : String := "<!-- layout(a.html) -->\x7b\x7bname\x7d\x7d<!-- include(b.html) --><!-- !layout -->"

theorem layout?_eq_last_hit_switched :
    ∃ s : Scanner, s.tags = .default ∧ s.keys = ["name"] ∧ s.Apart 0 switched.toList ∧
      ∃ hits, s.Yields switched 0 hits ∧ hits.length = 4 ∧ s.layout? switched = some ⟨55, 71, .noLayout⟩ ∧
        s.layout? switched = (hits.filter (·.directive.isLayout)).getLast? := by
  let s : Scanner := ⟨.default, ["name"], by decide, by decide⟩
  obtain ⟨same, ⟨hits, yields, last⟩, _⟩ := layout?_eq_last_hit s switched
  have apart : s.Apart 0 switched.toList := same.mp (by decide +kernel)
  have found := (yields (s.hits switched)).mp (s.yields_hits switched)
  exact ⟨s, rfl, rfl, apart, hits, (yields hits).mpr rfl, by rw [← found]; decide +kernel,
    by decide +kernel, last apart⟩

/-- The argument of an inclusion may hold a layout directive. The scan passes over it, but it is the
one in effect. -/
theorem layout?_inside_inclusion :
    ∃ (s : Scanner) (hits : List Hit), s.Yields "<!-- include(a<!-- !layout -->b) -->" 0 hits ∧
      (hits.filter (·.directive.isLayout)).getLast? = none ∧
      s.layout? "<!-- include(a<!-- !layout -->b) -->" = some ⟨14, 30, .noLayout⟩ :=
  ⟨⟨.default, [], by decide, by decide⟩, _, yields_hits _ _, by decide +kernel, by decide +kernel⟩

end Scanner

end Templating
