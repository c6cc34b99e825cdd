import Templating.Proofs.Scan.Search

namespace Templating

deriving instance DecidableEq for Directive.Phrase

namespace Scanner
open Text Directive

/-- What a scan takes at a place: where it stands, in bytes, and what it says. -/
structure Match where
  start : Nat
  stop : Nat
  phrase : Phrase
deriving DecidableEq

/-- The hit of a match, unless its argument names nothing. -/
def Match.hit? (m : Match) : Option Hit :=
  (ofPhrase? m.phrase).map fun directive => ⟨m.start, m.stop, directive⟩

/-- The matches of a scan, none of them overlapping an earlier one. The first `covered` characters lie
inside an earlier match; `place` is the offset of the front. -/
def matchesFrom (recognise : List Char → Option (Phrase × List Char)) :
    (covered place : Nat) → List Char → List Match
  | _, _, [] => []
  | covered + 1, place, c :: cs => matchesFrom recognise covered (place + c.utf8Size) cs
  | 0, place, c :: cs =>
    match recognise (c :: cs) with
    | none => matchesFrom recognise 0 (place + c.utf8Size) cs
    | some (phrase, rest) =>
      ⟨place, place + byteLength (taken (c :: cs) rest), phrase⟩ ::
        matchesFrom recognise ((taken (c :: cs) rest).length - 1) (place + c.utf8Size) cs

/-- What a scan finds from an offset on, if it goes on from the end of each hit. -/
inductive Yields (s : Scanner) (source : String) : (start : Nat) → List Hit → Prop
  | none {start} : s.next? source start = none → Yields s source start []
  | some {start hit more} : s.next? source start = some hit → Yields s source hit.stop more →
      Yields s source start (hit :: more)

/-- Going on from the end of each hit leads to one list of hits only. -/
theorem Yields.unique {s : Scanner} {source : String} {start : Nat} {hits others : List Hit}
    (yields : s.Yields source start hits) (again : s.Yields source start others) : hits = others := by
  induction yields generalizing others with
  | none nothing =>
    cases again with
    | none => rfl
    | some found _ =>
      rw [nothing] at found
      cases found
  | some found _ ih =>
    cases again with
    | none nothing =>
      rw [found] at nothing
      cases nothing
    | some found' rest =>
      cases Option.some.inj (found.symm.trans found')
      rw [ih rest]

section Matches
variable {recognise : List Char → Option (Phrase × List Char)} {text rest cs : List Char} {phrase : Phrase}
  {place : Nat}

/-- A scan passes one character where nothing is recognised, and else goes on behind what is. -/
theorem TakesSome.induction (takes : TakesSome recognise) {P : List Char → Prop} (nil : P [])
    (pass : ∀ c cs, recognise (c :: cs) = none → P cs → P (c :: cs))
    (take : ∀ text rest phrase, text ≠ [] → recognise (text ++ rest) = some (phrase, rest) → P rest →
      P (text ++ rest)) (cs : List Char) : P cs := by
  induction left : cs.length using Nat.strong_induction_on generalizing cs with
  | _ left ih =>
    cases cs with
    | nil => exact nil
    | cons c cs =>
      rw [List.length_cons] at left
      cases recognised : recognise (c :: cs) with
      | none => exact pass c cs recognised (ih cs.length (by omega) cs rfl)
      | some found =>
        obtain ⟨phrase, rest⟩ := found
        obtain ⟨⟨text, split⟩, shorter⟩ := takes recognised
        rw [List.length_cons] at shorter
        rw [← split] at recognised ⊢
        have nonempty : text ≠ [] := by
          rintro rfl
          have same := congrArg List.length split
          simp only [List.nil_append, List.length_cons] at same
          omega
        exact take text rest phrase nonempty recognised (ih rest.length (by omega) rest rfl)

theorem matchesFrom_pass {c : Char} (nothing : recognise (c :: cs) = none) :
    matchesFrom recognise 0 place (c :: cs) = matchesFrom recognise 0 (place + c.utf8Size) cs := by
  rw [matchesFrom, nothing]

theorem matchesFrom_covered (place : Nat) (inside rest : List Char) :
    matchesFrom recognise inside.length place (inside ++ rest) =
      matchesFrom recognise 0 (place + byteLength inside) rest := by
  induction inside generalizing place with
  | nil => rfl
  | cons c inside ih =>
    rw [List.cons_append, List.length_cons, matchesFrom, ih, byteLength, Nat.add_assoc]

theorem matchesFrom_take (nonempty : text ≠ []) (recognised : recognise (text ++ rest) = some (phrase, rest))
    (place : Nat) : matchesFrom recognise 0 place (text ++ rest) =
      ⟨place, place + byteLength text, phrase⟩ ::
        matchesFrom recognise 0 (place + byteLength text) rest := by
  obtain ⟨c, inside, rfl⟩ := List.exists_cons_of_ne_nil nonempty
  have whole := taken_append_self (c :: inside) rest
  rw [List.cons_append] at recognised whole ⊢
  simp only [matchesFrom, recognised, whole, List.length_cons, Nat.add_sub_cancel]
  rw [matchesFrom_covered, byteLength, Nat.add_assoc]

theorem lastHit_covered (place : Nat) (inside rest : List Char) :
    lastHit recognise inside.length place (inside ++ rest) =
      lastHit recognise 0 (place + byteLength inside) rest := by
  induction inside generalizing place with
  | nil => rfl
  | cons c inside ih =>
    rw [List.cons_append, List.length_cons, lastHit, ih, byteLength, Nat.add_assoc]

/-- The last hit behind a match is the last hit of the whole, and the match itself only if there is none. -/
theorem lastHit_take (nonempty : text ≠ []) (recognised : recognise (text ++ rest) = some (phrase, rest))
    (place : Nat) : lastHit recognise 0 place (text ++ rest) =
      (lastHit recognise 0 (place + byteLength text) rest).or
        (Match.mk place (place + byteLength text) phrase).hit? := by
  obtain ⟨c, inside, rfl⟩ := List.exists_cons_of_ne_nil nonempty
  have whole := taken_append_self (c :: inside) rest
  rw [List.cons_append] at recognised whole ⊢
  simp only [lastHit, recognised, whole, List.length_cons, Nat.add_sub_cancel, Match.hit?]
  rw [lastHit_covered, byteLength, Nat.add_assoc]

/-- The last hit of a scan is the last of its matches that name something. -/
theorem lastHit_eq_getLast? (takes : TakesSome recognise) (place : Nat) (cs : List Char) :
    lastHit recognise 0 place cs = ((matchesFrom recognise 0 place cs).filterMap Match.hit?).getLast? := by
  induction cs using takes.induction generalizing place with
  | nil => rfl
  | pass c cs nothing ih =>
    rw [matchesFrom_pass nothing, ← ih, lastHit, nothing]
  | take text rest phrase nonempty recognised ih =>
    rw [matchesFrom_take nonempty recognised, lastHit_take nonempty recognised, ih]
    cases names : (Match.mk place (place + byteLength text) phrase).hit? with
    | none => rw [List.filterMap_cons_none names, Option.or_none]
    | some hit => rw [List.filterMap_cons_some names, List.getLast?_cons, Option.or_some]

/-- What is taken of a text is recognised where it stands, and takes up what stands between its start and its stop. -/
theorem split_of_mem_matchesFrom (takes : TakesSome recognise) {m : Match}
    (member : m ∈ matchesFrom recognise 0 place cs) :
    ∃ before inside after, cs = before ++ (inside ++ after) ∧ inside ≠ [] ∧
      recognise (inside ++ after) = some (m.phrase, after) ∧ m.start = place + byteLength before ∧
      m.stop = m.start + byteLength inside := by
  induction cs using takes.induction generalizing place with
  | nil => cases member
  | pass c cs nothing ih =>
    rw [matchesFrom_pass nothing] at member
    obtain ⟨before, inside, after, rfl, nonempty, recognised, start, stop⟩ := ih member
    refine ⟨c :: before, inside, after, rfl, nonempty, recognised, ?_, stop⟩
    rw [start, byteLength]
    omega
  | take text rest phrase nonempty recognised ih =>
    rw [matchesFrom_take nonempty recognised] at member
    rcases List.mem_cons.mp member with rfl | later
    · exact ⟨[], text, rest, rfl, nonempty, recognised, rfl, rfl⟩
    · obtain ⟨before, inside, after, rfl, nonempty, recognised, start, stop⟩ := ih later
      refine ⟨text ++ before, inside, after, (List.append_assoc ..).symm, nonempty, recognised, ?_, stop⟩
      rw [start, byteLength_append]
      omega

theorem le_start_of_mem_matchesFrom (takes : TakesSome recognise) {m : Match}
    (member : m ∈ matchesFrom recognise 0 place cs) : place ≤ m.start := by
  obtain ⟨_, _, _, _, _, _, start, _⟩ := split_of_mem_matchesFrom takes member
  omega

theorem exists_mem_matchesFrom_le {behind : List Char} {found : Phrase × List Char}
    (takes : TakesSome recognise) (before : List Char) (recognised : recognise behind = some found) (place : Nat) :
    ∃ m ∈ matchesFrom recognise 0 place (before ++ behind), m.start ≤ place + byteLength before := by
  induction before generalizing place with
  | nil =>
    obtain ⟨phrase, rest⟩ := found
    have shorter := (takes recognised).2
    cases behind with
    | nil => exact absurd shorter (Nat.not_lt_zero _)
    | cons c cs =>
      rw [List.nil_append, matchesFrom, recognised]
      exact ⟨_, List.mem_cons_self, Nat.le_refl _⟩
  | cons c before ih =>
    rw [List.cons_append, matchesFrom]
    cases earlier : recognise (c :: (before ++ behind)) with
    | none =>
      obtain ⟨m, member, start⟩ := ih (place + c.utf8Size)
      refine ⟨m, member, ?_⟩
      rw [byteLength]
      omega
    | some => exact ⟨_, List.mem_cons_self, Nat.le_add_right _ _⟩

end Matches

section Hits
variable {s : Scanner} {source : String}

theorem Yields.congr {start start' : Nat} {hits : List Hit} (yields : s.Yields source start' hits)
    (same : s.next? source start = s.next? source start') : s.Yields source start hits := by
  cases yields with
  | none nothing => exact .none (same.trans nothing)
  | some found more => exact .some (same.trans found) more

theorem yields_matchesFrom {front cs : List Char} (split : source.toList = front ++ cs) :
    s.Yields source (byteLength front)
      ((matchesFrom s.match? 0 (byteLength front) cs).filterMap Match.hit?) := by
  induction cs using TakesSome.induction s.match?_takesSome generalizing front with
  | nil => exact .none (next?_of_split split)
  | pass c cs nothing ih =>
    have split' : source.toList = (front ++ [c]) ++ cs := by rw [split]; simp
    have place : byteLength (front ++ [c]) = byteLength front + c.utf8Size := by
      rw [byteLength_append, byteLength, byteLength, Nat.add_zero]
    have later := ih split'
    rw [place] at later
    rw [matchesFrom_pass nothing]
    refine later.congr ?_
    rw [next?_of_split split, ← place, next?_of_split split', place, firstHit, nothing]
  | take text rest phrase nonempty recognised ih =>
    have split' : source.toList = (front ++ text) ++ rest := by rw [split, List.append_assoc]
    have later := ih split'
    rw [byteLength_append] at later
    rw [matchesFrom_take nonempty recognised]
    cases names : ofPhrase? phrase with
    | none =>
      have blank : (Match.mk (byteLength front) (byteLength front + byteLength text) phrase).hit? = none := by
        rw [Match.hit?, names, Option.map_none]
      rw [List.filterMap_cons_none blank]
      refine later.congr ?_
      rw [next?_of_split split, firstHit_further nonempty recognised names, ← byteLength_append,
        next?_of_split split']
    | some directive =>
      have named : (Match.mk (byteLength front) (byteLength front + byteLength text) phrase).hit? =
          some ⟨byteLength front, byteLength front + byteLength text, directive⟩ := by
        rw [Match.hit?, names, Option.map_some]
      rw [List.filterMap_cons_some named]
      exact .some (by rw [next?_of_split split, firstHit_found nonempty recognised names]) later

end Hits

/-- The hits of a scan of a whole text: the matches that name something, each found by going on from the end of the
one before. -/
def hits (s : Scanner) (source : String) : List Hit :=
  (matchesFrom s.match? 0 0 source.toList).filterMap Match.hit?

/-- The hits of a whole text are found by going on from the end of each. -/
theorem yields_hits (s : Scanner) (source : String) : s.Yields source 0 (s.hits source) := by
  have whole : source.toList = [] ++ source.toList := rfl
  exact yields_matchesFrom whole

end Scanner

end Templating
