import Templating.Proofs.Scan.Recognition

namespace Templating

namespace Directive
open Text

/-- A recogniser gives an end of the text it is given. -/
def TakesFront {α : Type} (recognise : List Char → Option (α × List Char)) : Prop :=
  ∀ {cs found rest}, recognise cs = some (found, rest) → rest <:+ cs

theorem takesFront_of_split {phrase? : List Char → Option (Phrase × List Char)}
    {said : Phrase → List Char → Prop} (split : ∀ {cs phrase rest}, phrase? cs = some (phrase, rest) →
      ∃ body, said phrase body ∧ cs = body ++ rest) : TakesFront phrase? := by
  intro cs phrase rest recognised
  obtain ⟨body, _, rfl⟩ := split recognised
  exact List.suffix_append body rest

end Directive

namespace Scanner
open Text Directive

/-- A recogniser takes at least one character off the front. -/
def TakesSome {α : Type} (recognise : List Char → Option (α × List Char)) : Prop :=
  ∀ {cs found rest}, recognise cs = some (found, rest) → rest <:+ cs ∧ rest.length < cs.length

theorem opening_ne_empty {d : Delimiters} (usable : d.hasEmpty = false) : d.opening ≠ "" := by
  rw [Delimiters.hasEmpty, Bool.or_eq_false_iff] at usable
  exact beq_eq_false_iff_ne.mp usable.1

/-- A scanner that is made has the given delimiters and the keys in the order of trial. -/
theorem new_eq_ok_iff {tags : Tags} {keys : List String} {s : Scanner} :
    Scanner.new tags keys = .ok s ↔ s.tags = tags ∧ s.keys = scanKeys tags keys := by
  unfold Scanner.new
  constructor
  · intro made
    split at made
    next => cases made
    next =>
      split at made
      next => cases made
      next =>
        cases made
        exact ⟨rfl, rfl⟩
  · rintro ⟨sameTags, sameKeys⟩
    obtain ⟨_, _, data, directive⟩ := s
    dsimp only at sameTags sameKeys
    subst sameTags sameKeys
    rw [dif_neg (by rw [data]; exact Bool.false_ne_true), dif_neg (by rw [directive]; exact Bool.false_ne_true)]

/-- A phrase between delimiters takes at least its opening delimiter off the front, which is why that must not be
empty. -/
theorem enclosed?_takesSome {α : Type} {d : Delimiters} {phrase? : List Char → Option (α × List Char)}
    (usable : d.hasEmpty = false) (front : TakesFront phrase?) : TakesSome (enclosed? d phrase?) := by
  intro cs found rest recognised
  obtain ⟨inner, opened, recognised⟩ := Option.bind_eq_some_iff.mp recognised
  obtain ⟨⟨phrase, behind⟩, spoken, recognised⟩ := Option.bind_eq_some_iff.mp recognised
  obtain ⟨left, closed, same⟩ := Option.map_eq_some_iff.mp recognised
  cases same
  obtain ⟨opening, spells, rfl⟩ := word?_eq_some_iff.mp opened
  obtain ⟨gap, closing, _, _, rfl⟩ := closing?_split closed
  have suffix : rest <:+ inner := by
    rw [← List.append_assoc] at spoken
    exact (List.suffix_append _ rest).trans ((front spoken).trans (List.dropWhile_suffix isSpace))
  have positive : 0 < opening.length := by
    rw [spells.length]
    exact List.length_pos_iff.mpr (by simpa using opening_ne_empty usable)
  refine ⟨suffix.trans (List.suffix_append opening inner), ?_⟩
  have shorter := suffix.length_le
  rw [List.length_append]
  omega

/-- Whatever a scanner recognises takes something off the front, so that a hit is never empty. -/
theorem match?_takesSome (s : Scanner) : TakesSome s.match? := by
  intro cs found rest recognised
  rcases Option.or_eq_some_iff.mp recognised with structural | ⟨_, keyed⟩
  · exact enclosed?_takesSome s.directive_usable (takesFront_of_split phrase?_split) structural
  · rw [keyed?_eq] at keyed
    obtain ⟨key, _, keyed⟩ := List.exists_of_findSome?_eq_some keyed
    exact enclosed?_takesSome s.data_usable (takesFront_of_split keyPhrase?_split) keyed

theorem taken_append_self (text rest : List Char) : taken (text ++ rest) rest = text := by
  rw [taken, List.length_append, Nat.add_sub_cancel, List.take_left]

/-- A hit cuts the text into what stands before it, what is recognised there, and the rest. -/
theorem firstHit_split {recognise : List Char → Option (Phrase × List Char)} (takes : TakesSome recognise)
    {covered place : Nat} {cs : List Char} {hit : Hit}
    (found : firstHit recognise covered place cs = some hit) :
    ∃ before inside after phrase, cs = before ++ (inside ++ after) ∧
      recognise (inside ++ after) = some (phrase, after) ∧ ofPhrase? phrase = some hit.directive ∧
      hit.start = place + byteLength before ∧ hit.stop = hit.start + byteLength inside := by
  induction cs generalizing covered place with
  | nil => cases covered <;> cases found
  | cons c cs ih =>
    have later {covered : Nat} (found : firstHit recognise covered (place + c.utf8Size) cs = some hit) :
        ∃ before inside after phrase, c :: cs = before ++ (inside ++ after) ∧
          recognise (inside ++ after) = some (phrase, after) ∧ ofPhrase? phrase = some hit.directive ∧
          hit.start = place + byteLength before ∧ hit.stop = hit.start + byteLength inside := by
      obtain ⟨before, inside, after, phrase, split, recognised, names, start, stop⟩ := ih found
      refine ⟨c :: before, inside, after, phrase, by rw [split, List.cons_append], recognised, names, ?_, stop⟩
      rw [start, byteLength]
      omega
    cases covered with
    | succ covered => exact later found
    | zero =>
      rw [firstHit] at found
      split at found
      next => exact later found
      next phrase rest recognised =>
        split at found
        next directive names =>
          cases found
          obtain ⟨front, split⟩ := (takes recognised).1
          rw [← split] at recognised ⊢
          rw [taken_append_self]
          exact ⟨[], front, rest, phrase, rfl, recognised, names, rfl, rfl⟩
        next => exact later found

/-- From a boundary on, a scan finds a hit that is not empty and ends at a boundary. -/
theorem next?_split (s : Scanner) {source : String} {start : Nat} {hit : Hit}
    (boundary : IsBoundary source start) (found : s.next? source start = some hit) :
    ∃ before gap inside after, source.toList = before ++ (gap ++ (inside ++ after)) ∧ inside ≠ [] ∧
      start = byteLength before ∧ hit.start = byteLength (before ++ gap) ∧
      hit.stop = byteLength (before ++ (gap ++ inside)) := by
  obtain ⟨before, behind, split, rfl⟩ := isBoundary_iff.mp boundary
  rw [next?, split, dropBytes_byteLength] at found
  obtain ⟨gap, inside, after, phrase, rfl, recognised, _, first, last⟩ := firstHit_split s.match?_takesSome found
  have nonempty : inside ≠ [] := by
    rintro rfl
    exact absurd (s.match?_takesSome recognised).2 (Nat.lt_irrefl _)
  refine ⟨before, gap, inside, after, split, nonempty, rfl, ?_, ?_⟩
  · rw [first, byteLength_append]
  · rw [last, first, byteLength_append, byteLength_append]
    omega

theorem text_ne_of_next? (s : Scanner) {source : String} {start : Nat} {hit : Hit}
    (boundary : IsBoundary source start) (found : s.next? source start = some hit) : hit.text source ≠ "" := by
  obtain ⟨before, gap, inside, after, split, nonempty, _, first, last⟩ := s.next?_split boundary found
  rw [← List.append_assoc] at split last
  have text : hit.text source = String.ofList inside := by
    rw [Hit.text, first, last, slice_of_split split]
  intro empty
  rw [text] at empty
  exact nonempty (String.ofList_eq_empty_iff.mp empty)

/-- A hit ends at a boundary between characters, so that a scan can go on there. -/
theorem isBoundary_stop (s : Scanner) {source : String} {start : Nat} {hit : Hit}
    (boundary : IsBoundary source start) (found : s.next? source start = some hit) :
    IsBoundary source hit.stop := by
  obtain ⟨before, gap, inside, after, split, _, _, _, last⟩ := s.next?_split boundary found
  exact isBoundary_iff.mpr ⟨before ++ (gap ++ inside), after, by rw [split]; simp, last.symm⟩

/-- Less is left behind a hit than where the scan for it began, which is what makes scanning come to an end. -/
theorem dropBytes_stop_lt (s : Scanner) {source : String} {start : Nat} {hit : Hit}
    (boundary : IsBoundary source start) (found : s.next? source start = some hit) :
    (dropBytes hit.stop source.toList).length < (dropBytes start source.toList).length := by
  obtain ⟨before, gap, inside, after, split, nonempty, rfl, _, last⟩ := s.next?_split boundary found
  have regrouped : before ++ (gap ++ (inside ++ after)) = (before ++ (gap ++ inside)) ++ after := by simp
  have positive := List.length_pos_iff.mpr nonempty
  rw [split, dropBytes_byteLength, last, regrouped, dropBytes_byteLength]
  simp only [List.length_append]
  omega

end Scanner

end Templating
