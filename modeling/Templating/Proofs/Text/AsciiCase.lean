import Templating.Proofs.Text.Spelling

namespace Templating.Text

/-- Two texts that differ in the case of ASCII letters alone. -/
def AsciiAlike (s t : String) : Prop := s.toList.map Char.toLower = t.toList.map Char.toLower

instance (s t : String) : Decidable (AsciiAlike s t) := inferInstanceAs (Decidable (_ = _))

theorem toLower_of_beyond {c : Char} (beyond : 0x80 ≤ c.toNat) : c.toLower = c := by
  unfold Char.toLower
  refine dif_neg fun upper => ?_
  have high : c.toNat ≤ 90 := upper.2
  omega

/-- What holds of each ASCII character with its lower case, and of each character with itself, holds of every
character with its lower case. -/
theorem toLower_induction {P : Char → Char → Prop} (ascii : ∀ n < 0x80, P (Char.ofNat n) (Char.ofNat n).toLower)
    (same : ∀ c, P c c) (c : Char) : P c c.toLower := by
  by_cases inside : c.toNat < 0x80
  · exact forall_ascii (P := fun c => P c c.toLower) ascii inside
  · rw [toLower_of_beyond (Nat.le_of_not_lt inside)]
    exact same c

theorem toLower_ascii {c : Char} (ascii : c.toNat < 0x80) : c.toLower.toNat < 0x80 :=
  forall_ascii (P := fun c => c.toLower.toNat < 0x80) (by decide +kernel) ascii

theorem Ranges.has_append (low high : Ranges) (c : Char) : has (low ++ high) c = (has low c || has high c) :=
  List.any_append

theorem Ranges.has_take {ranges : Ranges} {k : Nat} (beyond : ∀ range ∈ ranges.drop k, 0x80 ≤ range.1) {c : Char}
    (ascii : c.toNat < 0x80) : has (ranges.take k) c = has ranges c := by
  have others : has (ranges.drop k) c = false := by
    refine List.any_eq_false.mpr fun range member => ?_
    have first := beyond range member
    simp only [Bool.and_eq_true, decide_eq_true_eq]
    omega
  have whole := has_append (ranges.take k) (ranges.drop k) c
  rw [List.take_append_drop, others, Bool.or_false] at whole
  exact whole.symm

/-- A table of ranges says the same of a letter in both cases, if it does so within ASCII. The first `k` ranges are
all that has to be looked at there. -/
theorem Ranges.has_toLower {ranges : Ranges} (k : Nat) (beyond : ∀ range ∈ ranges.drop k, 0x80 ≤ range.1)
    (ascii : ∀ n < 0x80, has (ranges.take k) (Char.ofNat n).toLower = has (ranges.take k) (Char.ofNat n)) (c : Char) :
    has ranges c.toLower = has ranges c := by
  by_cases inside : c.toNat < 0x80
  · rw [← has_take beyond (toLower_ascii inside), ← has_take beyond inside]
    exact forall_ascii (P := fun c => has (ranges.take k) c.toLower = has (ranges.take k) c) ascii inside
  · rw [toLower_of_beyond (by omega)]

theorem isCased_toLower (c : Char) : isCased c.toLower = isCased c :=
  Ranges.has_toLower 2 (by decide +kernel) (by decide +kernel) c

theorem isCaseIgnorable_toLower (c : Char) : isCaseIgnorable c.toLower = isCaseIgnorable c :=
  Ranges.has_toLower 5 (by decide +kernel) (by decide +kernel) c

/-- The lower case of a character does not depend on the case of an ASCII letter. -/
theorem lowerChar_toLower (c : Char) : lowerChar c.toLower = lowerChar c :=
  toLower_induction (P := fun c lower => lowerChar lower = lowerChar c) (by decide +kernel) (fun _ => rfl) c

theorem toLower_eq_iff_of_beyond {c d : Char} (beyond : 0x80 ≤ d.toNat) : c.toLower = d ↔ c = d := by
  by_cases inside : c.toNat < 0x80
  · have small := toLower_ascii inside
    refine iff_of_false ?_ ?_
    · rintro rfl
      omega
    · rintro rfl
      omega
  · rw [toLower_of_beyond (by omega)]

/-- Whether a word begins in front of some characters does not depend on the case of ASCII letters. -/
theorem reachesCased_map_toLower (cs : List Char) : reachesCased (cs.map Char.toLower) = reachesCased cs := by
  have ignorable : isCaseIgnorable ∘ Char.toLower = isCaseIgnorable := funext isCaseIgnorable_toLower
  rw [reachesCased, reachesCased, List.dropWhile_map, ignorable, List.head?_map, Option.any_map]
  exact congrArg (Option.any · _) (funext isCased_toLower)

/-- Neither does the lower case of a text behind another one, which looks at the words around each capital sigma. -/
theorem lowerAfter_map_toLower (before cs : List Char) :
    lowerAfter (before.map Char.toLower) (cs.map Char.toLower) = lowerAfter before cs := by
  induction cs generalizing before with
  | nil => rfl
  | cons c cs ih =>
    have sigma : c.toLower = 'Σ' ↔ c = 'Σ' := toLower_eq_iff_of_beyond (by decide)
    have rest := ih (c :: before)
    rw [List.map_cons] at rest
    rw [List.map_cons, lowerAfter, lowerAfter, rest, lowerChar_toLower, reachesCased_map_toLower,
      reachesCased_map_toLower]
    simp only [sigma]

theorem AsciiAlike.lowercase_eq {s t : String} (alike : AsciiAlike s t) : lowercase s = lowercase t := by
  have same := lowerAfter_map_toLower [] s.toList
  rw [alike, lowerAfter_map_toLower [] t.toList] at same
  rw [lowercase, lowercase, same]

theorem toLower_eq_dot_iff {c : Char} : c.toLower = '.' ↔ c = '.' :=
  toLower_induction (P := fun c lower => lower = '.' ↔ c = '.') (by decide +kernel) (fun _ => Iff.rfl) c

/-- A dot that stands before a text is passed over where a word is looked for. -/
theorem lowerAfter_concat_dot (before cs : List Char) : lowerAfter (before ++ ['.']) cs = lowerAfter before cs := by
  induction cs generalizing before with
  | nil => rfl
  | cons c cs ih =>
    have dot : isCaseIgnorable '.' = true := by decide
    have reaches : reachesCased (before ++ ['.']) = reachesCased before := by
      rw [reachesCased, reachesCased, List.dropWhile_append]
      split
      next all =>
        rw [List.isEmpty_iff.mp all, List.dropWhile_cons_of_pos dot]
        rfl
      next some =>
        rw [List.head?_append_of_ne_nil _ (by simpa using some)]
    rw [lowerAfter, lowerAfter, reaches, ← List.cons_append, ih]

/-- A dot in front of a text stays where it is in lower case, and the text behind it is lower-cased as if it stood
alone. -/
theorem lowercase_dot (s : String) : lowercase ("." ++ s) = "." ++ lowercase s := by
  have dot : lowerChar '.' = ['.'] := by decide
  have behind := lowerAfter_concat_dot [] s.toList
  rw [List.nil_append] at behind
  rw [lowercase, String.toList_append]
  change String.ofList (lowerAfter [] ('.' :: s.toList)) = _
  rw [lowerAfter, if_neg (by decide), dot, behind, String.ofList_append]
  rfl

end Templating.Text
