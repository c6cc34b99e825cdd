import Mathlib.Data.List.Forall2
import Mathlib.Data.List.TakeWhile
import Templating.Text.Folding
import Templating.Text.Lowercase
import Templating.Text.Space

namespace Templating.Text

/-- A text of white space only. -/
def Blank (cs : List Char) : Prop := ∀ c ∈ cs, isSpace c = true

/-- The text spells the word in any letter case: it has as many characters, and each of them folds to the same one. -/
def Spells (word text : List Char) : Prop := List.Forall₂ (fun w c => sameFold w c = true) word text

/-- A text that is not empty and does not start with white space. -/
def Inked (cs : List Char) : Prop := ∃ c more, cs = c :: more ∧ isSpace c = false

/-- Neither what is shifted nor where it goes is white space. -/
def Shift.avoidsSpace (shift : Shift) : Bool :=
  0 ≤ shift.first + shift.offset &&
    whiteSpace.all fun (first, last) =>
      (shift.last < first || last < shift.first) &&
        (shift.last + shift.offset < first || last < shift.first + shift.offset)

theorem toNat_ofNat {n : Nat} (valid : n.isValidChar) : (Char.ofNat n).toNat = n := by
  rw [Char.ofNat, dif_pos valid]
  rfl

theorem isSpace_ofNat {n : Nat} (other : ∀ range ∈ whiteSpace, n < range.1 ∨ range.2 < n) :
    isSpace (Char.ofNat n) = false := by
  by_cases valid : n.isValidChar
  · rw [isSpace, Ranges.has, List.any_eq_false, toNat_ofNat valid]
    intro range member
    have outside := other range member
    simp only [Bool.and_eq_true, decide_eq_true_eq]
    omega
  · rw [Char.ofNat, dif_neg valid]
    rfl

theorem Shift.of_target? {shift : Shift} {m n : Nat} (moved : shift.target? m = some n) :
    shift.first ≤ m ∧ m ≤ shift.last ∧ n = (m + shift.offset).toNat := by
  unfold target? at moved
  split at moved
  next inside => exact ⟨inside.1, inside.2.1, (Option.some.inj moved).symm⟩
  next => cases moved

theorem shiftBy_eq_or (shifts : List Shift) (c : Char) : shiftBy shifts c = c ∨
    ∃ shift ∈ shifts, ∃ n, shift.target? c.toNat = some n ∧ shiftBy shifts c = Char.ofNat n := by
  unfold shiftBy
  split
  next n moved =>
    obtain ⟨shift, member, target⟩ := List.exists_of_findSome?_eq_some moved
    exact .inr ⟨shift, member, n, target, rfl⟩
  next => exact .inl rfl

theorem Shift.isSpace_target {shift : Shift} (avoids : shift.avoidsSpace = true) {c : Char} {n : Nat}
    (moved : shift.target? c.toNat = some n) : isSpace c = false ∧ isSpace (Char.ofNat n) = false := by
  rw [avoidsSpace, Bool.and_eq_true, decide_eq_true_eq] at avoids
  have outside := List.all_eq_true.mp avoids.2
  simp only [Bool.and_eq_true, Bool.or_eq_true, decide_eq_true_eq] at outside
  obtain ⟨low, high, rfl⟩ := of_target? moved
  constructor
  · rw [isSpace, Ranges.has, List.any_eq_false]
    intro range member
    have apart := (outside range member).1
    simp only [Bool.and_eq_true, decide_eq_true_eq]
    omega
  · refine isSpace_ofNat fun range member => ?_
    have apart := (outside range member).2
    have above := avoids.1
    omega

theorem isSpace_shiftBy {shifts : List Shift} (avoid : shifts.all Shift.avoidsSpace = true) (c : Char) :
    isSpace (shiftBy shifts c) = isSpace c := by
  rcases shiftBy_eq_or shifts c with same | ⟨shift, member, n, target, moved⟩
  · rw [same]
  · obtain ⟨before, after⟩ := Shift.isSpace_target (List.all_eq_true.mp avoid shift member) target
    rw [moved, before, after]

theorem isSpace_of_letter {c : Char} (low : 65 ≤ c.toNat) (high : c.toNat ≤ 122) : isSpace c = false := by
  rw [isSpace, Ranges.has, List.any_eq_false]
  intro range member
  have outside : range.2 < 65 ∨ 122 < range.1 := by
    revert range
    decide
  simp only [Bool.and_eq_true, decide_eq_true_eq]
  omega

theorem isSpace_toLower (c : Char) : isSpace c.toLower = isSpace c := by
  unfold Char.toLower
  split
  next upper =>
    have low : 65 ≤ c.toNat := upper.1
    have high : c.toNat ≤ 90 := upper.2
    have moved (valid) : (Char.mk (c.val + ('a'.val - 'A'.val)) valid).toNat = c.toNat + 32 := by
      have small : c.val.toNat + 32 < UInt32.size := by
        have same : c.val.toNat = c.toNat := rfl
        rw [same, UInt32.size]
        omega
      exact (UInt32.toNat_add ..).trans (Nat.mod_eq_of_lt small)
    rw [isSpace_of_letter low (by omega), isSpace_of_letter (by rw [moved]; omega) (by rw [moved]; omega)]
  next => rfl

/-- Folding neither makes white space nor takes it away, so that a word keeps its edges in every spelling. -/
theorem isSpace_foldChar (c : Char) : isSpace (foldChar c) = isSpace c := by
  unfold foldChar
  split
  · exact isSpace_toLower c
  · exact isSpace_shiftBy (by decide +kernel) c

theorem sameFold_iff {a b : Char} : sameFold a b = true ↔ foldChar a = foldChar b := by
  rw [sameFold, Bool.or_eq_true, beq_iff_eq, beq_iff_eq]
  exact or_iff_right_of_imp (congrArg foldChar)

theorem isSpace_of_sameFold {a b : Char} (same : sameFold a b = true) : isSpace a = isSpace b := by
  rw [← isSpace_foldChar a, sameFold_iff.mp same, isSpace_foldChar]

/-- The lower case of a character begins with white space exactly if the character is white space. -/
theorem isSpace_lowerChar (c : Char) : ∃ d ds, lowerChar c = d :: ds ∧ isSpace d = isSpace c := by
  unfold lowerChar
  split
  · exact ⟨_, _, rfl, isSpace_toLower c⟩
  · split
    next dotted => exact ⟨_, _, rfl, by rw [dotted]; rfl⟩
    next => exact ⟨_, _, rfl, isSpace_shiftBy (by decide +kernel) c⟩

section Blank
variable {before gap after cs : List Char}

theorem dropSpaces_of_blank (blank : Blank gap) (cs : List Char) : dropSpaces (gap ++ cs) = dropSpaces cs :=
  List.dropWhile_append_of_pos blank

theorem dropSpaces_cons {c : Char} (ink : isSpace c = false) (cs : List Char) :
    dropSpaces (c :: cs) = c :: cs :=
  List.dropWhile_cons_of_neg (by rw [ink]; exact Bool.false_ne_true)

/-- What is dropped from the front of a text is white space, and the rest follows it. -/
theorem exists_blank_dropSpaces (cs : List Char) : ∃ gap, Blank gap ∧ cs = gap ++ dropSpaces cs :=
  ⟨cs.takeWhile isSpace, fun _ => List.mem_takeWhile_imp, (List.takeWhile_append_dropWhile ..).symm⟩

theorem dropSpacesRight_eq_nil (blank : Blank gap) : dropSpacesRight gap = [] := by
  induction gap with
  | nil => rfl
  | cons c gap ih =>
    have ⟨first, rest⟩ := List.forall_mem_cons.mp blank
    rw [dropSpacesRight, ih rest]
    exact if_pos first

theorem dropSpacesRight_of_blank (blank : Blank after) (cs : List Char) :
    dropSpacesRight (cs ++ after) = dropSpacesRight cs := by
  induction cs with
  | nil => exact dropSpacesRight_eq_nil blank
  | cons c cs ih => rw [List.cons_append, dropSpacesRight, ih, dropSpacesRight]

theorem trimSpaces_of_blank (first : Blank before) (last : Blank after) (cs : List Char) :
    trimSpaces (before ++ (cs ++ after)) = trimSpaces cs := by
  rw [trimSpaces, dropSpaces_of_blank first, trimSpaces, dropSpaces, List.dropWhile_append]
  split
  next empty =>
    have nothing : after.dropWhile isSpace = [] := List.dropWhile_eq_nil_iff.mpr last
    rw [nothing, dropSpaces, List.isEmpty_iff.mp empty]
  next => exact dropSpacesRight_of_blank last _

theorem dropSpacesRight_inked {c : Char} (ink : isSpace c = false) (cs : List Char) :
    Inked (dropSpacesRight (c :: cs)) := by
  rw [dropSpacesRight]
  split
  · rw [if_neg (by rw [ink]; exact Bool.false_ne_true)]
    exact ⟨c, [], rfl, ink⟩
  · exact ⟨c, _, rfl, ink⟩

theorem trimSpaces_inked {cs : List Char} (filled : trimSpaces cs ≠ []) : Inked (trimSpaces cs) := by
  rw [trimSpaces] at filled ⊢
  cases split : dropSpaces cs with
  | nil => exact absurd rfl (split ▸ filled)
  | cons c more =>
    have ink : isSpace c = false := by
      have head := List.head?_dropWhile_not isSpace cs
      rw [← dropSpaces, split] at head
      simpa using head
    exact dropSpacesRight_inked ink more

/-- A text that does not begin with white space does not in lower case either, whatever stands before it. -/
theorem Inked.lowerAfter {cs : List Char} (inked : Inked cs) (before : List Char) :
    Inked (lowerAfter before cs) := by
  obtain ⟨c, more, rfl, ink⟩ := inked
  rw [Text.lowerAfter]
  split
  · split
    · exact ⟨_, _, rfl, by decide⟩
    · exact ⟨_, _, rfl, by decide⟩
  · obtain ⟨d, ds, lower, same⟩ := isSpace_lowerChar c
    exact ⟨d, _, by rw [lower, List.cons_append], same.trans ink⟩

end Blank

section Spells
variable {word text : List Char}

theorem Spells.refl (word : List Char) : Spells word word :=
  List.forall₂_same.mpr fun _ _ => sameFold_iff.mpr rfl

/-- A spelling has as many characters as its word, though not always as many bytes. -/
theorem Spells.length (spells : Spells word text) : text.length = word.length := (List.Forall₂.length_eq spells).symm

theorem Spells.head {w : Char} {ws : List Char} (spells : Spells (w :: ws) text) :
    ∃ c cs, text = c :: cs ∧ foldChar w = foldChar c := by
  cases spells with
  | cons same _ => exact ⟨_, _, rfl, sameFold_iff.mp same⟩

/-- A spelling of a word that does not begin with white space does not either. -/
theorem Spells.inked (spells : Spells word text) (inked : Inked word) : Inked text := by
  obtain ⟨w, ws, rfl, ink⟩ := inked
  obtain ⟨c, cs, split, same⟩ := spells.head
  exact ⟨c, cs, split, by rw [← isSpace_of_sameFold (sameFold_iff.mpr same), ink]⟩

end Spells

/-- The text with every letter folded. -/
def fold (s : String) : String := String.ofList (s.toList.map foldChar)

theorem fold_eq_fold_iff {s t : String} : fold s = fold t ↔ Spells s.toList t.toList := by
  simp only [fold, Spells, sameFold_iff, String.ofList_inj]
  rw [← List.forall₂_eq_eq_eq, List.forall₂_map_left_iff, List.forall₂_map_right_iff]

theorem forall_ascii {P : Char → Prop} (all : ∀ n < 0x80, P (Char.ofNat n)) {c : Char} (ascii : c.toNat < 0x80) :
    P c :=
  Char.ofNat_toNat c ▸ all c.toNat ascii

end Templating.Text
