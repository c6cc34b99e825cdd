import Templating.Proofs.Text.Spelling

namespace Templating.Text

/-- Where the first and the last of what the shift moves come to. -/
def Shift.lowest (shift : Shift) : Nat := (shift.first + shift.offset).toNat

def Shift.highest (shift : Shift) : Nat := (shift.last + shift.offset).toNat

/-- What the shift moves does not come to where the other one takes from. -/
def Shift.misses (shift other : Shift) : Bool :=
  Nat.blt shift.highest other.first || Nat.blt other.last shift.lowest ||
    (Nat.beq other.stride 2 && (Nat.beq shift.stride 2 || Nat.beq shift.first shift.last) &&
      Nat.beq ((shift.lowest + other.first) % 2) 1)

/-- What a shift moves is not moved again by another one that it misses. Shifts with a stride of two take from and
come to numbers of one parity only, which is where most of them miss each other. -/
theorem Shift.target?_eq_none {shift other : Shift} (misses : shift.misses other = true)
    (positive : 0 ≤ shift.first + shift.offset) {m n : Nat} (moved : shift.target? m = some n) :
    other.target? n = none := by
  unfold target? at moved ⊢
  split at moved
  next inside =>
    obtain ⟨low, high, step⟩ := inside
    cases moved
    simp only [Shift.misses, lowest, highest, Bool.or_eq_true, Bool.and_eq_true, Nat.blt_eq, Nat.beq_eq] at misses
    refine if_neg fun ⟨low', high', step'⟩ => ?_
    rcases misses with (below | above) | ⟨⟨even, alike⟩, odd⟩
    · omega
    · omega
    · rw [even] at step'
      rcases alike with alike | single
      · rw [alike] at step
        omega
      · omega
  next => cases moved

/-- The shift leads to characters beyond ASCII only. -/
def Shift.staysAbove (shift : Shift) : Bool :=
  0x80 ≤ shift.first + shift.offset &&
    (shift.last + shift.offset < 0xD800 ||
      0xE000 ≤ shift.first + shift.offset && shift.last + shift.offset < 0x110000)

theorem Shift.le_target {shift : Shift} (above : shift.staysAbove = true) {m n : Nat}
    (moved : shift.target? m = some n) : 0x80 ≤ (Char.ofNat n).toNat := by
  simp only [staysAbove, Bool.and_eq_true, Bool.or_eq_true, decide_eq_true_eq] at above
  obtain ⟨low, high, rfl⟩ := of_target? moved
  rw [toNat_ofNat]
  · omega
  · unfold Nat.isValidChar
    omega

/-- The characters that have another lower case, the dotted `İ` among them. -/
def uppercase : List Shift := ⟨0x130, 0x130, 1, 0⟩ :: lowercasings

/-- No shift of the table leads to where another one takes from. This is all of the table that is looked at here,
shift by shift. -/
theorem lowercasings_miss : (lowercasings.all fun shift => uppercase.all shift.misses) = true := by
  decide +kernel

theorem lowercasings_stay : ∀ shift ∈ lowercasings, shift.staysAbove = true ∨
    shift.first = 0x212A ∧ shift.last = 0x212A ∧ shift.offset = -8383 := by
  decide +kernel

/-- A character that is its own lower case, whatever stands around it. -/
def Lowered (c : Char) : Prop := c ≠ 'Σ' ∧ lowerChar c = [c]

instance : DecidablePred Lowered := fun _ => inferInstanceAs (Decidable (_ ∧ _))

theorem lowered_of_missed {c : Char} (beyond : 0x80 ≤ c.toNat)
    (missed : ∀ other ∈ uppercase, other.target? c.toNat = none) : Lowered c := by
  obtain ⟨dotted, others⟩ := List.forall_mem_cons.mp missed
  have plain : c ≠ 'İ' := by
    rintro rfl
    exact absurd dotted (by decide)
  have kept : shiftBy lowercasings c = c := by
    rw [shiftBy, List.findSome?_eq_none_iff.mpr others]
  refine ⟨?_, by rw [lowerChar, if_neg (by omega), if_neg plain, kept]⟩
  rintro rfl
  exact absurd kept (by decide +kernel)

/-- What is reached by lower-casing one character beyond ASCII, other than the dotted `İ`, is its own lower case. -/
theorem lowered_shiftBy {c : Char} (beyond : 0x80 ≤ c.toNat) (plain : c ≠ 'İ') :
    Lowered (shiftBy lowercasings c) := by
  rcases shiftBy_eq_or lowercasings c with same | ⟨shift, member, n, target, moved⟩
  · refine ⟨fun sigma => ?_, ?_⟩
    · rw [same] at sigma
      rw [sigma] at same
      exact absurd same (by decide +kernel)
    · rw [same, lowerChar, if_neg (by omega), if_neg plain, same]
  · rw [moved]
    have misses := List.all_eq_true.mp (List.all_eq_true.mp lowercasings_miss shift member)
    rcases lowercasings_stay shift member with above | ⟨first, last, offset⟩
    · have landed := shift.le_target above target
      refine lowered_of_missed landed fun other there => ?_
      have bounds := above
      simp only [Shift.staysAbove, Bool.and_eq_true, Bool.or_eq_true, decide_eq_true_eq] at bounds
      obtain ⟨low, high, place⟩ := Shift.of_target? target
      have valid : n.isValidChar := by
        unfold Nat.isValidChar
        omega
      rw [toNat_ofNat valid]
      exact Shift.target?_eq_none (misses other there) (by omega) target
    · obtain ⟨low, high, place⟩ := Shift.of_target? target
      have kelvin : n = 0x6B := by omega
      rw [kelvin]
      decide +kernel

theorem lowered_of_mem_lowerChar {c d : Char} (member : d ∈ lowerChar c) : Lowered d := by
  unfold lowerChar at member
  split at member
  next ascii =>
    cases List.mem_singleton.mp member
    exact forall_ascii (P := fun c => Lowered c.toLower) (by decide +kernel) ascii
  next beyond =>
    split at member
    next =>
      have lowered : Lowered 'i' ∧ Lowered '\u0307' := by decide +kernel
      rcases List.mem_pair.mp member with rfl | rfl
      · exact lowered.1
      · exact lowered.2
    next plain =>
      cases List.mem_singleton.mp member
      exact lowered_shiftBy (by omega) plain

theorem isSpace_of_mem_lowerChar {c d : Char} (ink : isSpace c = false) (member : d ∈ lowerChar c) :
    isSpace d = false := by
  unfold lowerChar at member
  split at member
  · cases List.mem_singleton.mp member
    rwa [isSpace_toLower]
  · split at member
    · rcases List.mem_pair.mp member with rfl | rfl
      · decide
      · decide
    · cases List.mem_singleton.mp member
      rwa [isSpace_shiftBy (by decide +kernel)]

/-- Whatever holds of the lower case of single characters holds all over that of a text. -/
theorem forall_mem_lowerAfter {P : Char → Prop} {cs : List Char} (final : P 'ς') (inner : P 'σ')
    (single : ∀ c ∈ cs, ∀ d ∈ lowerChar c, P d) (before : List Char) : ∀ d ∈ lowerAfter before cs, P d := by
  induction cs generalizing before with
  | nil => exact fun d member => nomatch member
  | cons c cs ih =>
    obtain ⟨first, others⟩ := List.forall_mem_cons.mp single
    intro d member
    rw [lowerAfter, List.mem_append] at member
    rcases member with member | member
    · split at member
      · cases List.mem_singleton.mp member
        split
        · exact final
        · exact inner
      · exact first d member
    · exact ih others (c :: before) d member

/-- A text of characters that are their own lower case is its own lower case, whatever stands before it. -/
theorem lowerAfter_of_lowered {cs : List Char} (lowered : ∀ c ∈ cs, Lowered c) (before : List Char) :
    lowerAfter before cs = cs := by
  induction cs generalizing before with
  | nil => rfl
  | cons c cs ih =>
    obtain ⟨⟨other, same⟩, lowered⟩ := List.forall_mem_cons.mp lowered
    rw [lowerAfter, if_neg other, same, ih lowered]
    rfl

/-- What is lower case has no other lower case: lower-casing a second time changes nothing. -/
theorem lowercase_lowercase (s : String) : lowercase (lowercase s) = lowercase s := by
  have lowered := forall_mem_lowerAfter (P := Lowered) (by decide +kernel) (by decide +kernel)
    (fun c (_ : c ∈ s.toList) _ member => lowered_of_mem_lowerChar member) []
  rw [lowercase, lowercase, String.toList_ofList, lowerAfter_of_lowered lowered]

section Unspaced
variable {s : String}

theorem isSpace_lowercase (inked : ∀ c ∈ s.toList, isSpace c = false) :
    ∀ c ∈ (lowercase s).toList, isSpace c = false := by
  rw [lowercase, String.toList_ofList]
  exact forall_mem_lowerAfter (by decide) (by decide) (fun c member _ => isSpace_of_mem_lowerChar (inked c member)) []

theorem trim_of_unspaced (inked : ∀ c ∈ s.toList, isSpace c = false) : trim s = s := by
  have first : dropSpaces s.toList = s.toList := by
    cases split : s.toList with
    | nil => rfl
    | cons c cs => exact dropSpaces_cons (inked c (by rw [split]; exact List.mem_cons_self)) cs
  have last {cs : List Char} (inked : ∀ c ∈ cs, isSpace c = false) : dropSpacesRight cs = cs := by
    induction cs with
    | nil => rfl
    | cons c cs ih =>
      obtain ⟨ink, inked⟩ := List.forall_mem_cons.mp inked
      rw [dropSpacesRight, ih inked]
      cases cs with
      | nil => exact if_neg (by rw [ink]; exact Bool.false_ne_true)
      | cons d cs => rfl
  rw [trim, trimSpaces, first, last inked, String.ofList_toList]

theorem lowercase_ne_empty (inked : ∀ c ∈ s.toList, isSpace c = false) (filled : s ≠ "") : lowercase s ≠ "" := by
  have front : Inked s.toList := by
    cases split : s.toList with
    | nil => exact absurd (String.toList_eq_nil_iff.mp split) filled
    | cons c cs => exact ⟨c, cs, rfl, inked c (by rw [split]; exact List.mem_cons_self)⟩
  obtain ⟨c, cs, lower, _⟩ := front.lowerAfter []
  intro empty
  rw [lowercase, lower, String.ofList_eq_empty_iff] at empty
  cases empty

end Unspaced

end Templating.Text
