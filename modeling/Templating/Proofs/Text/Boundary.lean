import Templating.Text.Offset

namespace Templating.Text

/-- An offset that no character of the text lies across. -/
def IsBoundary (source : String) (offset : Nat) : Prop := (String.Pos.Raw.mk offset).IsValid source

@[simp] theorem byteLength_append (before after : List Char) :
    byteLength (before ++ after) = byteLength before + byteLength after := by
  induction before with
  | nil => simp [byteLength]
  | cons c cs ih => simp only [List.cons_append, byteLength, ih]; omega

theorem byteLength_pos {cs : List Char} (nonempty : cs ≠ []) : 0 < byteLength cs := by
  cases cs with
  | nil => exact absurd rfl nonempty
  | cons c cs =>
    have positive := c.utf8Size_pos
    simp only [byteLength]
    omega

theorem size_eq_utf8ByteSize (s : String) : size s = s.utf8ByteSize := by
  obtain ⟨cs, rfl⟩ := s.exists_eq_ofList
  rw [size, String.toList_ofList]
  induction cs with
  | nil => rfl
  | cons c cs ih =>
    have split : String.ofList (c :: cs) = String.singleton c ++ String.ofList cs := by
      rw [← String.toList_inj, String.toList_append]
      simp
    rw [split, String.utf8ByteSize_append, String.utf8ByteSize_singleton, byteLength, ih]

/-- What is dropped at the end of the first part of a text is that part. -/
theorem dropBytes_byteLength (before after : List Char) :
    dropBytes (byteLength before) (before ++ after) = after := by
  induction before with
  | nil => rw [byteLength, dropBytes, List.nil_append]
  | cons c cs ih =>
    obtain ⟨n, size⟩ : ∃ n, byteLength (c :: cs) = n + 1 :=
      Nat.exists_eq_succ_of_ne_zero (Nat.ne_of_gt (byteLength_pos (List.cons_ne_nil c cs)))
    have rest : n + 1 - c.utf8Size = byteLength cs := by
      rw [byteLength] at size
      omega
    rw [size, List.cons_append, dropBytes, rest, ih]

/-- What is taken up to the end of the first part of a text is that part. -/
theorem takeBytes_byteLength (before after : List Char) :
    takeBytes (byteLength before) (before ++ after) = before := by
  induction before with
  | nil => rw [byteLength, takeBytes]
  | cons c cs ih =>
    obtain ⟨n, size⟩ : ∃ n, byteLength (c :: cs) = n + 1 :=
      Nat.exists_eq_succ_of_ne_zero (Nat.ne_of_gt (byteLength_pos (List.cons_ne_nil c cs)))
    have rest : n + 1 - c.utf8Size = byteLength cs := by
      rw [byteLength] at size
      omega
    rw [size, List.cons_append, takeBytes, rest, ih]

theorem slice_of_split {source : String} {before inside after : List Char}
    (split : source.toList = before ++ (inside ++ after)) :
    slice source (byteLength before) (byteLength (before ++ inside)) = String.ofList inside := by
  have width : byteLength (before ++ inside) - byteLength before = byteLength inside := by
    rw [byteLength_append]
    omega
  rw [slice, split, dropBytes_byteLength, width, takeBytes_byteLength]

theorem slice_self (source : String) (offset : Nat) : slice source offset offset = "" := by
  rw [slice, Nat.sub_self, takeBytes, String.ofList_nil]

theorem slice_whole (source : String) : slice source 0 (size source) = source := by
  have split : source.toList = [] ++ (source.toList ++ []) := by rw [List.nil_append, List.append_nil]
  have whole := slice_of_split split
  rwa [List.nil_append, String.ofList_toList] at whole

/-- An offset at the edge of a character is the length of what stands before it, and cuts the text into two. -/
theorem isBoundary_iff {source : String} {offset : Nat} :
    IsBoundary source offset ↔
      ∃ before after, source.toList = before ++ after ∧ byteLength before = offset := by
  rw [IsBoundary, String.Pos.Raw.isValid_iff_exists_append]
  constructor
  · rintro ⟨before, after, rfl, edge⟩
    have same := congrArg String.Pos.Raw.byteIdx edge
    rw [String.byteIdx_rawEndPos, ← size_eq_utf8ByteSize] at same
    exact ⟨before.toList, after.toList, String.toList_append, same.symm⟩
  · rintro ⟨before, after, split, rfl⟩
    refine ⟨String.ofList before, String.ofList after, ?_, ?_⟩
    · rw [← String.toList_inj, split, String.toList_append, String.toList_ofList, String.toList_ofList]
    · rw [String.Pos.Raw.ext_iff, String.byteIdx_rawEndPos, ← size_eq_utf8ByteSize, size,
        String.toList_ofList]

theorem isBoundary_zero (source : String) : IsBoundary source 0 :=
  isBoundary_iff.mpr ⟨[], source.toList, rfl, rfl⟩

theorem isBoundary_size (source : String) : IsBoundary source (size source) :=
  isBoundary_iff.mpr ⟨source.toList, [], (List.append_nil _).symm, rfl⟩

theorem IsBoundary.le_size {source : String} {offset : Nat} (boundary : IsBoundary source offset) :
    offset ≤ size source := by
  obtain ⟨before, after, split, rfl⟩ := isBoundary_iff.mp boundary
  rw [size, split, byteLength_append]
  omega

end Templating.Text
