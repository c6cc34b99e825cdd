import Templating.Tags
import Templating.Proofs.Text.Spelling

namespace Templating

variable {tags : Tags} {keys : List String} {key : String}

/-- A scan looks for the keys that are registered, in the form in which they are compared, unless one is empty or is a
word of a directive in its own delimiters. -/
theorem mem_scanKeys : key ∈ scanKeys tags keys ↔
    (∃ k ∈ keys, keyForm k = key) ∧ key ≠ "" ∧ (tags.coincide = true → key ∉ directiveWords) := by
  simp [scanKeys, ← Bool.not_eq_true, imp_iff_not_or]

/-- No key that is looked for begins with white space, which could stand before it as well. -/
theorem inked_of_mem_scanKeys (member : key ∈ scanKeys tags keys) : Text.Inked key.toList := by
  obtain ⟨⟨k, _, rfl⟩, nonempty, _⟩ := mem_scanKeys.mp member
  rw [keyForm, Text.lowercase, Text.trim] at nonempty ⊢
  simp only [String.toList_ofList] at nonempty ⊢
  refine (Text.trimSpaces_inked fun empty => nonempty ?_).lowerAfter []
  rw [empty]
  rfl

section Order
variable {a b c : String}

/-- Longer keys are tried first, by their bytes, and keys of one length in alphabetical order. -/
theorem keyBefore_iff : keyBefore a b = true ↔
    b.utf8ByteSize < a.utf8ByteSize ∨ a.utf8ByteSize = b.utf8ByteSize ∧ a ≤ b := by
  rw [keyBefore, Bool.or_eq_true, Bool.and_eq_true, decide_eq_true_eq, decide_eq_true_eq, beq_iff_eq]

theorem keyBefore_trans (first : keyBefore a b = true) (second : keyBefore b c = true) :
    keyBefore a c = true := by
  rw [keyBefore_iff] at first second ⊢
  rcases first with longer | ⟨same, le⟩
  · exact .inl (by omega)
  · rcases second with longer | ⟨same', le'⟩
    · exact .inl (by omega)
    · exact .inr ⟨same.trans same', String.le_trans le le'⟩

theorem keyBefore_total (a b : String) : (keyBefore a b || keyBefore b a) = true := by
  rw [Bool.or_eq_true, keyBefore_iff, keyBefore_iff]
  rcases Nat.lt_trichotomy a.utf8ByteSize b.utf8ByteSize with less | same | more
  · exact .inr (.inl less)
  · exact (String.le_total a b).imp (fun le => .inr ⟨same, le⟩) fun le => .inr ⟨same.symm, le⟩
  · exact .inl (.inl more)

theorem keyBefore_antisymm (first : keyBefore a b = true) (second : keyBefore b a = true) : a = b := by
  rw [keyBefore_iff] at first second
  rcases first with longer | ⟨same, le⟩
  · omega
  · rcases second with longer | ⟨_, ge⟩
    · omega
    · exact String.le_antisymm le ge

theorem pairwise_scanKeys (tags : Tags) (keys : List String) :
    (scanKeys tags keys).Pairwise fun a b => keyBefore a b = true :=
  @List.pairwise_mergeSort _ keyBefore (fun _ _ _ => keyBefore_trans) keyBefore_total _

theorem nodup_eraseDups (keys : List String) : keys.eraseDups.Nodup := by
  induction left : keys.length using Nat.strong_induction_on generalizing keys with
  | _ left ih =>
    cases keys with
    | nil => exact .nil
    | cons key keys =>
      have shorter := List.length_filter_le (fun k => !k == key) keys
      rw [List.length_cons] at left
      rw [List.eraseDups_cons, List.nodup_cons, List.mem_eraseDups]
      exact ⟨by simp, ih _ (by omega) _ rfl⟩

theorem nodup_scanKeys (tags : Tags) (keys : List String) : (scanKeys tags keys).Nodup :=
  (List.mergeSort_perm _ _).nodup_iff.mpr (nodup_eraseDups _)

theorem scanKeys_eq_of_mem_iff {list : List String} (nodup : list.Nodup)
    (ordered : list.Pairwise fun a b => keyBefore a b = true)
    (same : ∀ key, key ∈ scanKeys tags keys ↔ key ∈ list) : scanKeys tags keys = list := by
  have perm : (scanKeys tags keys).Perm list :=
    (List.perm_ext_iff_of_nodup (nodup_scanKeys tags keys) nodup).mpr same
  exact perm.eq_of_pairwise (fun _ _ _ _ => keyBefore_antisymm) (pairwise_scanKeys tags keys) ordered

theorem utf8ByteSize_le_of_scanKeys {earlier later : List String}
    (split : scanKeys tags keys = earlier ++ key :: later) : ∀ k ∈ later, k.utf8ByteSize ≤ key.utf8ByteSize := by
  have sorted := pairwise_scanKeys tags keys
  rw [split, List.pairwise_append] at sorted
  intro k member
  rcases keyBefore_iff.mp ((List.pairwise_cons.mp sorted.2.1).1 k member) with longer | ⟨same, _⟩
  · exact Nat.le_of_lt longer
  · exact Nat.le_of_eq same.symm

end Order

end Templating
