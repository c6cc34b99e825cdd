import Mathlib.Data.List.Induction
import Mathlib.Data.List.Nodup
import Templating.OrderedMap

namespace Templating

namespace OrderedMap
variable {α : Type} {m : OrderedMap α} {key k : String} {value : α}

/-- A key that is set leads to its new value, and every other key to what it led to before. -/
theorem lookup_set (m : OrderedMap α) (key k : String) (value : α) :
    (m.set key value).lookup k = if k = key then some value else m.lookup k := by
  induction m with
  | nil =>
    rw [set, List.lookup_cons, beq_eq_decide]
    split <;> simp_all
  | cons entry m ih =>
    obtain ⟨k', v⟩ := entry
    rw [set]
    split
    next same =>
      subst same
      simp only [List.lookup_cons, beq_eq_decide]
      split <;> simp_all
    next other =>
      simp only [List.lookup_cons, ih, beq_eq_decide]
      split <;> simp_all

@[simp] theorem keys_cons (entry : String × α) (m : OrderedMap α) : keys (entry :: m) = entry.1 :: m.keys := rfl

/-- A key that is set for the first time comes last. One that is set again keeps its place. -/
theorem keys_set (m : OrderedMap α) (key : String) (value : α) :
    (m.set key value).keys = if key ∈ m.keys then m.keys else m.keys ++ [key] := by
  induction m with
  | nil => rfl
  | cons entry m ih =>
    obtain ⟨k', v⟩ := entry
    rw [set]
    split
    next same => simp [same]
    next other =>
      simp only [keys_cons, ih, List.mem_cons, Ne.symm other, false_or]
      split <;> rfl

theorem nodup_keys_set (nodup : m.keys.Nodup) : (m.set key value).keys.Nodup := by
  rw [keys_set]
  split
  · exact nodup
  next absent => exact List.nodup_append.mpr ⟨nodup, List.nodup_singleton key, by grind⟩

theorem lookup_of_mem (nodup : m.keys.Nodup) (member : (key, value) ∈ m) : m.lookup key = some value := by
  induction m with
  | nil => cases member
  | cons entry m ih =>
    obtain ⟨first, rest⟩ := List.nodup_cons.mp nodup
    rw [List.lookup_cons]
    cases member with
    | head => simp
    | tail _ member =>
      have there : key ∈ m.map Prod.fst := List.mem_map_of_mem member
      have other : (key == entry.1) = false := beq_false_of_ne fun same => first (same ▸ there)
      simp only [other]
      exact ih rest member

/-- The map that has entries set one after the other: each key is where it came first, with the value that it was set
to last. -/
def ofEntries (entries : List (String × α)) : OrderedMap α :=
  entries.foldl (fun m (key, value) => m.set key value) []

theorem ofEntries_concat (entries : List (String × α)) (key : String) (value : α) :
    ofEntries (entries ++ [(key, value)]) = (ofEntries entries).set key value := by
  rw [ofEntries, List.foldl_append, ofEntries, List.foldl_cons, List.foldl_nil]

theorem nodup_keys_ofEntries (entries : List (String × α)) : (ofEntries entries).keys.Nodup := by
  induction entries using List.reverseRecOn with
  | nil => exact .nil
  | append_singleton entries entry ih =>
    rw [ofEntries_concat]
    exact nodup_keys_set ih

theorem lookup_ofEntries (entries : List (String × α)) (k : String) :
    (ofEntries entries).lookup k = entries.reverse.lookup k := by
  induction entries using List.reverseRecOn with
  | nil => rfl
  | append_singleton entries entry ih =>
    rw [ofEntries_concat, lookup_set, ih, List.reverse_append, List.reverse_singleton, List.singleton_append,
      List.lookup_cons, beq_eq_decide]
    split <;> simp_all

theorem keys_ofEntries (entries : List (String × α)) :
    (ofEntries entries).keys = (entries.map Prod.fst).eraseDups := by
  induction entries using List.reverseRecOn with
  | nil => rfl
  | append_singleton entries entry ih =>
    rw [ofEntries_concat, keys_set, ih, List.map_append, List.map_singleton, List.eraseDups_append,
      List.removeAll]
    simp only [List.mem_eraseDups]
    split
    next there => simp [there]
    next absent => simp [absent, List.eraseDups_cons]

theorem mem_keys_ofEntries {entries : List (String × α)} :
    k ∈ (ofEntries entries).keys ↔ k ∈ entries.map Prod.fst := by
  rw [keys_ofEntries, List.mem_eraseDups]

/-- A key with some property is in the map exactly if an entry had it. -/
theorem exists_key_ofEntries {entries : List (String × α)} {P : String → Prop} :
    (∃ pair ∈ ofEntries entries, P pair.1) ↔ ∃ entry ∈ entries, P entry.1 :=
  calc (∃ pair ∈ ofEntries entries, P pair.1)
    _ ↔ ∃ name ∈ (ofEntries entries).keys, P name := by simp [keys]
    _ ↔ ∃ name ∈ entries.map Prod.fst, P name := by simp only [mem_keys_ofEntries]
    _ ↔ ∃ entry ∈ entries, P entry.1 := by simp

end OrderedMap

end Templating
