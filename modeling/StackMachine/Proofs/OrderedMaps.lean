import Mathlib.Data.List.Induction
import Mathlib.Data.List.Dedup
import StackMachine.OrderedMap

/-!
# Maps from lists of entries

A map that is built from a list of entries has its keys in ascending order, each of them once, and
for each key the entry that came last: `OrderedMap.ascending_ofList` and
`OrderedMap.mem_entries_ofList`.
-/

namespace StackMachine.OrderedMap

variable {κ ν : Type}

/-! ## Entries of a key -/

section

variable [DecidableEq κ]

/-- A list of entries has a value for a key if some entry has that key. -/
theorem isSome_lookup {key : κ} {entries : List (κ × ν)} :
    (entries.lookup key).isSome ↔ key ∈ entries.map Prod.fst := by
  rw [List.lookup_isSome_iff, List.mem_map]
  exact exists_congr fun e => and_congr_right fun _ => beq_iff_eq.trans eq_comm

theorem lookup_map_values {μ : Type} (f : ν → μ) (key : κ) (entries : List (κ × ν)) :
    (entries.map fun e => (e.1, f e.2)).lookup key = (entries.lookup key).map f := by
  induction entries with
  | nil => rfl
  | cons e rest ih =>
    rw [List.map_cons, List.lookup_cons, List.lookup_cons, ih]
    split <;> rfl

theorem mem_of_lookup_eq_some {entries : List (κ × ν)} {key : κ} {value : ν}
    (h : entries.lookup key = some value) : (key, value) ∈ entries := by
  obtain ⟨before, after, rfl, -⟩ := List.lookup_eq_some_iff.mp h
  exact List.mem_append_right _ List.mem_cons_self

/-- An entry that is found by its key is one of the entries, and the other way round. -/
theorem lookup_eq_some_of_nodup {entries : List (κ × ν)} (h : (entries.map Prod.fst).Nodup)
    {key : κ} {value : ν} : entries.lookup key = some value ↔ (key, value) ∈ entries := by
  induction entries with
  | nil => simp
  | cons e rest ih =>
    obtain ⟨k, v⟩ := e
    obtain ⟨apart, nodup⟩ := List.nodup_cons.mp h
    rw [lookup_cons_eq_ite, List.mem_cons, Prod.mk.injEq]
    by_cases found : key = k
    · subst found
      have others : (key, value) ∉ rest := fun member =>
        apart (List.mem_map.mpr ⟨_, member, rfl⟩)
      simp only [others, or_false, true_and, if_true, Option.some.injEq, eq_comm]
    · simp only [ih nodup, found, false_and, false_or, if_false]

variable [LT κ] [DecidableLT κ]

theorem ofList_append (entries : List (κ × ν)) (e : κ × ν) :
    ofList (entries ++ [e]) = (ofList entries).insert e.1 e.2 := by
  rw [ofList, List.foldl_append]
  rfl

/-- A map has for each key the value of the last entry with that key. -/
theorem find?_ofList (entries : List (κ × ν)) (key : κ) :
    (ofList entries).find? key = entries.reverse.lookup key := by
  induction entries using List.reverseRecOn with
  | nil => rfl
  | append_singleton entries e ih =>
    rw [ofList_append, find?_insert, ih, List.reverse_append, List.reverse_singleton,
      List.singleton_append]
    exact (lookup_cons_eq_ite ..).symm

theorem mem_keys_ofList {entries : List (κ × ν)} {key : κ} :
    key ∈ (ofList entries).entries.map Prod.fst ↔ key ∈ entries.map Prod.fst := by
  rw [← isSome_lookup]
  show ((ofList entries).find? key).isSome ↔ _
  rw [find?_ofList, isSome_lookup, List.map_reverse, List.mem_reverse]

theorem mem_place {key : κ} {value : ν} {entries : List (κ × ν)} {e : κ × ν}
    (h : e ∈ place key value entries) : e = (key, value) ∨ e ∈ entries := by
  induction entries with
  | nil => exact .inl (List.mem_singleton.mp h)
  | cons first rest ih =>
    obtain ⟨k, v⟩ := first
    rw [place] at h
    split at h
    · exact (List.mem_cons.mp h).imp_right (List.mem_cons_of_mem _)
    · split at h
      · exact List.mem_cons.mp h
      · rcases List.mem_cons.mp h with rfl | h
        · exact .inr List.mem_cons_self
        · exact (ih h).imp_right (List.mem_cons_of_mem _)

end

/-! ## The order of keys -/

/-- The keys of a list of entries ascend. -/
def Ascending [LT κ] (entries : List (κ × ν)) : Prop :=
  entries.Pairwise fun e f => e.1 < f.1

theorem Ascending.keys [LT κ] {entries : List (κ × ν)} (h : Ascending entries) :
    (entries.map Prod.fst).Pairwise (· < ·) :=
  List.pairwise_map.mpr h

section

variable [LT κ] [LE κ] [Std.LawfulOrderLT κ]

/-- Ascending keys are different keys. -/
theorem nodup_of_ascending {keys : List κ} (h : keys.Pairwise (· < ·)) : keys.Nodup := by
  refine h.imp fun less same => ?_
  subst same
  exact Std.lt_irrefl less

variable [DecidableEq κ]

/-- The entries of a map whose keys ascend are what is found in it. -/
theorem Ascending.find?_eq_some {m : OrderedMap κ ν} (h : Ascending m.entries) {key : κ}
    {value : ν} : m.find? key = some value ↔ (key, value) ∈ m.entries := by
  rw [find?]
  exact lookup_eq_some_of_nodup (nodup_of_ascending h.keys)

variable [DecidableLT κ] [Std.IsLinearOrder κ]

theorem Ascending.place {entries : List (κ × ν)} (h : Ascending entries) (key : κ) (value : ν) :
    Ascending (place key value entries) := by
  induction entries with
  | nil => exact List.pairwise_singleton _ _
  | cons first rest ih =>
    obtain ⟨k, v⟩ := first
    obtain ⟨above, ascending⟩ := List.pairwise_cons.mp h
    rw [OrderedMap.place]
    split
    · rename_i same
      subst same
      exact List.pairwise_cons.mpr ⟨above, ascending⟩
    · rename_i apart
      split
      · rename_i below
        refine List.pairwise_cons.mpr ⟨fun e member => ?_, h⟩
        rcases List.mem_cons.mp member with rfl | member
        · exact below
        · exact Std.lt_trans below (above e member)
      · rename_i notBelow
        have behind : k < key := Std.lt_of_le_of_ne (Std.not_lt.mp notBelow) (Ne.symm apart)
        refine List.pairwise_cons.mpr ⟨fun e member => ?_, ih ascending⟩
        rcases mem_place member with rfl | member
        · exact behind
        · exact above e member

theorem ascending_ofList (entries : List (κ × ν)) : Ascending (ofList entries).entries := by
  induction entries using List.reverseRecOn with
  | nil => exact .nil
  | append_singleton entries e ih =>
    rw [ofList_append]
    exact ih.place e.1 e.2

theorem nodup_keys_ofList (entries : List (κ × ν)) :
    ((ofList entries).entries.map Prod.fst).Nodup :=
  nodup_of_ascending (ascending_ofList entries).keys

/-- The entries of a map are, for each key, the last one of the list. -/
theorem mem_entries_ofList {entries : List (κ × ν)} {key : κ} {value : ν} :
    (key, value) ∈ (ofList entries).entries ↔ entries.reverse.lookup key = some value := by
  rw [← find?_ofList]
  exact (ascending_ofList entries).find?_eq_some.symm

/-- A map has one entry for each of the keys of the list. -/
theorem length_ofList (entries : List (κ × ν)) :
    (ofList entries).entries.length = (entries.map Prod.fst).dedup.length := by
  have perm : ((ofList entries).entries.map Prod.fst).Perm (entries.map Prod.fst).dedup :=
    (List.perm_ext_iff_of_nodup (nodup_keys_ofList entries) (List.nodup_dedup _)).mpr fun key => by
      rw [mem_keys_ofList, List.mem_dedup]
  rw [← perm.length_eq, List.length_map]

theorem mem_of_mem_ofList {entries : List (κ × ν)} {e : κ × ν} (h : e ∈ (ofList entries).entries) :
    e ∈ entries :=
  List.mem_reverse.mp (mem_of_lookup_eq_some (mem_entries_ofList.mp h))

end

end StackMachine.OrderedMap
