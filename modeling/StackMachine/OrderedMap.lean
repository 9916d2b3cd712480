/-!
# Ordered maps

Finite maps as lists of entries, ascending by key, one entry for each key.
-/

namespace StackMachine

/-- A finite map, its entries ascending by key. -/
structure OrderedMap (κ ν : Type) where
  /-- The entries, ascending by key. -/
  entries : List (κ × ν)
  deriving DecidableEq, Repr

namespace OrderedMap

variable {κ ν : Type}

/-- The map without entries. -/
def empty : OrderedMap κ ν := ⟨[]⟩

instance : EmptyCollection (OrderedMap κ ν) := ⟨empty⟩

instance : Inhabited (OrderedMap κ ν) := ⟨empty⟩

variable [DecidableEq κ]

/-- The value of a key, if the map has one. -/
def find? (m : OrderedMap κ ν) (key : κ) : Option ν :=
  m.entries.lookup key

variable [LT κ] [DecidableLT κ]

/-- Puts an entry before the first larger key, or in place of an entry with the same key. -/
def place (key : κ) (value : ν) : List (κ × ν) → List (κ × ν)
  | [] => [(key, value)]
  | (k, v) :: rest =>
    if key = k then (key, value) :: rest
    else if key < k then (key, value) :: (k, v) :: rest
    else (k, v) :: place key value rest

/-- Gives a key a value, whatever it had before. -/
def insert (m : OrderedMap κ ν) (key : κ) (value : ν) : OrderedMap κ ν :=
  ⟨place key value m.entries⟩

/-- The map of a list of entries. Of two entries with one key the later counts. -/
def ofList (entries : List (κ × ν)) : OrderedMap κ ν :=
  entries.foldl (fun m e => m.insert e.1 e.2) ∅

/-! ## Reading after writing -/

omit [LT κ] [DecidableLT κ] in
@[simp] theorem find?_empty (key : κ) : (∅ : OrderedMap κ ν).find? key = none := rfl

omit [LT κ] [DecidableLT κ] in
theorem lookup_cons_eq_ite [BEq κ] [LawfulBEq κ] (key k : κ) (v : ν) (rest : List (κ × ν)) :
    List.lookup key ((k, v) :: rest) = if key = k then some v else rest.lookup key := by
  split
  · rename_i same
    rw [same, List.lookup_cons_self]
  · rename_i apart
    rw [List.lookup_cons, beq_false_of_ne apart]

theorem lookup_place (key other : κ) (value : ν) (entries : List (κ × ν)) :
    (place key value entries).lookup other =
      if other = key then some value else entries.lookup other := by
  induction entries with
  | nil => exact lookup_cons_eq_ite ..
  | cons e rest ih =>
    obtain ⟨k, v⟩ := e
    rw [place]
    split
    · rename_i same
      subst same
      rw [lookup_cons_eq_ite, lookup_cons_eq_ite]
      split <;> rfl
    · split
      · exact lookup_cons_eq_ite ..
      · rename_i apart _
        rw [lookup_cons_eq_ite, lookup_cons_eq_ite, ih]
        by_cases found : other = key
        · subst found
          rw [if_neg apart, if_pos rfl, if_pos rfl]
        · rw [if_neg found, if_neg found]

@[simp] theorem find?_insert (m : OrderedMap κ ν) (key other : κ) (value : ν) :
    (m.insert key value).find? other = if other = key then some value else m.find? other :=
  lookup_place key other value m.entries

end OrderedMap

end StackMachine
