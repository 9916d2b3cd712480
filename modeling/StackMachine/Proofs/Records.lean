import Mathlib.Data.List.Forall2
import StackMachine.Config.Document
import StackMachine.Proofs.OrderedMaps
import StackMachine.Proofs.Regions

/-!
# Records

What is read of an object depends on its known members only. `Json.Extends` relates the members of
an object to those of one with unknown members added: `Json.pickMembers_extends` says that a record
reads alike from both, `Json.splitKind_extends` says the same of what is found beside a kind. A
member that can be left out is the subject of `Json.pickMembers_insert`.
-/

namespace StackMachine.Json

open OrderedMap (lookup_cons_eq_ite)

/-! ## Added members -/

/-- The members of an object, in their order, with some unknown ones added, and with values that
are the same in some sense. -/
inductive Extends (unknown : String → Json → Prop) (same : Option String → Json → Json → Prop) :
    List (Option String × Json) → List (Option String × Json) → Prop where
  | nil : Extends unknown same [] []
  | keep {name : Option String} {value other : Json} {rest rest' : List (Option String × Json)}
      (alike : same name value other) (extends' : Extends unknown same rest rest') :
      Extends unknown same ((name, value) :: rest) ((name, other) :: rest')
  | add {name : String} {value : Json} {rest rest' : List (Option String × Json)}
      (added : unknown name value) (extends' : Extends unknown same rest rest') :
      Extends unknown same rest ((some name, value) :: rest')

/-- Fields are read from members that have names among the known ones, and two lists of fields
correspond if their values are the same in some sense. -/
def FieldsAlike (same : Option String → Json → Json → Prop) : Fields → Fields → Prop :=
  List.Forall₂ fun f g => g.1 = f.1 ∧ same (some f.1) f.2 g.2

section

variable {unknown : String → Json → Prop} {same : Option String → Json → Json → Prop}
  {members others : List (Option String × Json)} {names : List String}

theorem FieldsAlike.lookup {fields gs : Fields} (h : FieldsAlike same fields gs) (name : String) :
    fields.lookup name = none ∧ gs.lookup name = none ∨
      ∃ v w, fields.lookup name = some v ∧ gs.lookup name = some w ∧ same (some name) v w := by
  induction h with
  | nil => exact .inl ⟨rfl, rfl⟩
  | @cons f g _ _ first _ ih =>
    obtain ⟨_, value⟩ := f
    obtain ⟨key, other⟩ := g
    obtain ⟨rfl, alike⟩ := first
    rw [lookup_cons_eq_ite, lookup_cons_eq_ite]
    split
    · rename_i found
      subst found
      exact .inr ⟨value, other, rfl, rfl, alike⟩
    · exact ih

theorem FieldsAlike.withDefault_eq {α : Type} {fields gs : Fields} (h : FieldsAlike same fields gs)
    {name : String} {decode : Json → Decoded α} {default : α}
    (reads : ∀ v w, same (some name) v w → decode w = decode v) :
    gs.withDefault name decode default = fields.withDefault name decode default := by
  rw [Fields.withDefault, Fields.withDefault]
  rcases h.lookup name with ⟨none, none'⟩ | ⟨v, w, found, found', alike⟩
  · rw [none, none']
  · rw [found, found']
    exact reads v w alike

theorem FieldsAlike.eq {fields gs : Fields} (h : FieldsAlike (fun _ v w => w = v) fields gs) :
    gs = fields := by
  induction h with
  | nil => rfl
  | cons first _ ih => rw [ih, Prod.ext first.1 first.2]

/-- A record reads alike if members are added that it does not know. -/
theorem pickMembers_extends (h : Extends unknown same members others)
    (strange : ∀ name value, unknown name value → name ∉ names) :
    (∃ e, pickMembers names members = .error e ∧ pickMembers names others = .error e) ∨
      ∃ fields gs, pickMembers names members = .ok fields ∧
        pickMembers names others = .ok gs ∧ FieldsAlike same fields gs := by
  induction h with
  | nil => exact .inr ⟨[], [], rfl, rfl, .nil⟩
  | @keep name value other rest rest' alike _ ih =>
    cases name with
    | none => exact .inl ⟨.wrongKind, rfl, rfl⟩
    | some name =>
      rcases ih with ⟨e, read, read'⟩ | ⟨fields, gs, read, read', fieldsAlike⟩
      · exact .inl ⟨e, by rw [pickMembers, read]; rfl, by rw [pickMembers, read']; rfl⟩
      · simp only [pickMembers, read, read', bind, Except.bind]
        by_cases known : name ∉ names
        · exact .inr ⟨fields, gs, if_pos known, if_pos known, fieldsAlike⟩
        · rw [if_neg known, if_neg known]
          rcases fieldsAlike.lookup name with ⟨none, none'⟩ | ⟨v, w, found, found', -⟩
          · rw [none, none']
            exact .inr ⟨_, _, rfl, rfl, .cons ⟨rfl, alike⟩ fieldsAlike⟩
          · rw [found, found']
            exact .inl ⟨_, rfl, rfl⟩
  | @add name value rest rest' added _ ih =>
    have ignored : pickMembers names ((some name, value) :: rest') = pickMembers names rest' := by
      rw [pickMembers]
      cases pickMembers names rest' with
      | error e => rfl
      | ok gs => exact if_pos (strange name value added)
    rwa [ignored]

theorem Extends.refl (members : List (Option String × Json)) :
    Extends unknown (fun _ v w => w = v) members members := by
  induction members with
  | nil => exact .nil
  | cons m rest ih => exact .keep rfl ih

/-- A record reads the same if nothing is changed but that members are added. -/
theorem pickMembers_eq_of_extends (h : Extends unknown (fun _ v w => w = v) members others)
    (strange : ∀ name value, unknown name value → name ∉ names) :
    pickMembers names others = pickMembers names members := by
  rcases pickMembers_extends h strange with ⟨e, read, read'⟩ | ⟨fields, gs, read, read', alike⟩
  · rw [read, read']
  · rw [read, read', alike.eq]

/-! ## Members beside a kind -/

theorem Extends.any_kind_eq (h : Extends unknown same members others)
    (strange : ∀ name value, unknown name value → name ≠ "kind") :
    (others.any fun m => m.1 == some "kind") = members.any fun m => m.1 == some "kind" := by
  induction h with
  | nil => rfl
  | keep _ _ ih => rw [List.any_cons, List.any_cons, ih]
  | @add name value _ _ added _ ih =>
    have other : (some name == some "kind") = false :=
      beq_false_of_ne fun h => strange name value added (Option.some.inj h)
    rw [List.any_cons, other, ih]
    rfl

theorem splitKind_cons_of_ne {m : Option String × Json} (h : m.1 ≠ some "kind") :
    splitKind (m :: members)
      = (splitKind members).map fun split => (split.1, m :: split.2) := by
  rw [splitKind.eq_def]
  split
  · contradiction
  · rename_i found
    cases found
    exact absurd rfl h
  · rename_i found
    cases found
    rfl

/-- The kind of an object does not change if other members are added, and these are found beside
it. -/
theorem splitKind_extends (h : Extends unknown (fun _ v w => w = v) members others)
    (strange : ∀ name value, unknown name value → name ≠ "kind") :
    (∃ e, splitKind members = .error e ∧ splitKind others = .error e) ∨
      ∃ kind rest rest', splitKind members = .ok (kind, rest) ∧
        splitKind others = .ok (kind, rest') ∧ Extends unknown (fun _ v w => w = v) rest rest' := by
  induction h with
  | nil => exact .inl ⟨_, rfl, rfl⟩
  | @keep name value other rest rest' alike extended ih =>
    subst alike
    by_cases kind : name = some "kind"
    · subst kind
      rw [splitKind, splitKind, extended.any_kind_eq strange]
      split
      · exact .inl ⟨_, rfl, rfl⟩
      · exact .inr ⟨_, _, _, rfl, rfl, extended⟩
    · rw [splitKind_cons_of_ne kind, splitKind_cons_of_ne kind]
      rcases ih with ⟨e, found, found'⟩ | ⟨kind, rest, rest', found, found', beside⟩
      · rw [found, found']
        exact .inl ⟨e, rfl, rfl⟩
      · rw [found, found']
        exact .inr ⟨_, _, _, rfl, rfl, .keep rfl beside⟩
  | @add name value rest rest' added _ ih =>
    have other : (some name, value).1 ≠ some "kind" := fun h =>
      strange name value added (Option.some.inj h)
    rw [splitKind_cons_of_ne other]
    rcases ih with ⟨e, found, found'⟩ | ⟨kind, rest, rest', found, found', beside⟩
    · rw [found, found']
      exact .inl ⟨e, rfl, rfl⟩
    · rw [found, found']
      exact .inr ⟨_, _, _, rfl, rfl, .add added beside⟩

theorem mem_of_splitKind {kind : Json} {rest : List (Option String × Json)}
    (h : splitKind members = .ok (kind, rest)) : (some "kind", kind) ∈ members := by
  induction members generalizing rest with
  | nil => cases h
  | cons m members ih =>
    by_cases named : m.1 = some "kind"
    · obtain ⟨name, value⟩ := m
      cases named
      rw [splitKind] at h
      split at h
      · cases h
      · cases h
        exact List.mem_cons_self
    · rw [splitKind_cons_of_ne named] at h
      obtain ⟨split, found, same⟩ := map_eq_ok.mp h
      cases same
      exact List.mem_cons_of_mem m (ih found)

/-! ## Members that are held -/

theorem membersHeldWithin_eq (depth : Nat) (members : List (Option String × Json)) :
    membersHeldWithin depth members
      = members.all fun m => m.1.isSome && m.2.isHeldWithin depth := by
  induction members with
  | nil => rfl
  | cons m rest ih =>
    rw [membersHeldWithin, List.all_cons, ih]

/-- Whether members can be held is not changed by others that can. -/
theorem Extends.held_eq {depth : Nat} (h : Extends unknown (fun _ v w => w = v) members others)
    (held : ∀ name value, unknown name value → value.isHeldWithin depth = true) :
    membersHeldWithin depth others = membersHeldWithin depth members := by
  induction h with
  | nil => rfl
  | keep alike _ ih => rw [membersHeldWithin, membersHeldWithin, ih, alike]
  | add added _ ih =>
    rw [membersHeldWithin, held _ _ added, ih]
    rfl

end

/-! ## Members that are picked -/

section

variable {names : List String} {name : String} {before after : List (Option String × Json)}

/-- The first of the members that are picked has a name. Either that is unknown, or no other member
has it. -/
theorem pickMembers_cons_eq_ok {m : Option String × Json} {members : List (Option String × Json)}
    {fields : Fields} (h : pickMembers names (m :: members) = .ok fields) :
    ∃ name others, m.1 = some name ∧ pickMembers names members = .ok others ∧
      (name ∉ names ∧ fields = others ∨
        name ∈ names ∧ others.lookup name = none ∧ fields = (name, m.2) :: others) := by
  obtain ⟨name, value⟩ := m
  cases name with
  | none => cases h
  | some name =>
    rw [pickMembers, bind_eq_ok] at h
    obtain ⟨others, read, h⟩ := h
    refine ⟨name, others, rfl, read, ?_⟩
    by_cases known : name ∈ names
    · rw [if_neg (not_not_intro known)] at h
      split at h
      · cases h
      · rename_i absent
        cases h
        exact .inr ⟨known, Option.not_isSome_iff_eq_none.mp absent, rfl⟩
    · rw [if_pos known] at h
      cases h
      exact .inl ⟨known, rfl⟩

theorem lookup_of_pickMembers {members : List (Option String × Json)} {fields : Fields}
    (h : pickMembers names members = .ok fields) (other : String) :
    fields.lookup other = if other ∈ names then members.lookup (some other) else none := by
  induction members generalizing fields with
  | nil =>
    cases h
    simp
  | cons m members ih =>
    obtain ⟨_, value⟩ := m
    obtain ⟨name, others, named, read, picked⟩ := pickMembers_cons_eq_ok h
    cases named
    simp only [lookup_cons_eq_ite, Option.some.injEq]
    rcases picked with ⟨unknown, rfl⟩ | ⟨known, -, rfl⟩
    · rw [ih read]
      by_cases found : other = name
      · subst found
        rw [if_neg unknown, if_neg unknown]
      · rw [if_neg found]
    · rw [lookup_cons_eq_ite, ih read]
      by_cases found : other = name
      · subst found
        rw [if_pos rfl, if_pos rfl, if_pos known]
      · rw [if_neg found, if_neg found]

theorem lookup_of_mem_pickMembers {members : List (Option String × Json)} {fields : Fields}
    {value : Json} (h : pickMembers names members = .ok fields) (known : name ∈ names)
    (member : (some name, value) ∈ members) : fields.lookup name = some value := by
  induction members generalizing fields with
  | nil => cases member
  | cons m members ih =>
    obtain ⟨_, other⟩ := m
    obtain ⟨first, others, named, read, picked⟩ := pickMembers_cons_eq_ok h
    cases named
    rcases List.mem_cons.mp member with same | member
    · cases same
      rcases picked with ⟨unknown, -⟩ | ⟨-, -, rfl⟩
      · exact absurd known unknown
      · exact List.lookup_cons_self
    · have found := ih read member
      rcases picked with ⟨-, rfl⟩ | ⟨-, single, rfl⟩
      · exact found
      · have apart : name ≠ first := by
          rintro rfl
          cases single.symm.trans found
        rw [lookup_cons_eq_ite, if_neg apart, found]

/-- One member more, with a name that no other has, is one field more. -/
theorem pickMembers_insert (value : Json) (known : name ∈ names)
    (single : ∀ m ∈ before ++ after, m.1 ≠ some name) :
    (∃ e, pickMembers names (before ++ after) = .error e ∧
        pickMembers names (before ++ (some name, value) :: after) = .error e) ∨
      ∃ fields gs, pickMembers names (before ++ after) = .ok fields ∧
        pickMembers names (before ++ (some name, value) :: after) = .ok gs ∧
        fields.lookup name = none ∧
        ∀ other, gs.lookup other = if other = name then some value else fields.lookup other := by
  induction before with
  | nil =>
    have absent : after.lookup (some name) = none := by
      rw [List.lookup_eq_none_iff]
      exact fun m member => bne_iff_ne.mpr (single m member).symm
    rw [List.nil_append, List.nil_append, pickMembers]
    cases read : pickMembers names after with
    | error e => exact .inl ⟨e, rfl, rfl⟩
    | ok fields =>
      have none : fields.lookup name = none := by
        rw [lookup_of_pickMembers read, absent, ite_self]
      simp only [bind, Except.bind]
      rw [if_neg (not_not_intro known), none]
      exact .inr ⟨fields, _, rfl, rfl, none, fun other => lookup_cons_eq_ite ..⟩
  | cons m before ih =>
    obtain ⟨first, other⟩ := m
    cases first with
    | none => exact .inl ⟨_, rfl, rfl⟩
    | some first =>
      have apart : first ≠ name := fun h =>
        single (some first, other) List.mem_cons_self (congrArg some h)
      rw [List.cons_append, List.cons_append, pickMembers, pickMembers]
      rcases ih fun m member => single m (List.mem_cons_of_mem _ member) with
        ⟨e, read, read'⟩ | ⟨fields, gs, read, read', none, lookups⟩
      · rw [read, read']
        exact .inl ⟨e, rfl, rfl⟩
      · rw [read, read']
        simp only [bind, Except.bind, lookups first, if_neg apart]
        split
        · exact .inr ⟨fields, gs, rfl, rfl, none, lookups⟩
        · split
          · exact .inl ⟨_, rfl, rfl⟩
          · refine .inr ⟨_, _, rfl, rfl, ?_, fun key => ?_⟩
            · rw [lookup_cons_eq_ite, if_neg apart.symm, none]
            · rw [lookup_cons_eq_ite, lookup_cons_eq_ite, lookups key]
              by_cases found : key = first
              · subst found
                rw [if_pos rfl, if_pos rfl, if_neg apart]
              · rw [if_neg found, if_neg found]

theorem withDefault_insert {α : Type} {fields gs : Fields} {value : Json}
    (absent : fields.lookup name = none)
    (lookups : ∀ other, gs.lookup other = if other = name then some value else fields.lookup other)
    {key : String} {decode : Json → Decoded α} {default : α}
    (reads : name = key → decode value = .ok default) :
    gs.withDefault key decode default = fields.withDefault key decode default := by
  rw [Fields.withDefault, Fields.withDefault, lookups]
  by_cases found : key = name
  · subst found
    rw [if_pos rfl, absent]
    exact reads rfl
  · rw [if_neg found]

end

/-! ## Fields -/

section

variable {α : Type} {fields : Fields} {name : String} {decode : Json → Decoded α} {default a : α}

theorem required_eq_ok : fields.required name decode = .ok a ↔
    ∃ j, fields.lookup name = some j ∧ decode j = .ok a := by
  rw [Fields.required]
  cases fields.lookup name <;> simp

theorem withDefault_eq_ok : fields.withDefault name decode default = .ok a ↔
    (fields.lookup name = none ∧ default = a) ∨
      ∃ j, fields.lookup name = some j ∧ decode j = .ok a := by
  rw [Fields.withDefault]
  cases fields.lookup name <;> simp

end

/-! ## Maps -/

/-- The entries of a map are read off its members, one by one. -/
theorem asEntries_eq_ok {κ ν : Type} {key : String → Decoded κ} {value : Json → Decoded ν}
    {j : Json} {entries : List (κ × ν)} :
    j.asEntries key value = .ok entries ↔ ∃ members, j = .obj members ∧
      List.Forall₂ (fun m e => ∃ name, m.1 = some name ∧ key name = .ok e.1 ∧ value m.2 = .ok e.2)
        members entries := by
  constructor
  · intro read
    cases j with
    | obj members =>
      refine ⟨members, rfl, ?_⟩
      rw [asEntries] at read
      induction members generalizing entries with
      | nil =>
        cases read
        exact .nil
      | cons m members ih =>
        obtain ⟨name, value⟩ := m
        rw [List.mapM_cons, bind_eq_ok] at read
        obtain ⟨⟨k, v⟩, first, read⟩ := read
        obtain ⟨rest, others, read⟩ := bind_eq_ok.mp read
        cases read
        refine .cons ?_ (ih others)
        cases name with
        | none => cases first
        | some name =>
          obtain ⟨_, named, first⟩ := bind_eq_ok.mp first
          obtain ⟨_, valued, first⟩ := bind_eq_ok.mp first
          cases first
          exact ⟨name, rfl, named, valued⟩
    | null | bool | int | real | str | garbled | arr => cases read
  · rintro ⟨members, rfl, read⟩
    rw [asEntries]
    induction read with
    | nil => rfl
    | @cons m e members entries first _ ih =>
      obtain ⟨name, rfl', named, valued⟩ := first
      obtain ⟨_, value⟩ := m
      cases rfl'
      rw [List.mapM_cons, ih]
      simp only [named, valued]
      rfl

/-- A map whose values are made of others is read as one with these. -/
theorem asEntries_map {κ ν μ : Type} {key : String → Decoded κ} {value : Json → Decoded ν}
    {f : ν → μ} {j : Json} {entries : List (κ × μ)}
    (h : j.asEntries key (fun j => (value j).map f) = .ok entries) :
    ∃ others, j.asEntries key value = .ok others ∧
      entries = others.map fun e => (e.1, f e.2) := by
  obtain ⟨members, rfl, read⟩ := asEntries_eq_ok.mp h
  suffices ∃ others : List (κ × ν), List.Forall₂ (fun m e => ∃ name, m.1 = some name ∧
      key name = .ok e.1 ∧ value m.2 = .ok e.2) members others ∧
      entries = others.map fun e => (e.1, f e.2) by
    obtain ⟨others, read, same⟩ := this
    exact ⟨others, asEntries_eq_ok.mpr ⟨members, rfl, read⟩, same⟩
  clear h
  induction read with
  | nil => exact ⟨[], .nil, rfl⟩
  | @cons m e _ _ first _ ih =>
    obtain ⟨others, read, rfl⟩ := ih
    obtain ⟨name, named, keyed, valued⟩ := first
    obtain ⟨v, held, same⟩ := map_eq_ok.mp valued
    refine ⟨(e.1, v) :: others, .cons ⟨name, named, keyed, held⟩ read, ?_⟩
    rw [List.map_cons, same]

theorem value_of_mem_entries {κ ν : Type} {key : String → Decoded κ} {value : Json → Decoded ν}
    {j : Json} {entries : List (κ × ν)} (h : j.asEntries key value = .ok entries) {e : κ × ν}
    (member : e ∈ entries) : ∃ j, value j = .ok e.2 := by
  obtain ⟨members, -, read⟩ := asEntries_eq_ok.mp h
  clear h
  induction read with
  | nil => cases member
  | @cons m _ _ _ first _ ih =>
    rcases List.mem_cons.mp member with rfl | member
    · obtain ⟨_, -, -, valued⟩ := first
      exact ⟨m.2, valued⟩
    · exact ih member

end StackMachine.Json
