import StackMachine.Proofs.Records
import StackMachine.Proofs.Regions

/-!
# Configurations as documents

The form of a configuration is read as that configuration, so whatever is read has a form of its own
that is read alike (`Config.json_normal_form`). Members that a configuration, a schedule or a policy
does not know make no difference, as far as they can be held, and neither does a part that is left
out if it has its default.
-/

namespace StackMachine

open Json (Decoded Extends)

/-! ## Numbers -/

namespace Json

theorem asUInt64_toNat (n : UInt64) : (Json.int n.toNat).asUInt64 = .ok n := by
  have below := n.toNat_lt
  have range : (0 : Int) ≤ n.toNat ∧ (n.toNat : Int) ≤ maxInteger := by
    rw [maxInteger]
    omega
  rw [asUInt64, asInt, if_pos range]
  simp [Except.map]

theorem asInt32_toInt (n : Int32) : (Json.int n.toInt).asInt32 = .ok n := by
  have low := n.le_toInt
  have high := n.toInt_lt
  have range : -0x80000000 ≤ n.toInt ∧ n.toInt ≤ 0x7fffffff := by omega
  rw [asInt32, asInt, if_pos range]
  simp [Except.map]

/-! ## Parts with a kind -/

/-- A member that can be added to the members of a part: it is not the kind and none of the fields
that the kind has, and it can be held. -/
structure IsStray (fieldsOf : String → List String) (members : List (Option String × Json))
    (name : String) (value : Json) : Prop where
  ne_kind : name ≠ "kind"
  unknown : ∀ kind, (some "kind", .str kind) ∈ members → name ∉ fieldsOf kind
  held : value.isHeldWithin (maxPartNesting - 1) = true

/-- A schedule or policy as it is, or with members added that it does not know. -/
inductive PartExtends (fieldsOf : String → List String) : Json → Json → Prop where
  | refl (part : Json) : PartExtends fieldsOf part part
  | members {members others : List (Option String × Json)}
      (h : Extends (IsStray fieldsOf members) (fun _ v w => w = v) members others) :
      PartExtends fieldsOf (.obj members) (.obj others)

theorem asText_eq_ok {j : Json} {s : String} : j.asText = .ok s ↔ j = .str s := by
  cases j <;> simp [asText]

theorem kinded_obj (members : List (Option String × Json)) :
    (Json.obj members).kinded =
      if membersHeldWithin (maxPartNesting - 1) members then
        splitKind members >>= fun split => split.1.asText.map fun kind => (kind, .obj split.2)
      else .error .notHeld := by
  have held : (Json.obj members).isHeldWithin maxPartNesting
      = membersHeldWithin (maxPartNesting - 1) members := rfl
  rw [kinded, held]
  split
  · cases splitKind members with
    | error e => rfl
    | ok split =>
      obtain ⟨kind, rest⟩ := split
      cases h : kind.asText <;> simp [bind, Except.bind, Except.map, h, pure, Except.pure]
  · rfl

theorem kinded_of_not_held {members : List (Option String × Json)} {m : Option String × Json}
    (member : m ∈ members) (loose : m.2.isHeldWithin (maxPartNesting - 1) = false) :
    (Json.obj members).kinded = .error .notHeld := by
  have unheld : ¬ membersHeldWithin (maxPartNesting - 1) members = true := by
    rw [membersHeldWithin_eq, List.all_eq_true]
    intro all
    have held := (Bool.and_eq_true_iff.mp (all m member)).2
    rw [loose] at held
    cases held
  rw [kinded_obj, if_neg unheld]

/-- The kind of a part and the fields of that kind are found alike. -/
theorem kinded_extends {fieldsOf : String → List String} {part other : Json}
    (h : PartExtends fieldsOf part other) :
    (∃ e, part.kinded = .error e ∧ other.kinded = .error e) ∨
      ∃ kind rest rest', part.kinded = .ok (kind, rest) ∧ other.kinded = .ok (kind, rest') ∧
        rest'.fields (fieldsOf kind) = rest.fields (fieldsOf kind) ∧
        rest'.noFields = rest.noFields := by
  cases h with
  | refl =>
    cases part.kinded with
    | error e => exact .inl ⟨e, rfl, rfl⟩
    | ok read => exact .inr ⟨_, _, _, rfl, rfl, rfl, rfl⟩
  | @members members others h =>
    have held := h.held_eq fun _ _ stray => stray.held
    rw [kinded_obj, kinded_obj, held]
    split
    · rcases splitKind_extends h fun _ _ stray => stray.ne_kind with
        ⟨e, found, found'⟩ | ⟨kind, rest, rest', found, found', beside⟩
      · rw [found, found']
        exact .inl ⟨e, rfl, rfl⟩
      · rw [found, found']
        simp only [bind, Except.bind]
        cases named : kind.asText with
        | error e => exact .inl ⟨e, rfl, rfl⟩
        | ok name =>
          rw [asText_eq_ok.mp named] at found
          refine .inr ⟨name, _, _, rfl, rfl, ?_, rfl⟩
          refine pickMembers_eq_of_extends beside fun _ _ stray => ?_
          exact stray.unknown name (mem_of_splitKind found)
    · exact .inl ⟨_, rfl, rfl⟩

end Json

/-! ## Schedules and policies -/

namespace GasSchedule

/-- The fields that a schedule has besides its kind. -/
def fieldsOf : String → List String
  | "uniform" => ["per_instruction"]
  | _ => []

theorem ofJson_toJson (s : GasSchedule) : ofJson s.toJson = .ok s := by
  cases s with
  | tiered => rfl
  | uniform perInstruction =>
    show (Json.asUInt64 (.int perInstruction.toNat)).map uniform = _
    rw [Json.asUInt64_toNat]
    rfl

theorem ofJson_extends {part other : Json} (h : Json.PartExtends fieldsOf part other) :
    ofJson other = ofJson part := by
  rcases Json.kinded_extends h with ⟨e, read, read'⟩ | ⟨kind, rest, rest', read, read', same, bare⟩
  · rw [ofJson, ofJson, read, read']
  · simp only [ofJson, read, read', bind, Except.bind, bare]
    split
    case h_1 =>
      have fields : rest'.fields ["per_instruction"] = rest.fields ["per_instruction"] := same
      rw [fields]
    all_goals rfl

end GasSchedule

namespace MemoryPolicy

/-- The fields that a policy has besides its kind. -/
def fieldsOf : String → List String
  | "linear" => ["per_word"]
  | _ => []

theorem ofJson_toJson (p : MemoryPolicy) : ofJson p.toJson = .ok p := by
  cases p with
  | free => rfl
  | quadratic => rfl
  | linear perWord =>
    show (Json.asUInt64 (.int perWord.toNat)).map linear = _
    rw [Json.asUInt64_toNat]
    rfl

theorem ofJson_extends {part other : Json} (h : Json.PartExtends fieldsOf part other) :
    ofJson other = ofJson part := by
  rcases Json.kinded_extends h with ⟨e, read, read'⟩ | ⟨kind, rest, rest', read, read', same, bare⟩
  · rw [ofJson, ofJson, read, read']
  · simp only [ofJson, read, read', bind, Except.bind, bare]
    split
    case h_2 =>
      have fields : rest'.fields ["per_word"] = rest.fields ["per_word"] := same
      rw [fields]
    all_goals rfl

end MemoryPolicy

/-! ## Configurations -/

namespace Config

/-- A configuration from the fields of its record. -/
def ofFields (fields : Json.Fields) : Decoded Config := do
  let gasSchedule ← fields.withDefault "gas_schedule" GasSchedule.ofJson default.gasSchedule
  let maxCallDepth ← fields.withDefault "max_call_depth" Json.asInt32 default.maxCallDepth
  let maxMemorySize ← fields.withDefault "max_memory_size" Json.asUInt64 default.maxMemorySize
  let memoryPolicy ← fields.withDefault "memory_cost" MemoryPolicy.ofJson default.memoryPolicy
  let verbosity ← fields.withDefault "verbosity" verbosityOfJson default.verbosity
  return ⟨verbosity, gasSchedule, memoryPolicy, maxMemorySize, maxCallDepth⟩

theorem ofJson_obj (members : List (Option String × Json)) :
    ofJson (.obj members) = Json.pickMembers fieldNames members >>= ofFields := rfl

theorem ofJson_arr (first : Json) (items : List Json) :
    ofJson (.arr (first :: items)) = (do
      let _ ← verbosityOfJson first
      (Json.arr (first :: items)).fields fieldNames >>= ofFields) := rfl

theorem ofJson_toJson {c : Config} (range : isVerbosity c.verbosity = true) :
    ofJson c.toJson = .ok c := by
  have small : -128 ≤ c.verbosity ∧ c.verbosity ≤ 127 := by
    rw [isVerbosity, decide_eq_true_eq, minVerbosity, maxVerbosity] at range
    omega
  have verbosity : verbosityOfJson (.int c.verbosity) = .ok c.verbosity := by
    simp only [verbosityOfJson, Json.asInt, if_pos small, bind, Except.bind, range]
    rfl
  have read : ofJson c.toJson = (do
      let gasSchedule ← GasSchedule.ofJson c.gasSchedule.toJson
      let maxCallDepth ← Json.asInt32 (.int c.maxCallDepth.toInt)
      let maxMemorySize ← Json.asUInt64 (.int c.maxMemorySize.toNat)
      let memoryPolicy ← MemoryPolicy.ofJson c.memoryPolicy.toJson
      let verbosity ← verbosityOfJson (.int c.verbosity)
      return ⟨verbosity, gasSchedule, memoryPolicy, maxMemorySize, maxCallDepth⟩) := rfl
  rw [read, GasSchedule.ofJson_toJson, Json.asInt32_toInt, Json.asUInt64_toNat,
    MemoryPolicy.ofJson_toJson, verbosity]
  rfl

theorem isVerbosity_of_verbosityOfJson {j : Json} {v : Int} (h : verbosityOfJson j = .ok v) :
    isVerbosity v = true := by
  obtain ⟨w, -, judged⟩ := bind_eq_ok.mp h
  by_cases range : isVerbosity w = true
  · rw [if_pos range] at judged
    cases judged
    exact range
  · rw [if_neg range] at judged
    cases judged

theorem isVerbosity_of_ofFields {fields : Json.Fields} {c : Config} (h : ofFields fields = .ok c) :
    isVerbosity c.verbosity = true := by
  obtain ⟨_, -, h⟩ := bind_eq_ok.mp h
  obtain ⟨_, -, h⟩ := bind_eq_ok.mp h
  obtain ⟨_, -, h⟩ := bind_eq_ok.mp h
  obtain ⟨_, -, h⟩ := bind_eq_ok.mp h
  obtain ⟨v, verbosity, h⟩ := bind_eq_ok.mp h
  cases h
  rw [Json.Fields.withDefault] at verbosity
  split at verbosity
  · exact isVerbosity_of_verbosityOfJson verbosity
  · cases verbosity
    rfl

theorem fields_of_ofJson {j : Json} {c : Config} (h : ofJson j = .ok c) :
    ∃ fields, j.fields fieldNames = .ok fields ∧ ofFields fields = .ok c := by
  rw [ofJson.eq_def] at h
  split at h
  · obtain ⟨_, -, h⟩ := bind_eq_ok.mp h
    exact bind_eq_ok.mp h
  · exact bind_eq_ok.mp h

theorem isVerbosity_of_ofJson {j : Json} {c : Config} (h : ofJson j = .ok c) :
    isVerbosity c.verbosity = true := by
  obtain ⟨_, -, read⟩ := fields_of_ofJson h
  exact isVerbosity_of_ofFields read

/-! ### Added members -/

/-- What a member may be replaced with: a schedule or a policy with one that has more members. -/
inductive MemberExtends (name : Option String) : Json → Json → Prop where
  | same (value : Json) : MemberExtends name value value
  | schedule {part other : Json} (named : name = some "gas_schedule")
      (h : Json.PartExtends GasSchedule.fieldsOf part other) : MemberExtends name part other
  | policy {part other : Json} (named : name = some "memory_cost")
      (h : Json.PartExtends MemoryPolicy.fieldsOf part other) : MemberExtends name part other

/-- A document to which members have been added that a configuration does not know, or its schedule
or its policy. -/
inductive DocumentExtends : Json → Json → Prop where
  | members {members others : List (Option String × Json)}
      (h : Extends (fun name _ => name ∉ fieldNames) MemberExtends members others) :
      DocumentExtends (.obj members) (.obj others)
  | schedule {verbosity part other : Json} {items : List Json}
      (h : Json.PartExtends GasSchedule.fieldsOf part other) :
      DocumentExtends (.arr (verbosity :: part :: items)) (.arr (verbosity :: other :: items))
  | policy {verbosity schedule part other : Json} {items : List Json}
      (h : Json.PartExtends MemoryPolicy.fieldsOf part other) :
      DocumentExtends (.arr (verbosity :: schedule :: part :: items))
        (.arr (verbosity :: schedule :: other :: items))

theorem ofFields_alike {fields gs : Json.Fields} (h : Json.FieldsAlike MemberExtends fields gs) :
    ofFields gs = ofFields fields := by
  have schedule : gs.withDefault "gas_schedule" GasSchedule.ofJson default.gasSchedule
      = fields.withDefault "gas_schedule" GasSchedule.ofJson default.gasSchedule := by
    refine h.withDefault_eq fun _ _ alike => ?_
    cases alike with
    | same => rfl
    | schedule _ h => exact GasSchedule.ofJson_extends h
    | policy named _ => simp at named
  have policy : gs.withDefault "memory_cost" MemoryPolicy.ofJson default.memoryPolicy
      = fields.withDefault "memory_cost" MemoryPolicy.ofJson default.memoryPolicy := by
    refine h.withDefault_eq fun _ _ alike => ?_
    cases alike with
    | same => rfl
    | schedule named _ => simp at named
    | policy _ h => exact MemoryPolicy.ofJson_extends h
  have others {α : Type} (name : String) (decode : Json → Decoded α) (default : α)
      (plain : name ≠ "gas_schedule" ∧ name ≠ "memory_cost") :
      gs.withDefault name decode default = fields.withDefault name decode default := by
    refine h.withDefault_eq fun _ _ alike => ?_
    cases alike with
    | same => rfl
    | schedule named _ => exact absurd (Option.some.inj named) plain.1
    | policy named _ => exact absurd (Option.some.inj named) plain.2
  rw [ofFields, schedule, policy, others "verbosity" _ _ (by decide),
    others "max_memory_size" _ _ (by decide), others "max_call_depth" _ _ (by decide)]
  rfl

theorem fieldsAlike_refl (fields : Json.Fields) : Json.FieldsAlike MemberExtends fields fields :=
  List.forall₂_same.mpr fun _ _ => ⟨rfl, .same _⟩

/-- The first item of an array is judged by itself, and then all of them as fields. -/
theorem ofJson_items {first : Json} {items others : List Json}
    (size : others.length = items.length)
    (alike : Json.FieldsAlike MemberExtends (fieldNames.zip (first :: items))
      (fieldNames.zip (first :: others))) :
    ofJson (.arr (first :: others)) = ofJson (.arr (first :: items)) := by
  rw [ofJson_arr, ofJson_arr, Json.fields, Json.fields, List.length_cons, List.length_cons, size]
  split
  · show (_ >>= fun _ => ofFields _) = _ >>= fun _ => ofFields _
    rw [ofFields_alike alike]
  · rfl

/-- Members that nothing is read of make no difference. -/
theorem ofJson_extends {j other : Json} (h : DocumentExtends j other) : ofJson other = ofJson j := by
  cases h with
  | members h =>
    rw [ofJson_obj, ofJson_obj]
    rcases Json.pickMembers_extends h fun _ _ strange => strange with
      ⟨e, read, read'⟩ | ⟨fields, gs, read, read', alike⟩
    · rw [read, read']
    · rw [read, read']
      exact ofFields_alike alike
  | schedule h =>
    exact ofJson_items rfl
      (.cons ⟨rfl, .same _⟩ (.cons ⟨rfl, .schedule rfl h⟩ (fieldsAlike_refl _)))
  | policy h =>
    exact ofJson_items rfl
      (.cons ⟨rfl, .same _⟩ (.cons ⟨rfl, .same _⟩ (.cons ⟨rfl, .policy rfl h⟩ (fieldsAlike_refl _))))

/-! ### Members left out -/

/-- The value of a part is the one that the part has by default. -/
structure HasDefault (name : String) (value : Json) : Prop where
  known : name ∈ fieldNames
  verbosity : name = "verbosity" → verbosityOfJson value = .ok default.verbosity
  gasSchedule : name = "gas_schedule" → GasSchedule.ofJson value = .ok default.gasSchedule
  memoryPolicy : name = "memory_cost" → MemoryPolicy.ofJson value = .ok default.memoryPolicy
  maxMemorySize : name = "max_memory_size" → value.asUInt64 = .ok default.maxMemorySize
  maxCallDepth : name = "max_call_depth" → value.asInt32 = .ok default.maxCallDepth

/-- A part with its default can as well be left out. -/
theorem ofJson_insert {name : String} {value : Json} {before after : List (Option String × Json)}
    (h : HasDefault name value) (single : ∀ m ∈ before ++ after, m.1 ≠ some name) :
    ofJson (.obj (before ++ (some name, value) :: after)) = ofJson (.obj (before ++ after)) := by
  rw [ofJson_obj, ofJson_obj]
  rcases Json.pickMembers_insert value h.known single with
    ⟨e, read, read'⟩ | ⟨fields, gs, read, read', absent, lookups⟩
  · rw [read, read']
  · have same {α : Type} {key : String} {decode : Json → Decoded α} {default : α}
        (reads : name = key → decode value = .ok default) :
        gs.withDefault key decode default = fields.withDefault key decode default :=
      Json.withDefault_insert absent lookups reads
    rw [read, read']
    show ofFields gs = ofFields fields
    rw [ofFields, same h.gasSchedule, same h.maxCallDepth, same h.maxMemorySize,
      same h.memoryPolicy, same h.verbosity]
    rfl

/-! ### Parts that cannot be held -/

/-- A schedule or a policy that stands in a document: a member of an object, by its name, or an item
of an array, by its place. -/
inductive HasPart : Json → Json → Prop where
  | schedule {members : List (Option String × Json)} {part : Json}
      (member : (some "gas_schedule", part) ∈ members) : HasPart (.obj members) part
  | policy {members : List (Option String × Json)} {part : Json}
      (member : (some "memory_cost", part) ∈ members) : HasPart (.obj members) part
  | scheduleItem {verbosity part : Json} {items : List Json} :
      HasPart (.arr (verbosity :: part :: items)) part
  | policyItem {verbosity schedule part : Json} {items : List Json} :
      HasPart (.arr (verbosity :: schedule :: part :: items)) part

theorem HasPart.lookup {document part : Json} {fields : Json.Fields} (h : HasPart document part)
    (read : document.fields fieldNames = .ok fields) :
    fields.lookup "gas_schedule" = some part ∨ fields.lookup "memory_cost" = some part := by
  cases h with
  | schedule member => exact .inl (Json.lookup_of_mem_pickMembers read (by decide) member)
  | policy member => exact .inr (Json.lookup_of_mem_pickMembers read (by decide) member)
  | scheduleItem =>
    rw [Json.fields] at read
    split at read
    · cases read
      exact .inl rfl
    · cases read
  | policyItem =>
    rw [Json.fields] at read
    split at read
    · cases read
      exact .inr rfl
    · cases read

/-- If a document is read, its parts are. -/
theorem HasPart.read {document part : Json} {c : Config} (h : HasPart document part)
    (read : ofJson document = .ok c) :
    (∃ s, GasSchedule.ofJson part = .ok s) ∨ ∃ p, MemoryPolicy.ofJson part = .ok p := by
  obtain ⟨fields, picked, read⟩ := fields_of_ofJson read
  obtain ⟨s, schedule, read⟩ := bind_eq_ok.mp read
  obtain ⟨_, -, read⟩ := bind_eq_ok.mp read
  obtain ⟨_, -, read⟩ := bind_eq_ok.mp read
  obtain ⟨p, policy, -⟩ := bind_eq_ok.mp read
  rcases h.lookup picked with found | found
  · rw [Json.Fields.withDefault, found] at schedule
    exact .inl ⟨s, schedule⟩
  · rw [Json.Fields.withDefault, found] at policy
    exact .inr ⟨p, policy⟩

theorem ofJson_error_of_not_held {members : List (Option String × Json)}
    {m : Option String × Json} (member : m ∈ members)
    (loose : m.2.isHeldWithin (Json.maxPartNesting - 1) = false) :
    GasSchedule.ofJson (.obj members) = .error .notHeld ∧
      MemoryPolicy.ofJson (.obj members) = .error .notHeld ∧
      ∀ document, HasPart document (.obj members) → ∃ e, ofJson document = .error e := by
  have unheld := Json.kinded_of_not_held member loose
  have schedule : GasSchedule.ofJson (.obj members) = .error .notHeld := by
    rw [GasSchedule.ofJson, unheld]
    rfl
  have policy : MemoryPolicy.ofJson (.obj members) = .error .notHeld := by
    rw [MemoryPolicy.ofJson, unheld]
    rfl
  refine ⟨schedule, policy, fun document stands => ?_⟩
  cases read : ofJson document with
  | error e => exact ⟨e, rfl⟩
  | ok c =>
    rcases stands.read read with ⟨_, found⟩ | ⟨_, found⟩
    · rw [schedule] at found
      cases found
    · rw [policy] at found
      cases found

/-! ### The normal form -/

/-- A configuration with a verbosity that a machine can have is read from its form, and no other
configuration is read from any document: so forming and reading again changes nothing. Nor do
members that nothing is read of, or parts that have their default. But what stands in a schedule or
policy has to be held until its kind is known: if a member cannot be, neither the part is read nor
any document in which it stands. -/
theorem json_normal_form :
    (∀ c : Config, -1 ≤ c.verbosity ∧ c.verbosity ≤ 9 → ofJson c.toJson = .ok c) ∧
      (∀ (j : Json) (c : Config), ofJson j = .ok c →
        (-1 ≤ c.verbosity ∧ c.verbosity ≤ 9) ∧ ofJson c.toJson = .ok c) ∧
      (∀ j other : Json, DocumentExtends j other → ofJson other = ofJson j) ∧
      (∀ (name : String) (value : Json) (before after : List (Option String × Json)),
        HasDefault name value → (∀ m ∈ before ++ after, m.1 ≠ some name) →
          ofJson (.obj (before ++ (some name, value) :: after)) = ofJson (.obj (before ++ after))) ∧
      ∀ members : List (Option String × Json),
        (∃ m ∈ members, m.2.isHeldWithin (Json.maxPartNesting - 1) = false) →
          GasSchedule.ofJson (.obj members) = .error .notHeld ∧
            MemoryPolicy.ofJson (.obj members) = .error .notHeld ∧
            ∀ document, HasPart document (.obj members) → ∃ e, ofJson document = .error e := by
  have range {v : Int} : isVerbosity v = true ↔ -1 ≤ v ∧ v ≤ 9 := by
    rw [isVerbosity, decide_eq_true_eq]
    rfl
  refine ⟨fun c inside => ofJson_toJson (range.mpr inside), fun j c read => ?_,
    fun j other h => ofJson_extends h, fun name value before after h single =>
      ofJson_insert h single, fun _ ⟨_, member, loose⟩ => ofJson_error_of_not_held member loose⟩
  have inside := isVerbosity_of_ofJson read
  exact ⟨range.mp inside, ofJson_toJson inside⟩

/-- The largest numbers are read again, a schedule and its document may have more members, one of
them with text that denotes nothing, and the verbosity can be left out. -/
theorem json_normal_form_extended :
    let c : Config := ⟨9, .uniform 0xffffffffffffffff, .linear 0xffffffffffffffff,
      0xffffffffffffffff, -0x80000000⟩
    let part : Json := .obj [(some "kind", .str "tiered")]
    let wider : Json := .obj [(some "per_instruction", .null), (some "kind", .str "tiered")]
    let loose : Json := .obj [(some "kind", .str "tiered"), (some "x", .garbled)]
    let document : Json := .obj [(some "gas_schedule", part)]
    let extended : Json := .obj [(some "x", .garbled), (some "gas_schedule", wider)]
    let tiered : Config := { default with gasSchedule := .tiered }
    ((-1 ≤ c.verbosity ∧ c.verbosity ≤ 9) ∧ ofJson c.toJson = .ok c) ∧
      (ofJson document = .ok tiered ∧ ofJson tiered.toJson = .ok tiered) ∧
      (DocumentExtends document extended ∧ ofJson extended = .ok tiered) ∧
      (HasDefault "verbosity" (.int 0) ∧
        ofJson (.obj [(some "verbosity", .int 0), (some "gas_schedule", part)]) = .ok tiered) ∧
      (GasSchedule.ofJson loose = .error .notHeld ∧
        ∃ e, ofJson (.obj [(some "gas_schedule", loose)]) = .error e) := by
  intro c part wider loose document extended tiered
  obtain ⟨forms, normal, extends', insert, unheld⟩ := json_normal_form
  have read : ofJson document = .ok tiered := by decide +kernel
  have stray : Json.IsStray GasSchedule.fieldsOf [(some "kind", .str "tiered")] "per_instruction"
      .null := by
    refine ⟨by decide, fun kind member => ?_, rfl⟩
    rcases List.mem_singleton.mp member with ⟨rfl⟩
    decide
  have extension : DocumentExtends document extended :=
    .members (.add (by decide) (.keep (.schedule rfl (.members (.add stray (.refl _)))) .nil))
  have zero : HasDefault "verbosity" (.int 0) :=
    ⟨by decide, fun _ => rfl, by decide, by decide, by decide, by decide⟩
  refine ⟨⟨by decide, forms c (by decide)⟩, ⟨read, (normal document tiered read).2⟩,
    ⟨extension, (extends' _ _ extension).trans read⟩, ⟨zero, ?_⟩, ?_⟩
  · have single : ∀ m ∈ [(some "gas_schedule", part)], m.1 ≠ some "verbosity" := by
      intro m member
      rw [List.mem_singleton.mp member]
      decide
    exact (insert "verbosity" (.int 0) [] _ zero single).trans read
  · obtain ⟨schedule, -, rejected⟩ := unheld [(some "kind", .str "tiered"), (some "x", .garbled)]
      ⟨(some "x", .garbled), by simp, rfl⟩
    exact ⟨schedule, rejected _ (.schedule List.mem_cons_self)⟩

/-- A number beyond the doubles, of which nothing is read, stands between a document and its
schedule. -/
theorem json_normal_form_unheld :
    ofText "\x7b\"gas_schedule\":\x7b\"kind\":\"tiered\"\x7d\x7d"
        = .ok { default with gasSchedule := .tiered } ∧
      ofText "\x7b\"gas_schedule\":\x7b\"kind\":\"tiered\",\"x\":1e309\x7d\x7d"
        = .error .notHeld := by
  decide +kernel

end Config

end StackMachine
