import StackMachine.Frame.Perform

/-!
# Regions of memory and their price

When operands name regions, where regions end, and what settling them does to memory and to the
meter: `Frame.settle_eq_ok` says when it succeeds, `Frame.gas_of_settle` that its price depends on
sizes alone.
-/

namespace StackMachine

/-! ## Sequences of steps that can fail -/

theorem bind_eq_ok {ε α β : Type} {x : Except ε α} {k : α → Except ε β} {b : β} :
    (x >>= k) = .ok b ↔ ∃ a, x = .ok a ∧ k a = .ok b := by
  cases x <;> simp [bind, Except.bind]

theorem bind_eq_error {ε α β : Type} {x : Except ε α} {k : α → Except ε β} {e : ε} :
    (x >>= k) = .error e ↔ x = .error e ∨ ∃ a, x = .ok a ∧ k a = .error e := by
  cases x <;> simp [bind, Except.bind]

theorem map_eq_ok {ε α β : Type} {x : Except ε α} {f : α → β} {b : β} :
    x.map f = .ok b ↔ ∃ a, x = .ok a ∧ f a = b := by
  cases x <;> simp [Except.map]

theorem map_eq_error {ε α β : Type} {x : Except ε α} {f : α → β} {e : ε} :
    x.map f = .error e ↔ x = .error e := by
  cases x <;> simp [Except.map]

/-! ## The meter -/

namespace GasMeter

/-- The meter with an amount taken off. -/
def less (m : GasMeter) (amount : Nat) : GasMeter :=
  { m with remaining := m.remaining - amount }

@[simp] theorem less_remaining (m : GasMeter) (amount : Nat) :
    (m.less amount).remaining = m.remaining - amount := rfl

@[simp] theorem less_zero (m : GasMeter) : m.less 0 = m := by
  simp [less]

theorem less_less (m : GasMeter) (first second : Nat) :
    (m.less first).less second = m.less (first + second) := by
  simp only [less, GasMeter.mk.injEq, true_and]
  omega

theorem charge_eq_ok {m n : GasMeter} {amount : Nat} :
    m.charge amount = .ok n ↔ (amount : Int) ≤ m.remaining ∧ n = m.less amount := by
  by_cases h : (amount : Int) ≤ m.remaining <;> simp [charge, less, h, eq_comm]

theorem charge_eq_error {m : GasMeter} {amount : Nat} {error : VmError} :
    m.charge amount = .error error ↔ m.remaining < amount ∧ error = .outOfGas := by
  by_cases h : (amount : Int) ≤ m.remaining
  · simp [charge, h, Int.not_lt.mpr h]
  · simp [charge, h, Int.not_le.mp h, eq_comm]

end GasMeter

/-! ## Regions -/

namespace Region

theorem position_eq_ok {w : Word} {n : Nat} :
    position w = .ok n ↔ w.toNat < sizeLimit ∧ n = w.toNat := by
  by_cases h : w.toNat < sizeLimit <;> simp [position, Word.toSize?, h, eq_comm]

theorem position_eq_error {w : Word} {error : VmError} :
    position w = .error error ↔ sizeLimit ≤ w.toNat ∧ error = .memoryBoundsExceeded := by
  by_cases h : w.toNat < sizeLimit
  · simp [position, Word.toSize?, h, Nat.not_le.mpr h]
  · simp [position, Word.toSize?, h, Nat.not_lt.mp h, eq_comm]

/-- Operands name a region if it is empty or both of them are sizes. -/
theorem ofOperands_eq_ok {offset len : Word} {region : Option Region} :
    ofOperands offset len = .ok region ↔
      len = 0 ∧ region = none ∨
      len ≠ 0 ∧ len.toNat < sizeLimit ∧ offset.toNat < sizeLimit ∧
        region = some ⟨offset.toNat, len.toNat⟩ := by
  by_cases hz : len = 0
  · simp only [ofOperands, hz, ↓reduceIte, Except.ok.injEq, ne_eq, not_true_eq_false, false_and,
      or_false, true_and]
    exact eq_comm
  · simp only [ofOperands, hz, ↓reduceIte, bind_eq_ok, position_eq_ok, pure, Except.pure,
      Except.ok.injEq, false_and, false_or, ne_eq, not_false_eq_true, true_and]
    constructor
    · rintro ⟨_, ⟨hl, rfl⟩, _, ⟨ho, rfl⟩, rfl⟩
      exact ⟨hl, ho, rfl⟩
    · rintro ⟨hl, ho, rfl⟩
      exact ⟨_, ⟨hl, rfl⟩, _, ⟨ho, rfl⟩, rfl⟩

theorem len_ne_zero_of_ofOperands {offset len : Word} {r : Region}
    (h : ofOperands offset len = .ok (some r)) : r.len ≠ 0 := by
  rcases ofOperands_eq_ok.mp h with ⟨-, hn⟩ | ⟨hz, -, -, hs⟩
  · cases hn
  · cases hs
    exact fun hn => hz (BitVec.eq_of_toNat_eq hn)

/-- Two operands name no region: there are bytes, and one of the operands is no size. -/
def Unnamed (offset len : Word) : Prop :=
  len ≠ 0 ∧ (sizeLimit ≤ len.toNat ∨ sizeLimit ≤ offset.toNat)

theorem ofOperands_eq_error {offset len : Word} {error : VmError} :
    ofOperands offset len = .error error ↔
      Unnamed offset len ∧ error = .memoryBoundsExceeded := by
  by_cases hz : len = 0
  · simp [ofOperands, Unnamed, hz]
  · simp only [ofOperands, Unnamed, hz, ↓reduceIte, bind_eq_error, position_eq_ok,
      position_eq_error, pure, Except.pure, reduceCtorEq, and_false, exists_false, or_false, ne_eq,
      not_false_eq_true, true_and]
    constructor
    · rintro (⟨large, rfl⟩ | ⟨_, ⟨-, rfl⟩, large, rfl⟩)
      · exact ⟨.inl large, rfl⟩
      · exact ⟨.inr large, rfl⟩
    · rintro ⟨large, rfl⟩
      by_cases hl : sizeLimit ≤ len.toNat
      · exact .inl ⟨hl, rfl⟩
      · exact .inr ⟨_, ⟨Nat.not_le.mp hl, rfl⟩, large.resolve_left hl, rfl⟩

theorem position_ok {w : Word} (h : w.toNat < sizeLimit) : position w = .ok w.toNat :=
  position_eq_ok.mpr ⟨h, rfl⟩

/-- Where a region ends, zero if it has no bytes. -/
def stop (r : Region) : Nat :=
  if r.len = 0 then 0 else r.offset + r.len

theorem stop_eq {r : Region} (h : r.len ≠ 0) : r.stop = r.offset + r.len :=
  if_neg h

/-- The end of the furthest of some regions and of the memory. -/
def furthest (m : Memory) (regions : List Region) : Nat :=
  regions.foldr (fun r size => max r.stop size) m.size

theorem furthest_nil (m : Memory) : furthest m [] = m.size := rfl

theorem furthest_cons (m : Memory) (r : Region) (rest : List Region) :
    furthest m (r :: rest) = max r.stop (furthest m rest) := rfl

theorem regionEnd_eq_ok {m : Memory} {r : Region} {n : Nat} :
    m.regionEnd r.offset r.len = .ok n ↔ (r.len = 0 ∨ r.offset + r.len ≤ m.limit) ∧ n = r.stop := by
  by_cases hl : r.len = 0
  · simp [Memory.regionEnd, stop, hl, eq_comm]
  · by_cases hb : r.offset + r.len ≤ m.limit <;> simp [Memory.regionEnd, stop, hl, hb, eq_comm]

theorem reach_eq_ok {m : Memory} {regions : List Region} {size : Nat} :
    reach m regions = .ok size ↔
      (∀ r ∈ regions, r.len = 0 ∨ r.offset + r.len ≤ m.limit) ∧ size = furthest m regions := by
  induction regions generalizing size with
  | nil => simp [reach, furthest, eq_comm]
  | cons r rest ih =>
    simp only [reach, bind_eq_ok, regionEnd_eq_ok, ih, pure, Except.pure, Except.ok.injEq,
      List.forall_mem_cons, furthest, List.foldr_cons]
    constructor
    · rintro ⟨_, ⟨hr, rfl⟩, _, ⟨hrest, rfl⟩, rfl⟩
      exact ⟨⟨hr, hrest⟩, rfl⟩
    · rintro ⟨⟨hr, hrest⟩, rfl⟩
      exact ⟨_, ⟨hr, rfl⟩, _, ⟨hrest, rfl⟩, rfl⟩

theorem reach_error {m : Memory} {regions : List Region} {error : VmError}
    (h : reach m regions = .error error) : error = .memoryBoundsExceeded := by
  induction regions with
  | nil => cases h
  | cons r rest ih =>
    simp only [reach, bind_eq_error, pure, Except.pure, reduceCtorEq, and_false, exists_false,
      or_false] at h
    rcases h with h | ⟨_, -, h⟩
    · unfold Memory.regionEnd at h
      split at h
      · cases h
      · split at h <;> cases h
        rfl
    · exact ih h

theorem size_le_furthest (m : Memory) (regions : List Region) : m.size ≤ furthest m regions := by
  induction regions with
  | nil => exact Nat.le_refl _
  | cons r rest ih => exact Nat.le_trans ih (Nat.le_max_right _ _)

theorem stop_le_furthest (m : Memory) {regions : List Region} {r : Region} (h : r ∈ regions) :
    r.stop ≤ furthest m regions := by
  induction regions with
  | nil => cases h
  | cons s rest ih =>
    rcases List.mem_cons.mp h with rfl | h
    · exact Nat.le_max_left _ _
    · exact Nat.le_trans (ih h) (Nat.le_max_right _ _)

end Region

/-- Bytes that fit into a region of the memory leave its size alone. -/
theorem Memory.size_put_of_stop_le {m : Memory} (r : Region) {bs : Bytes} (some : r.len ≠ 0)
    (fits : bs.length ≤ r.len) (within : r.stop ≤ m.size) : (m.put r.offset bs).size = m.size := by
  rw [Region.stop_eq some] at within
  exact m.size_put r.offset bs (by omega)

/-! ## Growth -/

namespace Memory

variable (m : Memory)

theorem limit_growTo (size : Nat) : (m.growTo size).limit = m.limit := by
  unfold growTo
  split <;> rfl

theorem growTo_of_le {size : Nat} (h : size ≤ m.size) : m.growTo size = m :=
  if_neg (Nat.not_lt.mpr h)

theorem growTo_of_lt {size : Nat} (h : m.size < size) :
    m.growTo size = { m with data := m.data ++ ⟨Array.replicate (size - m.size) 0⟩ } :=
  if_pos h

theorem growTo_max (size : Nat) : m.growTo (max size m.size) = m.growTo size := by
  rcases Nat.le_total size m.size with stays | grows
  · rw [Nat.max_eq_right stays, m.growTo_of_le (Nat.le_refl _), m.growTo_of_le stays]
  · rw [Nat.max_eq_left grows]

/-- Growth in two parts adds the same zeros as growth at once. -/
theorem growTo_growTo {first second : Nat} (h : first ≤ second) :
    (m.growTo first).growTo second = m.growTo second := by
  by_cases stays : first ≤ m.size
  · rw [m.growTo_of_le stays]
  · have size : (m.growTo first).size = first := by rw [size_growTo]; omega
    by_cases further : first < second
    · have zeros : first - m.size + (second - first) = second - m.size := by omega
      rw [growTo_of_lt _ (by omega), size, growTo_of_lt m (by omega), growTo_of_lt m (by omega)]
      simp only [Memory.mk.injEq, and_true]
      apply ByteArray.ext
      simp only [ByteArray.data_append, Array.append_assoc, Array.replicate_append_replicate, zeros]
    · have same : first = second := by omega
      subst same
      exact growTo_of_le _ (Nat.le_of_eq size.symm)

end Memory

theorem Region.furthest_growTo (m : Memory) (size : Nat) (regions : List Region) :
    furthest (m.growTo size) regions = max size (furthest m regions) := by
  induction regions with
  | nil => rw [furthest_nil, furthest_nil, Memory.size_growTo, Nat.max_comm]
  | cons r rest ih =>
    rw [furthest_cons, furthest_cons, ih]
    omega

/-! ## Settling -/

/-- What settling costs: growth to the furthest end and the extra gas, in one amount. -/
def Frame.settlePrice (f : Frame) (policy : MemoryPolicy) (regions : List Region) (extra : Nat) :
    Nat :=
  saturate (policy.expansionCost f.memory.size (Region.furthest f.memory regions) + extra)

section

variable {f : Frame} {policy : MemoryPolicy} {regions : List Region} {extra : Nat}
  {memory : Memory} {gas : GasMeter}

/-- Settling succeeds if every region lies within the limit and the joint price is there; memory
then reaches the furthest end. -/
theorem Frame.settle_eq_ok :
    f.settle policy regions extra = .ok (memory, gas) ↔
      (∀ r ∈ regions, r.len = 0 ∨ r.offset + r.len ≤ f.memory.limit) ∧
      (f.settlePrice policy regions extra : Int) ≤ f.gas.remaining ∧
      memory = f.memory.growTo (Region.furthest f.memory regions) ∧
      gas = f.gas.less (f.settlePrice policy regions extra) := by
  simp only [settle, settlePrice, bind_eq_ok, Region.reach_eq_ok, GasMeter.charge_eq_ok, pure,
    Except.pure, Except.ok.injEq, Prod.mk.injEq]
  constructor
  · rintro ⟨_, ⟨hr, rfl⟩, _, ⟨hc, rfl⟩, rfl, rfl⟩
    exact ⟨hr, hc, rfl, rfl⟩
  · rintro ⟨hr, hc, rfl, rfl⟩
    exact ⟨_, ⟨hr, rfl⟩, _, ⟨hc, rfl⟩, rfl, rfl⟩

/-- Regions are not settled if one of them leaves the limit, or else if their price is not there. -/
theorem Frame.settle_refused {error : VmError}
    (h : f.settle policy regions extra = .error error) :
    (¬ ∀ r ∈ regions, r.len = 0 ∨ r.offset + r.len ≤ f.memory.limit) ∧
        error = .memoryBoundsExceeded ∨
      (∀ r ∈ regions, r.len = 0 ∨ r.offset + r.len ≤ f.memory.limit) ∧
        f.gas.remaining < f.settlePrice policy regions extra ∧ error = .outOfGas := by
  simp only [settle, bind_eq_error, pure, Except.pure, reduceCtorEq, and_false, exists_false,
    or_false] at h
  rcases h with h | ⟨size, reached, h⟩
  · refine .inl ⟨fun within => ?_, Region.reach_error h⟩
    rw [Region.reach_eq_ok.mpr ⟨within, rfl⟩] at h
    cases h
  · obtain ⟨within, rfl⟩ := Region.reach_eq_ok.mp reached
    exact .inr ⟨within, GasMeter.charge_eq_error.mp h⟩

theorem Frame.settle_error {error : VmError}
    (h : f.settle policy regions extra = .error error) :
    error = .memoryBoundsExceeded ∨ error = .outOfGas :=
  (settle_refused h).imp And.right fun refused => refused.2.2

theorem Frame.size_of_settle (h : f.settle policy regions extra = .ok (memory, gas)) :
    memory.size = Region.furthest f.memory regions := by
  obtain ⟨-, -, rfl, -⟩ := settle_eq_ok.mp h
  rw [Memory.size_growTo]
  exact Nat.max_eq_right (Region.size_le_furthest f.memory regions)

/-- Every region that was settled lies within the limit. -/
theorem Frame.within_of_settle (h : f.settle policy regions extra = .ok (memory, gas)) :
    ∀ r ∈ regions, r.len = 0 ∨ r.offset + r.len ≤ memory.limit := by
  obtain ⟨within, -, rfl, -⟩ := settle_eq_ok.mp h
  simpa only [Memory.limit_growTo] using within

theorem Frame.stop_le_of_settle (h : f.settle policy regions extra = .ok (memory, gas)) :
    ∀ r ∈ regions, r.stop ≤ memory.size := by
  intro r hr
  rw [size_of_settle h]
  exact Region.stop_le_furthest f.memory hr

/-- What settling costs depends on the sizes of memory before and after alone. -/
theorem Frame.gas_of_settle (h : f.settle policy regions extra = .ok (memory, gas)) :
    gas = f.gas.less (saturate (policy.expansionCost f.memory.size memory.size + extra)) ∧
      0 ≤ gas.remaining := by
  obtain ⟨-, paid, -, rfl⟩ := settle_eq_ok.mp h
  -- The furthest end, which the price speaks of, is the size of the memory that results.
  rw [size_of_settle h]
  refine ⟨rfl, ?_⟩
  rw [GasMeter.less_remaining]
  omega

end

end StackMachine
