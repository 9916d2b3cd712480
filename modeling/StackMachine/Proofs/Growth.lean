import Mathlib.Data.Nat.Basic
import Mathlib.Order.Monotone.Defs
import StackMachine.Proofs.Pricing
import StackMachine.Proofs.Regions

/-!
# Growth in parts

Memory that grows in parts is paid as if it had grown at once. For two charges on one meter that is
`GasMeter.charge_growth`; for regions that are settled one by one, in whatever order, it is
`Frame.settle_iff_settleEach_cons`. Prices that are cut off do not add up, but no meter bears them.
-/

namespace StackMachine

/-! ## Prices -/

namespace MemoryPolicy

variable (p : MemoryPolicy)

/-- The part of a growth costs no more than all of it. -/
theorem expansionCost_le_of_parts {a b c : Nat} (hab : a ≤ b) (hbc : b ≤ c) :
    p.expansionCost a b ≤ p.expansionCost a c ∧ p.expansionCost b c ≤ p.expansionCost a c := by
  have whole := p.expansionCost_add hab hbc
  have first := p.expansionCost_le a b
  have second := p.expansionCost_le b c
  rw [← whole]
  simp only [saturate]
  omega

theorem expansionCost_mono (current : Nat) : Monotone (p.expansionCost current) := by
  intro b c hbc
  by_cases hab : current ≤ b
  · exact (p.expansionCost_le_of_parts hab hbc).1
  · rw [p.expansionCost_of_le (by omega : b ≤ current)]
    exact Nat.zero_le _

theorem expansionCost_antitone (new : Nat) : Antitone fun current => p.expansionCost current new := by
  intro a b hab
  by_cases hbc : b ≤ new
  · exact (p.expansionCost_le_of_parts hab hbc).2
  · show p.expansionCost b new ≤ p.expansionCost a new
    rw [p.expansionCost_of_le (by omega : new ≤ b)]
    exact Nat.zero_le _

end MemoryPolicy

/-! ## The meter -/

namespace GasMeter

variable {m : GasMeter}

/-- Two charges come to one charge of the sum, cut off or not: a meter of 63 bits bears no sum that
would be cut off. -/
theorem charge_charge (bounded : m.remaining ≤ maxGas) (first second : Nat) :
    (m.charge first >>= fun m => m.charge second) = m.charge (saturate (first + second)) := by
  by_cases enough : ((first + second : Nat) : Int) ≤ m.remaining
  · have whole : saturate (first + second) = first + second := by
      apply saturate_of_le
      simp only [maxPrice, maxGas] at *
      omega
    rw [charge_eq_ok.mpr ⟨by omega, rfl⟩, whole, charge_eq_ok.mpr ⟨enough, rfl⟩, ← less_less]
    exact charge_eq_ok.mpr ⟨by rw [less_remaining]; omega, rfl⟩
  · have short : m.remaining < saturate (first + second) := by
      simp only [saturate, maxPrice, maxGas] at *
      omega
    rw [charge_eq_error.mpr ⟨short, rfl⟩, bind_eq_error]
    by_cases bears : (first : Int) ≤ m.remaining
    · refine .inr ⟨_, charge_eq_ok.mpr ⟨bears, rfl⟩, charge_eq_error.mpr ⟨?_, rfl⟩⟩
      rw [less_remaining]
      omega
    · exact .inl (charge_eq_error.mpr ⟨by omega, rfl⟩)

/-- Growth that is charged in two parts is charged as growth at once. -/
theorem charge_growth (bounded : m.remaining ≤ maxGas) (p : MemoryPolicy) {a b c : Nat}
    (hab : a ≤ b) (hbc : b ≤ c) :
    (m.charge (p.expansionCost a b) >>= fun m => m.charge (p.expansionCost b c))
      = m.charge (p.expansionCost a c) := by
  rw [charge_charge bounded, p.expansionCost_add hab hbc]

end GasMeter

/-! ## Regions -/

/-- The order of regions makes no difference to where the furthest of them ends. -/
theorem Region.furthest_perm {m : Memory} {regions order : List Region} (h : regions.Perm order) :
    furthest m regions = furthest m order := by
  induction h with
  | nil => rfl
  | cons r _ ih => rw [furthest_cons, furthest_cons, ih]
  | swap r s rest =>
    simp only [furthest_cons]
    omega
  | trans _ _ ih ih' => exact ih.trans ih'

/-! ## Settling one by one -/

/-- Pays for touching regions one by one, and touches each once it is paid for. -/
def Frame.settleEach (f : Frame) (policy : MemoryPolicy) :
    List Region → Except VmError (Memory × GasMeter)
  | [] => .ok (f.memory, f.gas)
  | r :: rest => do
    let (memory, gas) ← f.settle policy [r] 0
    settleEach { f with memory, gas } policy rest

namespace Frame

variable {f : Frame} {p : MemoryPolicy} {regions : List Region}

/-- Without extra gas the price is that of the growth, which is not cut off. -/
theorem settle_zero_eq_ok {memory : Memory} {gas : GasMeter} :
    f.settle p regions 0 = .ok (memory, gas) ↔
      (∀ r ∈ regions, r.len = 0 ∨ r.offset + r.len ≤ f.memory.limit) ∧
        memory = f.memory.growTo (Region.furthest f.memory regions) ∧
        f.gas.charge (p.expansionCost f.memory.size (Region.furthest f.memory regions))
          = .ok gas := by
  have price : f.settlePrice p regions 0
      = p.expansionCost f.memory.size (Region.furthest f.memory regions) :=
    saturate_of_le (p.expansionCost_le _ _)
  rw [settle_eq_ok, GasMeter.charge_eq_ok, price]
  constructor
  · rintro ⟨within, paid, memory, gas⟩
    exact ⟨within, memory, paid, gas⟩
  · rintro ⟨within, memory, paid, gas⟩
    exact ⟨within, paid, memory, gas⟩

/-- Settling the first of some regions and then the others is settling all of them. -/
theorem settle_cons_iff (bounded : f.gas.remaining ≤ maxGas) {r : Region}
    {result : Memory × GasMeter} :
    f.settle p (r :: regions) 0 = .ok result ↔
      ∃ memory gas, f.settle p [r] 0 = .ok (memory, gas) ∧
        Frame.settle { f with memory, gas } p regions 0 = .ok result := by
  have start := Region.size_le_furthest f.memory [r]
  have others := Region.size_le_furthest f.memory regions
  -- Both ways of settling grow memory to the same size, over the end of the first region.
  have reached : Region.furthest (f.memory.growTo (Region.furthest f.memory [r])) regions
      = Region.furthest f.memory (r :: regions) := by
    simp only [Region.furthest_growTo, Region.furthest_cons, Region.furthest_nil]
    omega
  have grows : Region.furthest f.memory [r] ≤ Region.furthest f.memory (r :: regions) := by
    rw [← reached, Region.furthest_growTo]
    exact Nat.le_max_left _ _
  have size : (f.memory.growTo (Region.furthest f.memory [r])).size
      = Region.furthest f.memory [r] := by
    rw [Memory.size_growTo]
    exact Nat.max_eq_right start
  obtain ⟨memory, gas⟩ := result
  simp only [settle_zero_eq_ok, List.forall_mem_cons, List.not_mem_nil, false_implies, implies_true,
    and_true, ← GasMeter.charge_growth bounded p start grows, bind_eq_ok]
  constructor
  · rintro ⟨⟨first, rest⟩, rfl, between, paid, further⟩
    refine ⟨_, between, ⟨first, rfl, paid⟩, ?_, ?_, ?_⟩
    · rwa [Memory.limit_growTo]
    · rw [reached, Memory.growTo_growTo _ grows]
    · rwa [reached, size]
  · rintro ⟨_, between, ⟨first, rfl, paid⟩, rest, rfl, further⟩
    rw [Memory.limit_growTo] at rest
    rw [reached, size] at further
    refine ⟨⟨first, rest⟩, ?_, between, paid, further⟩
    rw [reached, Memory.growTo_growTo _ grows]

theorem remaining_of_settle {extra : Nat} {memory : Memory} {gas : GasMeter}
    (h : f.settle p regions extra = .ok (memory, gas)) : gas.remaining ≤ f.gas.remaining := by
  rw [(gas_of_settle h).1, GasMeter.less_remaining]
  omega

theorem settleEach_cons_iff {r : Region} {result : Memory × GasMeter} :
    f.settleEach p (r :: regions) = .ok result ↔
      ∃ memory gas, f.settle p [r] 0 = .ok (memory, gas) ∧
        Frame.settleEach { f with memory, gas } p regions = .ok result := by
  rw [settleEach, bind_eq_ok]
  exact Prod.exists

/-- Regions are settled together exactly if they are settled one by one. -/
theorem settle_iff_settleEach_cons (bounded : f.gas.remaining ≤ maxGas) {r : Region}
    {result : Memory × GasMeter} :
    f.settle p (r :: regions) 0 = .ok result ↔ f.settleEach p (r :: regions) = .ok result := by
  rw [settleEach_cons_iff]
  induction regions generalizing f r with
  | nil =>
    constructor
    · intro settled
      exact ⟨result.1, result.2, settled, rfl⟩
    · rintro ⟨memory, gas, settled, same⟩
      cases same
      exact settled
  | cons s rest ih =>
    rw [settle_cons_iff bounded]
    refine exists_congr fun memory => exists_congr fun gas => and_congr_right fun settled => ?_
    -- A meter that has paid still has no more than 63 bits, so the rest is settled alike.
    have left : gas.remaining ≤ maxGas := Int.le_trans (remaining_of_settle settled) bounded
    rw [settleEach_cons_iff]
    exact ih left

/-- The order of regions makes no difference to settling them together. -/
theorem settle_perm {order : List Region} (reordered : regions.Perm order)
    {result : Memory × GasMeter} :
    f.settle p regions 0 = .ok result ↔ f.settle p order 0 = .ok result := by
  obtain ⟨memory, gas⟩ := result
  simp only [settle_zero_eq_ok, Region.furthest_perm reordered, reordered.mem_iff]

end Frame

/-! ## All of it -/

/-- Growth that is paid in two parts is paid as growth at once, and a part costs no more than the
whole. Regions can be settled together exactly if they can be settled one by one, in whatever order,
and memory and meter are the same then. (With no region at all, settling one by one charges nothing,
while settling together charges zero, which a meter in deficit does not bear.) -/
theorem growth_in_parts (p : MemoryPolicy) :
    (∀ (m : GasMeter) (a b c : Nat), m.remaining ≤ maxGas → a ≤ b → b ≤ c →
        (m.charge (p.expansionCost a b) >>= fun m => m.charge (p.expansionCost b c))
          = m.charge (p.expansionCost a c)) ∧
      (∀ current, Monotone fun new => p.expansionCost current new) ∧
      (∀ new, Antitone fun current => p.expansionCost current new) ∧
      ∀ (f : Frame) (regions order : List Region), f.gas.remaining ≤ maxGas → regions ≠ [] →
        regions.Perm order → ∀ memory gas,
          f.settle p regions 0 = .ok (memory, gas) ↔ f.settleEach p order = .ok (memory, gas) := by
  refine ⟨?_, p.expansionCost_mono, p.expansionCost_antitone, ?_⟩
  · intro m a b c bounded hab hbc
    exact GasMeter.charge_growth bounded p hab hbc
  · intro f regions order bounded nonempty reordered memory gas
    rw [Frame.settle_perm reordered]
    cases order with
    | nil => exact absurd (List.perm_nil.mp reordered) nonempty
    | cons r rest => exact Frame.settle_iff_settleEach_cons bounded

/-- Two regions with a gap, the further one first, for all of the gas. -/
theorem growth_in_parts_reversed :
    let p : MemoryPolicy := .linear 3
    let f : Frame := { Frame.initial ⟨.default, .latest, .call 0 0 9, .ofBytes []⟩ with
      gas := .ofLimit 9 }
    let near : Region := ⟨0, 32⟩
    let far : Region := ⟨70, 1⟩
    ((f.gas.remaining ≤ maxGas ∧ 0 ≤ 32 ∧ 32 ≤ 71) ∧ [near, far] ≠ [] ∧
        [near, far].Perm [far, near]) ∧
      (f.gas.charge (p.expansionCost 0 32) >>= fun m => m.charge (p.expansionCost 32 71))
        = .ok ⟨9, 0⟩ ∧
      f.settleEach p [far, near] = .ok (f.memory.growTo 71, ⟨9, 0⟩) := by
  intro p f near far
  have bounded : f.gas.remaining ≤ maxGas := by decide
  have reordered : [near, far].Perm [far, near] := List.Perm.swap far near []
  obtain ⟨parts, -, -, settles⟩ := growth_in_parts p
  have together : f.settle p [near, far] 0 = .ok (f.memory.growTo 71, ⟨9, 0⟩) := by
    refine Frame.settle_zero_eq_ok.mpr ⟨by decide +kernel, rfl, ?_⟩
    exact GasMeter.charge_eq_ok.mpr ⟨by decide +kernel, by decide +kernel⟩
  refine ⟨⟨⟨bounded, by decide, by decide⟩, by simp, reordered⟩, ?_, ?_⟩
  · rw [parts f.gas 0 32 71 bounded (by decide) (by decide)]
    exact GasMeter.charge_eq_ok.mpr ⟨by decide +kernel, by decide +kernel⟩
  · exact (settles f [near, far] [far, near] bounded (by simp) reordered _ _).mp together

end StackMachine
