import StackMachine.Gas

/-!
# Prices

Laws of cut-off amounts and of the price of memory. `MemoryPolicy.expansionCost_add` says that it
makes no difference to the price whether memory grows at once or bit by bit.
-/

namespace StackMachine

/-! ## Amounts -/

theorem saturate_mono {m n : Nat} (h : m ≤ n) : saturate m ≤ saturate n := by
  simp only [saturate]
  omega

theorem saturate_add_saturate (m n : Nat) :
    saturate (saturate m + saturate n) = saturate (m + n) := by
  simp only [saturate]
  omega

theorem saturate_of_le {n : Nat} (h : n ≤ maxPrice) : saturate n = n :=
  Nat.min_eq_left h

theorem wordsFor_mono {m n : Nat} (h : m ≤ n) : wordsFor m ≤ wordsFor n :=
  Nat.div_le_div_right (by omega)

/-! ## The growth of memory -/

namespace MemoryPolicy

theorem quadraticCost_mono {m n : Nat} (h : m ≤ n) : quadraticCost m ≤ quadraticCost n := by
  unfold quadraticCost
  refine saturate_mono (Nat.add_le_add ?_ ?_)
  · exact saturate_mono (Nat.mul_le_mul_left 3 h)
  · exact Nat.div_le_div_right (saturate_mono (Nat.mul_le_mul h h))

theorem expansionCost_of_le (p : MemoryPolicy) {current new : Nat} (h : new ≤ current) :
    p.expansionCost current new = 0 :=
  if_pos h

theorem expansionCost_linear (perWord : UInt64) (current new : Nat) :
    (linear perWord).expansionCost current new
      = saturate (perWord.toNat * (wordsFor new - wordsFor current)) := by
  unfold expansionCost
  split
  · rename_i h
    rw [Nat.sub_eq_zero_of_le (wordsFor_mono h)]
    rfl
  · rfl

theorem expansionCost_quadratic (current new : Nat) :
    quadratic.expansionCost current new
      = quadraticCost (wordsFor new) - quadraticCost (wordsFor current) := by
  unfold expansionCost
  split
  · rename_i h
    rw [Nat.sub_eq_zero_of_le (quadraticCost_mono (wordsFor_mono h))]
  · rfl

theorem expansionCost_free (current new : Nat) : free.expansionCost current new = 0 := by
  unfold expansionCost
  split <;> rfl

theorem expansionCost_le (p : MemoryPolicy) (current new : Nat) :
    p.expansionCost current new ≤ maxPrice := by
  cases p with
  | free =>
    rw [expansionCost_free]
    exact Nat.zero_le _
  | linear perWord =>
    rw [expansionCost_linear]
    exact Nat.min_le_right _ _
  | quadratic =>
    rw [expansionCost_quadratic]
    exact Nat.le_trans (Nat.sub_le _ _) (Nat.min_le_right _ _)

/-- Growth in two parts costs as much as growth at once, as long as prices are not cut off. -/
theorem expansionCost_add (p : MemoryPolicy) {a b c : Nat} (hab : a ≤ b) (hbc : b ≤ c) :
    saturate (p.expansionCost a b + p.expansionCost b c) = p.expansionCost a c := by
  have hw := wordsFor_mono hab
  have hw' := wordsFor_mono hbc
  cases p with
  | free => simp [expansionCost_free, saturate]
  | linear perWord =>
    rw [expansionCost_linear, expansionCost_linear, expansionCost_linear, saturate_add_saturate,
      ← Nat.mul_add]
    congr 2
    omega
  | quadratic =>
    have hq := quadraticCost_mono hw
    have hq' := quadraticCost_mono hw'
    -- Totals are cut off before they are subtracted, so their differences never are.
    have hm : quadraticCost (wordsFor c) ≤ maxPrice := Nat.min_le_right _ _
    rw [expansionCost_quadratic, expansionCost_quadratic, expansionCost_quadratic,
      saturate_of_le (by omega)]
    omega

end MemoryPolicy

end StackMachine
