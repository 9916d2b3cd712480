import Mathlib.Tactic.Ring
import StackMachine.Proofs.Pricing
import StackMachine.Word

/-!
# The quadratic price and its formula

The quadratic policy is three for each word and a 512th of the square of their number. The price
follows that formula as long as squares are prices. Larger squares are cut off before they are
divided, so that the cut does not show in the quotient: `MemoryPolicy.expansionCost_add_shortfall`
says how much is missing from the price then, `MemoryPolicy.quadratic_exact_iff` for which sizes
nothing is.
-/

namespace StackMachine

/-- No size takes more words than the 59th power of two. -/
theorem wordsFor_le {bytes : Nat} (size : bytes < sizeLimit) : wordsFor bytes ≤ 2 ^ 59 := by
  simp only [wordsFor, sizeLimit] at *
  omega

namespace MemoryPolicy

/-- What so many words cost by the formula. -/
def formula (words : Nat) : Nat :=
  3 * words + words ^ 2 / 512

/-- What growth costs by the formula, or the largest price if that is less. -/
def formulaCost (current new : Nat) : Nat :=
  let cost := formula (wordsFor new) - formula (wordsFor current)
  if cost ≤ maxPrice then cost else maxPrice

/-- What the cut takes off a 512th of the square of a number of words. -/
def shortfall (words : Nat) : Nat :=
  words ^ 2 / 512 - maxPrice / 512

/-! ## Single totals -/

theorem quadraticCost_add_shortfall {words : Nat} (small : words ≤ 2 ^ 59) :
    quadraticCost words + shortfall words = formula words := by
  simp only [quadraticCost, shortfall, formula, saturate, maxPrice, ← Nat.pow_two]
  generalize words ^ 2 = square
  omega

/-- Below the 32nd power of two squares are prices. -/
theorem shortfall_eq_zero {words : Nat} (small : words < 2 ^ 32) : shortfall words = 0 := by
  have square : words ^ 2 < 2 ^ 64 := Nat.pow_lt_pow_left small (by decide)
  simp only [shortfall, maxPrice]
  omega

/-- From there on each further word adds to what is missing. -/
theorem shortfall_lt {m n : Nat} (less : m < n) (large : 2 ^ 32 ≤ n) :
    shortfall m < shortfall n := by
  by_cases small : m < 2 ^ 32
  · have square : (2 ^ 32) ^ 2 ≤ n ^ 2 := Nat.pow_le_pow_left large 2
    rw [shortfall_eq_zero small]
    simp only [shortfall, maxPrice]
    omega
  · have square : (2 ^ 32) ^ 2 ≤ m ^ 2 := Nat.pow_le_pow_left (Nat.not_lt.mp small) 2
    have next : (m + 1) ^ 2 ≤ n ^ 2 := Nat.pow_le_pow_left less 2
    have gap : m ^ 2 + 512 ≤ (m + 1) ^ 2 := by
      have expand : (m + 1) ^ 2 = m ^ 2 + 2 * m + 1 := by ring
      omega
    simp only [shortfall, maxPrice]
    omega

theorem shortfall_mono {m n : Nat} (h : m ≤ n) : shortfall m ≤ shortfall n :=
  Nat.sub_le_sub_right (Nat.div_le_div_right (Nat.pow_le_pow_left h 2)) _

/-! ## Growth -/

/-- The price of growth and what is missing from it make up the formula. -/
theorem expansionCost_add_shortfall {current new : Nat} (grows : current ≤ new) (size : new < sizeLimit) :
    quadratic.expansionCost current new
        + (shortfall (wordsFor new) - shortfall (wordsFor current))
      = formula (wordsFor new) - formula (wordsFor current) := by
  have words := wordsFor_mono grows
  have total := quadraticCost_add_shortfall (wordsFor_le size)
  have before := quadraticCost_add_shortfall (Nat.le_trans words (wordsFor_le size))
  have prices := quadraticCost_mono words
  have missing := shortfall_mono words
  rw [expansionCost_quadratic]
  omega

/-- No size is large enough for the price itself to be cut off. -/
theorem expansionCost_quadratic_lt (current : Nat) {new : Nat} (size : new < sizeLimit) :
    quadratic.expansionCost current new < maxPrice := by
  have words := wordsFor_le size
  rw [expansionCost_quadratic]
  simp only [quadraticCost, saturate, maxPrice]
  omega

/-- The quadratic price is never more than the formula, and it is the formula as long as memory
stays below the 32nd power of two in words or does not grow by a word. Of any other growth a part is
not paid: what the squares lose when they are cut off. -/
theorem quadratic_exact_iff {current new : Nat} (grows : current ≤ new) (size : new < sizeLimit) :
    (quadratic.expansionCost current new = formulaCost current new ↔
        wordsFor new < 2 ^ 32 ∨ wordsFor new = wordsFor current) ∧
      quadratic.expansionCost current new ≤ formulaCost current new ∧
      quadratic.expansionCost current new
          + (shortfall (wordsFor new) - shortfall (wordsFor current))
        = formula (wordsFor new) - formula (wordsFor current) := by
  have total := expansionCost_add_shortfall grows size
  have price := expansionCost_quadratic_lt current size
  have words := wordsFor_mono grows
  have exact_iff : quadratic.expansionCost current new = formulaCost current new ↔
      shortfall (wordsFor new) ≤ shortfall (wordsFor current) := by
    simp only [formulaCost]
    split <;> omega
  refine ⟨?_, ?_, total⟩
  · rw [exact_iff]
    constructor
    · intro nothing
      by_cases small : wordsFor new < 2 ^ 32
      · exact .inl small
      · refine .inr (Nat.le_antisymm (Nat.not_lt.mp fun less => ?_) words)
        have missing := shortfall_lt less (Nat.not_lt.mp small)
        omega
    · rintro (small | same)
      · rw [shortfall_eq_zero small]
        exact Nat.zero_le _
      · rw [same]
  · simp only [formulaCost]
    split <;> omega

/-- The largest memory, in whole words, whose price is exact. -/
theorem quadratic_exact_iff_largest :
    (0 ≤ 2 ^ 37 - 32 ∧ 2 ^ 37 - 32 < sizeLimit) ∧
      quadratic.expansionCost 0 (2 ^ 37 - 32) = formulaCost 0 (2 ^ 37 - 32) := by
  have grows : 0 ≤ 2 ^ 37 - 32 := by decide
  have size : 2 ^ 37 - 32 < sizeLimit := by decide
  exact ⟨⟨grows, size⟩, (quadratic_exact_iff grows size).1.mpr (.inl (by decide))⟩

/-- With one word more, the price is one less than the formula. -/
theorem quadratic_short_of_formula :
    (0 ≤ 2 ^ 37 ∧ 2 ^ 37 < sizeLimit) ∧ formulaCost 0 (2 ^ 37) = 36028809903865856 ∧
      quadratic.expansionCost 0 (2 ^ 37) = 36028809903865855 := by
  decide

end MemoryPolicy

end StackMachine
