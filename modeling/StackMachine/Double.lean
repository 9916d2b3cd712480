/-!
# Doubles

Natural numbers as doubles, binary numbers of at most fifty-three significant bits. A number with
more bits is rounded to the nearest double, and from halfway between two of them to the one whose
last bit is zero. Numbers too large for any double are rounded to infinity.

Main statements: rounding moves a number by at most half the distance between the doubles around it,
and a number that is short enough not at all.
-/

namespace StackMachine.Double

/-- The distance between the doubles around a number. -/
def spacing (n : Nat) : Nat :=
  Nat.pow 2 (n.log2 - 52)

/-- The nearest double, as if doubles had no largest one. -/
def nearest (n : Nat) : Nat :=
  let quotient := n / spacing n
  let twice := 2 * (n % spacing n)
  if twice < spacing n ∨ (twice = spacing n ∧ quotient % 2 = 0) then quotient * spacing n
  else (quotient + 1) * spacing n

/-- Whether a number is rounded to a finite double: it lies below the midpoint of the largest double
and the power of two after it. -/
def isFinite (n : Nat) : Bool :=
  n < Nat.pow 2 1024 - Nat.pow 2 970

theorem spacing_pos (n : Nat) : 0 < spacing n :=
  Nat.pow_pos (by decide)

/-- Rounding moves a number by at most half the distance between the doubles around it. -/
theorem nearest_near (n : Nat) :
    2 * nearest n ≤ 2 * n + spacing n ∧ 2 * n ≤ 2 * nearest n + spacing n := by
  have hn : n / spacing n * spacing n + n % spacing n = n := by
    rw [Nat.mul_comm]
    exact Nat.div_add_mod n (spacing n)
  have hr : n % spacing n < spacing n := Nat.mod_lt n (spacing_pos n)
  simp only [nearest]
  split
  · omega
  · rw [Nat.add_mul (n / spacing n) 1, Nat.one_mul]
    omega

/-- A number of at most fifty-three bits is a double. -/
theorem nearest_of_log2_le {n : Nat} (h : n.log2 ≤ 52) : nearest n = n := by
  have hs : spacing n = 1 := by
    rw [spacing, Nat.sub_eq_zero_of_le h]
  simp [nearest, hs, Nat.mod_one]

end StackMachine.Double
