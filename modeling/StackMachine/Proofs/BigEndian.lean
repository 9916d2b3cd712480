import Mathlib.Algebra.Group.Nat.Defs
import Mathlib.Data.List.Induction
import StackMachine.Bytes

/-!
# Byte strings and their numbers

Byte strings of one length are the numbers below a power of 256, most significant byte first:
`Bytes.toNat_ofNat` and `Bytes.ofNat_toNat` say that reading and writing undo each other,
`Bytes.toNat_lt_iff` that the order of numbers is the order of byte strings. Operations on bits can
be carried out byte by byte.
-/

namespace StackMachine

namespace Bytes

/-! ## Reading -/

theorem toNat_concat (bs : Bytes) (b : UInt8) : toNat (bs ++ [b]) = toNat bs * 256 + b.toNat := by
  simp [toNat]

/-- The first byte counts for as much as the number of bytes behind it says. -/
theorem toNat_cons (b : UInt8) (bs : Bytes) :
    toNat (b :: bs) = b.toNat * 256 ^ bs.length + toNat bs := by
  induction bs using List.reverseRecOn with
  | nil => simp [toNat]
  | append_singleton bs last ih =>
    rw [← List.cons_append, toNat_concat, toNat_concat, ih, List.length_append, List.length_singleton,
      Nat.pow_succ, Nat.add_mul, Nat.mul_assoc, Nat.add_assoc]

theorem toNat_lt (bs : Bytes) : toNat bs < 256 ^ bs.length := by
  induction bs using List.reverseRecOn with
  | nil => decide
  | append_singleton bs last ih =>
    have byte := last.toNat_lt
    rw [toNat_concat, List.length_append, List.length_singleton, Nat.pow_succ]
    omega

/-- Zeros in front of a byte string count for nothing. -/
theorem toNat_zeros_append (n : Nat) (bs : Bytes) :
    toNat (List.replicate n 0 ++ bs) = toNat bs := by
  induction n with
  | zero => rfl
  | succ n ih =>
    rw [List.replicate_succ, List.cons_append, toNat_cons, ih]
    simp

/-- A byte string comes before another one of its length if its number is smaller. -/
theorem toNat_lt_iff {bs cs : Bytes} (same : bs.length = cs.length) :
    toNat bs < toNat cs ↔ bs < cs := by
  induction bs generalizing cs with
  | nil =>
    rw [List.length_nil, eq_comm, List.length_eq_zero_iff] at same
    subst same
    simp [toNat]
  | cons b bs ih =>
    cases cs with
    | nil => cases same
    | cons c cs =>
      have rest : bs.length = cs.length := Nat.succ.inj same
      have low := toNat_lt bs
      have low' := toNat_lt cs
      rw [toNat_cons, toNat_cons, List.cons_lt_cons_iff, ← ih rest, UInt8.lt_iff_toNat_lt,
        ← UInt8.toNat_inj, rest]
      rw [rest] at low
      -- The bytes behind the first ones cannot make up for a difference between those.
      rcases Nat.lt_trichotomy b.toNat c.toNat with less | same | more
      · have step := Nat.mul_le_mul_right (256 ^ cs.length) less
        rw [Nat.succ_mul] at step
        omega
      · rw [same]
        omega
      · have step := Nat.mul_le_mul_right (256 ^ cs.length) more
        rw [Nat.succ_mul] at step
        omega

/-! ## Writing -/

theorem toNat_ofNat (len n : Nat) : toNat (ofNat len n) = n % 256 ^ len := by
  induction len generalizing n with
  | zero => simp [ofNat, toNat, Nat.mod_one]
  | succ len ih =>
    have power : 256 ^ (len + 1) = 256 * 256 ^ len := Nat.pow_succ'
    rw [ofNat, toNat_concat, ih, UInt8.toNat_ofNat', power, Nat.mod_mul]
    omega

theorem ofNat_toNat (bs : Bytes) : ofNat bs.length (toNat bs) = bs := by
  induction bs using List.reverseRecOn with
  | nil => rfl
  | append_singleton bs last ih =>
    have byte := last.toNat_lt
    have high : (toNat bs * 256 + last.toNat) / 256 = toNat bs := by omega
    have low : UInt8.ofNat (toNat bs * 256 + last.toNat) = last := by
      apply UInt8.toNat_inj.mp
      rw [UInt8.toNat_ofNat']
      omega
    rw [List.length_append, List.length_singleton, ofNat, toNat_concat, high, low, ih]

/-- A number is written as the byte string that it was read from, behind zeros. -/
theorem ofNat_toNat_short {len : Nat} {bs : Bytes} (short : bs.length ≤ len) :
    ofNat len (toNat bs) = List.replicate (len - bs.length) 0 ++ bs := by
  have length : (List.replicate (len - bs.length) 0 ++ bs).length = len := by
    rw [List.length_append, List.length_replicate]
    omega
  have written := ofNat_toNat (List.replicate (len - bs.length) 0 ++ bs)
  rwa [length, toNat_zeros_append] at written

/-! ## Byte by byte -/

/-- What is done to the lowest byte and to the number above it alike is done byte by byte. -/
theorem ofNat_bytewise {f : UInt8 → UInt8 → UInt8} {g : Nat → Nat → Nat}
    (low : ∀ m n, UInt8.ofNat (g m n) = f (.ofNat m) (.ofNat n))
    (high : ∀ m n, g m n / 256 = g (m / 256) (n / 256)) (len m n : Nat) :
    ofNat len (g m n) = List.zipWith f (ofNat len m) (ofNat len n) := by
  induction len generalizing m n with
  | zero => rfl
  | succ len ih =>
    rw [ofNat, ofNat, ofNat, low, high, ih, List.zipWith_append (by simp)]
    rfl

theorem ofNat_and (len m n : Nat) :
    ofNat len (m &&& n) = List.zipWith (· &&& ·) (ofNat len m) (ofNat len n) :=
  ofNat_bytewise UInt8.ofNat_and (fun _ _ => Nat.and_div_two_pow (n := 8)) len m n

theorem ofNat_or (len m n : Nat) :
    ofNat len (m ||| n) = List.zipWith (· ||| ·) (ofNat len m) (ofNat len n) :=
  ofNat_bytewise UInt8.ofNat_or (fun _ _ => Nat.or_div_two_pow (n := 8)) len m n

theorem ofNat_xor (len m n : Nat) :
    ofNat len (m ^^^ n) = List.zipWith (· ^^^ ·) (ofNat len m) (ofNat len n) :=
  ofNat_bytewise UInt8.ofNat_xor (fun _ _ => Nat.xor_div_two_pow (n := 8)) len m n

/-- The complement of a number has the complements of its bytes. -/
theorem ofNat_complement {len n : Nat} (h : n < 256 ^ len) :
    ofNat len (256 ^ len - 1 - n) = (ofNat len n).map (~~~ ·) := by
  induction len generalizing n with
  | zero => rfl
  | succ len ih =>
    rw [Nat.pow_succ] at h ⊢
    have high : (256 ^ len * 256 - 1 - n) / 256 = 256 ^ len - 1 - n / 256 := by omega
    have low : UInt8.ofNat (256 ^ len * 256 - 1 - n) = ~~~ UInt8.ofNat n := by
      apply UInt8.toNat_inj.mp
      rw [UInt8.toNat_not, UInt8.toNat_ofNat', UInt8.toNat_ofNat']
      simp only [UInt8.size]
      omega
    rw [ofNat, ofNat, high, low, ih (by omega), List.map_append]
    rfl

end Bytes

end StackMachine
