import Mathlib.Data.List.Forall2
import Mathlib.Data.List.Induction
import Mathlib.Data.Nat.Digits.Defs
import StackMachine.Text.Hex
import StackMachine.Text.Numeral

/-!
# Digits

The digits are tabled in the order of their values, in either case, and a row of them denotes a
number in a radix. What the readers make of a character or of a byte is what the tables say, and
what they make of a row is the number it denotes, as far as 64 bits go.
-/

namespace StackMachine

/-! ## Text as bytes -/

namespace Bytes

/-- Text of ASCII characters has one byte for each. -/
theorem ofText_ascii {cs : List Char} (ascii : ∀ c ∈ cs, c.toNat < 128) :
    ofText (String.ofList cs) = cs.map Char.toUInt8 := by
  rw [ofText, String.toUTF8, String.toByteArray_ofList, List.utf8Encode,
    List.toList_data_toByteArray]
  induction cs with
  | nil => rfl
  | cons c cs ih =>
    have below : c.toNat < 128 := ascii c List.mem_cons_self
    have one : c.utf8Size = 1 :=
      Char.utf8Size_eq_one_iff.mpr (UInt32.le_iff_toNat_le.mpr (Nat.le_of_lt_succ below))
    rw [List.flatMap_cons, String.utf8EncodeChar_eq_singleton one,
      ih fun c' h => ascii c' (List.mem_cons_of_mem c h)]
    rfl

theorem ofText_append (s t : String) : ofText (s ++ t) = ofText s ++ ofText t := by
  simp [ofText, String.toUTF8]

theorem ofText_injective {s t : String} (same : ofText s = ofText t) : s = t :=
  String.toByteArray_inj.mp (ByteArray.ext (Array.toList_inj.mp same))

end Bytes

namespace Text

/-! ## The tables -/

/-- The digits in lower case, each at the place of its value. -/
def lowerDigits : List Char := "0123456789abcdefghijklmnopqrstuvwxyz".toList

/-- The digits in upper case, each at the place of its value. -/
def upperDigits : List Char := "0123456789ABCDEFGHIJKLMNOPQRSTUVWXYZ".toList

/-- A character is the digit of a value in a radix. -/
def IsDigit (radix value : Nat) (c : Char) : Prop :=
  value < radix ∧ (lowerDigits[value]? = some c ∨ upperDigits[value]? = some c)

/-- A character is some digit in a radix. -/
def IsAnyDigit (radix : Nat) (c : Char) : Prop :=
  ∃ value, IsDigit radix value c

/-- A row of digits, the most significant one first, denotes a number. -/
def Denotes (radix : Nat) (cs : List Char) (n : Nat) : Prop :=
  ∃ values, List.Forall₂ (IsDigit radix) values cs ∧ n = Nat.ofDigits radix values.reverse

/-- What holds of every entry of the tables holds of every digit. -/
theorem IsDigit.of_tables {p : Nat → Char → Prop} {radix value : Nat} {c : Char}
    (h : IsDigit radix value c)
    (lower : ∀ i : Fin 36, p i (lowerDigits.get i))
    (upper : ∀ i : Fin 36, p i (upperDigits.get i)) : p value c := by
  rcases h.2 with entry | entry
  · obtain ⟨below, rfl⟩ := List.getElem?_eq_some_iff.mp entry
    exact lower ⟨value, below⟩
  · obtain ⟨below, rfl⟩ := List.getElem?_eq_some_iff.mp entry
    exact upper ⟨value, below⟩

theorem IsDigit.ascii {radix value : Nat} {c : Char} (h : IsDigit radix value c) :
    c.toNat < 128 :=
  h.of_tables (p := fun _ c => c.toNat < 128) (by decide) (by decide)

theorem isDigit_of_mem {radix : Nat} {values : List Nat} {cs : List Char}
    (h : List.Forall₂ (IsDigit radix) values cs) {c : Char} (member : c ∈ cs) :
    IsAnyDigit radix c := by
  induction h with
  | nil => cases member
  | cons digit _ ih =>
    rcases List.mem_cons.mp member with rfl | member
    · exact ⟨_, digit⟩
    · exact ih member

theorem ofText_digits {radix : Nat} {values : List Nat} {cs : List Char}
    (h : List.Forall₂ (IsDigit radix) values cs) :
    Bytes.ofText (String.ofList cs) = cs.map Char.toUInt8 := by
  refine Bytes.ofText_ascii fun c member => ?_
  obtain ⟨value, digit⟩ := isDigit_of_mem h member
  exact digit.ascii

/-- The reader of characters knows the entries of the tables, and no other character. -/
theorem entry_of_digitValue? {c : Char} {value : Nat} (h : digitValue? c = some value) :
    lowerDigits[value]? = some c ∨ upperDigits[value]? = some c := by
  have tabled : ∀ n < 128, ∀ v ∈ digitValue? (Char.ofNat n),
      lowerDigits[v]? = some (Char.ofNat n) ∨ upperDigits[v]? = some (Char.ofNat n) := by
    decide +kernel
  have ascii : c.toNat < 128 := by
    simp only [digitValue?] at h
    split_ifs at h <;> omega
  have entry := tabled c.toNat ascii value
  rw [Char.ofNat_toNat] at entry
  exact entry h

theorem digitIn?_eq_some {radix value : Nat} {c : Char} :
    digitIn? radix c = some value ↔ IsDigit radix value c := by
  rw [digitIn?, Option.filter_eq_some_iff, decide_eq_true_eq]
  constructor
  · rintro ⟨read, below⟩
    exact ⟨below, entry_of_digitValue? read⟩
  · intro h
    exact ⟨h.of_tables (p := fun v c => digitValue? c = some v) (by decide) (by decide), h.1⟩

/-- The reader of bytes knows the hexadecimal digits. -/
theorem Hex.digitValue?_of_isDigit {value : Nat} {c : Char} (h : IsDigit 16 value c) :
    digitValue? c.toUInt8 = some value := by
  have known : value < 16 → digitValue? c.toUInt8 = some value :=
    h.of_tables (p := fun v c => v < 16 → digitValue? c.toUInt8 = some v) (by decide) (by decide)
  exact known h.1

/-- The reader of bytes knows no other byte. -/
theorem Hex.isDigit_of_digitValue? {b : UInt8} {value : Nat} (h : digitValue? b = some value) :
    IsDigit 16 value (Char.ofUInt8 b) := by
  have tabled : ∀ n < 256, ∀ v ∈ digitValue? (UInt8.ofNat n),
      v < 16 ∧ (lowerDigits[v]? = some (Char.ofUInt8 (UInt8.ofNat n)) ∨
        upperDigits[v]? = some (Char.ofUInt8 (UInt8.ofNat n))) := by
    decide +kernel
  have entry := tabled b.toNat b.toNat_lt value
  rw [UInt8.ofNat_toNat] at entry
  exact entry h

/-! ## Rows of digits -/

theorem ofDigits_append (radix : Nat) (values : List Nat) (value : Nat) :
    ofDigits radix (values ++ [value]) = ofDigits radix values * radix + value := by
  rw [ofDigits, List.foldl_append]
  rfl

theorem ofDigits_eq (radix : Nat) (values : List Nat) :
    ofDigits radix values = Nat.ofDigits radix values.reverse := by
  induction values using List.reverseRecOn with
  | nil => rfl
  | append_singleton values value ih =>
    rw [ofDigits_append, ih, List.reverse_append, List.reverse_singleton, List.singleton_append,
      Nat.ofDigits_cons, Nat.add_comm, Nat.mul_comm]

/-- Numbers that pass the largest integer on the way are read as the largest integer. -/
theorem ofDigitsWithin_eq {radix : Nat} (positive : 0 < radix) (values : List Nat) :
    ofDigitsWithin radix values = min largest (ofDigits radix values) := by
  induction values using List.reverseRecOn with
  | nil => rfl
  | append_singleton values value ih =>
    rw [ofDigits_append, ofDigitsWithin, List.foldl_append, ← ofDigitsWithin, ih]
    simp only [List.foldl_cons, List.foldl_nil]
    rcases Nat.le_total largest (ofDigits radix values) with large | small
    · have product := Nat.le_mul_of_pos_right (ofDigits radix values) positive
      have stuck := Nat.le_mul_of_pos_right largest positive
      rw [Nat.min_eq_left large]
      omega
    · rw [Nat.min_eq_right small]
      omega

end Text

end StackMachine
