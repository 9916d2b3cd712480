import StackMachine.Proofs.HexText

/-!
# Literals

Words and addresses are written as hexadecimal literals of their bytes. A reader of literals takes
all rows of digits whose number fits, in either case and with or without `0x`, and says of every
other text what is wrong with it; what it reads is written again in one normal form
(`Literal.Form`). `Literal.hex_forms` says that words and addresses have such forms, words of up to
thirty-two bytes and addresses of exactly twenty.
-/

namespace StackMachine

namespace Text

/-- The characters of a literal without one leading `0x`. -/
def unmarked : List Char → List Char
  | '0' :: 'x' :: cs => cs
  | cs => cs

/-- Rows of digits have values. -/
theorem exists_values_iff {radix : Nat} {cs : List Char} :
    (∃ values, List.Forall₂ (IsDigit radix) values cs) ↔ ∀ c ∈ cs, IsAnyDigit radix c := by
  constructor
  · rintro ⟨values, spelled⟩ c member
    exact isDigit_of_mem spelled member
  · intro digits
    induction cs with
    | nil => exact ⟨[], .nil⟩
    | cons c cs ih =>
      obtain ⟨value, digit⟩ := digits c List.mem_cons_self
      obtain ⟨values, spelled⟩ := ih fun c' member => digits c' (List.mem_cons_of_mem c member)
      exact ⟨value :: values, .cons digit spelled⟩

/-- A row of digits has no mark in front: `x` is no hexadecimal digit. -/
theorem unmarked_digits {values : List Nat} {cs : List Char}
    (h : List.Forall₂ (IsDigit 16) values cs) : unmarked cs = cs := by
  rw [unmarked.eq_def]
  split
  · rcases h with _ | ⟨-, rest⟩
    rcases rest with _ | ⟨second, -⟩
    cases digitIn?_eq_some.mpr second
  · rfl

theorem unmarked_cases (cs : List Char) :
    cs = '0' :: 'x' :: unmarked cs ∨ unmarked cs = cs := by
  rw [unmarked.eq_def]
  split
  · exact .inl rfl
  · exact .inr rfl

namespace Hex

/-! ## Writing -/

theorem isDigit_digit {value : Nat} (h : value < 16) : IsDigit 16 value (digit value) := by
  have tabled : ∀ v < 16, lowerDigits[v]? = some (digit v) := by decide
  exact ⟨h, .inl (tabled value h)⟩

/-- Digits are written in lower case. -/
theorem digit_eq_toLower {value : Nat} {c : Char} (h : IsDigit 16 value c) :
    digit value = c.toLower := by
  have known : value < 16 → digit value = c.toLower :=
    h.of_tables (p := fun v c => v < 16 → digit v = c.toLower) (by decide) (by decide)
  exact known h.1

theorem encode_eq (bs : Bytes) : encode bs = String.ofList ((nibbles bs).map digit) := by
  rw [encode, nibbles, List.map_flatMap]
  rfl

theorem nibbles_digits (bs : Bytes) :
    List.Forall₂ (IsDigit 16) (nibbles bs) ((nibbles bs).map digit) := by
  rw [List.forall₂_map_right_iff, List.forall₂_same]
  intro value member
  obtain ⟨b, -, half⟩ := List.mem_flatMap.mp member
  have byte := b.toNat_lt
  rcases List.mem_pair.mp half with rfl | rfl
  · exact isDigit_digit (by omega)
  · exact isDigit_digit (by omega)

theorem nibbles_append (bs cs : Bytes) : nibbles (bs ++ cs) = nibbles bs ++ nibbles cs :=
  List.flatMap_append

theorem nibbles_zeros (n : Nat) : nibbles (List.replicate n 0) = List.replicate (2 * n) 0 := by
  induction n with
  | zero => rfl
  | succ n ih =>
    rw [List.replicate_succ, nibbles, List.flatMap_cons, ← nibbles, ih, Nat.mul_succ]
    rfl

theorem map_digit_eq_toLower {values : List Nat} {cs : List Char}
    (h : List.Forall₂ (IsDigit 16) values cs) : values.map digit = cs.map Char.toLower := by
  induction h with
  | nil => rfl
  | cons first _ ih => rw [List.map_cons, List.map_cons, digit_eq_toLower first, ih]

end Hex

end Text

/-! ## The bytes of a literal -/

namespace Literal

open Text (Denotes IsDigit IsAnyDigit unmarked)
open Text.Hex (Spells decode dropMark encode nibbles)

theorem toList_marked (cs : List Char) :
    ("0x" ++ String.ofList cs).toList = '0' :: 'x' :: cs := by
  simp

/-- The bytes behind the mark of a literal are digits if its characters there are. -/
theorem spells_dropMark_iff {s : String} {values : List Nat} :
    Spells values (dropMark (Bytes.ofText s)) ↔
      List.Forall₂ (IsDigit 16) values (unmarked s.toList) := by
  constructor
  · intro h
    obtain ⟨cs, spelled, text⟩ := Text.Hex.spells_iff.mp h
    rw [← Text.ofText_digits spelled] at text
    rcases Text.Hex.dropMark_eq (Bytes.ofText s) with marked | bare
    · have whole : s = "0x" ++ String.ofList cs := by
        apply Bytes.ofText_injective
        rw [marked, text, Bytes.ofText_append]
        rfl
      rwa [whole, toList_marked]
    · have whole : s = String.ofList cs := Bytes.ofText_injective (bare.symm.trans text)
      rwa [whole, String.toList_ofList, Text.unmarked_digits spelled]
  · intro h
    have spelled := Text.Hex.spells_iff.mpr ⟨_, h, rfl⟩
    rw [← Text.ofText_digits h] at spelled
    rcases Text.unmarked_cases s.toList with marked | bare
    · have whole : s = "0x" ++ String.ofList (unmarked s.toList) :=
        String.toList_inj.mp (marked.trans (toList_marked _).symm)
      rw [whole, Bytes.ofText_append]
      exact spelled
    · have whole : s = String.ofList (unmarked s.toList) := by
        rw [bare, String.ofList_toList]
      rw [← whole] at spelled
      rwa [spelled.dropMark_eq]

/-- The bytes of a literal are those that its digits would be written for. -/
theorem digits_eq_ok {s : String} {bs : Bytes} :
    digits s = .ok bs ↔ List.Forall₂ (IsDigit 16) (nibbles bs) (unmarked s.toList) := by
  rw [← spells_dropMark_iff, ← Text.Hex.decode_eq_ok, digits]
  cases decode (dropMark (Bytes.ofText s)) <;> simp [Except.mapError]

/-- An even number of digits is read as bytes, and they denote the same number. -/
theorem digits_of_denotes {s : String} {n : Nat} (h : Denotes 16 (unmarked s.toList) n)
    (even : (unmarked s.toList).length % 2 = 0) : ∃ bs, digits s = .ok bs ∧ bs.toNat = n := by
  obtain ⟨values, spelled, rfl⟩ := h
  rw [← spelled.length_eq] at even
  obtain ⟨bs, decoded, -, number⟩ :=
    Text.Hex.decode_of_spells (spells_dropMark_iff.mpr spelled) even
  refine ⟨bs, ?_, number.trans (Text.ofDigits_eq 16 values)⟩
  exact digits_eq_ok.mpr (spells_dropMark_iff.mp (Text.Hex.decode_eq_ok.mp decoded))

theorem exists_digits_iff {s : String} :
    (∃ bs, digits s = .ok bs) ↔
      (unmarked s.toList).length % 2 = 0 ∧ ∀ c ∈ unmarked s.toList, IsAnyDigit 16 c := by
  rw [← Text.exists_values_iff]
  constructor
  · rintro ⟨bs, read⟩
    have spelled := digits_eq_ok.mp read
    refine ⟨?_, _, spelled⟩
    rw [← spelled.length_eq, Text.Hex.length_nibbles]
    omega
  · rintro ⟨even, values, spelled⟩
    obtain ⟨bs, read, -⟩ := digits_of_denotes ⟨values, spelled, rfl⟩ even
    exact ⟨bs, read⟩

theorem length_of_digits {s : String} {bs : Bytes} (h : digits s = .ok bs) :
    (unmarked s.toList).length = 2 * bs.length := by
  rw [← (digits_eq_ok.mp h).length_eq, Text.Hex.length_nibbles]

theorem denotes_of_digits {s : String} {bs : Bytes} (h : digits s = .ok bs) :
    Denotes 16 (unmarked s.toList) bs.toNat :=
  ⟨_, digits_eq_ok.mp h, (Text.Hex.toNat_eq_ofDigits bs).trans (Text.ofDigits_eq 16 _)⟩

/-- Bytes that do not have digits are not hexadecimal. -/
theorem invalidHex_of_digits {s : String} {error : LiteralError} (h : digits s = .error error) :
    ∃ cause, error = .invalidHex cause := by
  rw [digits] at h
  cases decoded : decode (dropMark (Bytes.ofText s)) with
  | ok bs => rw [decoded] at h; cases h
  | error cause => rw [decoded] at h; cases h; exact ⟨cause, rfl⟩

theorem digits_encode (bs : Bytes) : digits ("0x" ++ encode bs) = .ok bs := by
  rw [digits_eq_ok, Text.Hex.encode_eq, toList_marked]
  exact Text.Hex.nibbles_digits bs

/-! ## Values of fixed size -/

/-- How values of `size` bytes are read and written: from digits for a number of bytes that fits, and
with all digits in lower case. What is wrong with the digits is told before what is wrong with their
number. -/
structure Form (bits size : Nat) (fits : Nat → Prop)
    (read : String → Except LiteralError (BitVec bits)) (write : BitVec bits → String) : Prop where
  accepts (s : String) (value : BitVec bits) :
    read s = .ok value ↔ Denotes 16 (unmarked s.toList) value.toNat ∧
      ∃ n, fits n ∧ (unmarked s.toList).length = 2 * n
  invalidHex (s : String) :
    (∃ cause, read s = .error (.invalidHex cause)) ↔
      (unmarked s.toList).length % 2 = 1 ∨ ∃ c ∈ unmarked s.toList, ¬ IsAnyDigit 16 c
  invalidLength (s : String) (expected got : Nat) :
    read s = .error (.invalidLength expected got) ↔
      expected = size ∧ (unmarked s.toList).length = 2 * got ∧
        (∀ c ∈ unmarked s.toList, IsAnyDigit 16 c) ∧ ¬ fits got
  reads_written (value : BitVec bits) : read (write value) = .ok value
  normalizes (s : String) (value : BitVec bits) (accepted : read s = .ok value) :
    write value = "0x" ++ String.ofList
      (List.replicate (2 * size - (unmarked s.toList).length) '0' ++
        (unmarked s.toList).map Char.toLower)

/-- The value of bytes whose number fits. -/
def sized (size : Nat) (fits : Nat → Prop) [DecidablePred fits] (bs : Bytes) :
    Except LiteralError (BitVec (8 * size)) :=
  if fits bs.length then .ok (BitVec.ofNat (8 * size) bs.toNat)
  else .error (.invalidLength size bs.length)

section

variable {size : Nat} {fits : Nat → Prop} [DecidablePred fits]

theorem sized_eq_ok (most : ∀ n, fits n → n ≤ size) {bs : Bytes} {value : BitVec (8 * size)} :
    sized size fits bs = .ok value ↔ fits bs.length ∧ value.toNat = bs.toNat := by
  rw [sized]
  split
  · rename_i enough
    have below : bs.toNat < 2 ^ (8 * size) := by
      rw [Nat.pow_mul]
      exact Nat.lt_of_lt_of_le bs.toNat_lt (Nat.pow_le_pow_right (by decide) (most _ enough))
    have number : (BitVec.ofNat (8 * size) bs.toNat).toNat = bs.toNat := by
      rw [BitVec.toNat_ofNat, Nat.mod_eq_of_lt below]
    rw [Except.ok.injEq, ← BitVec.toNat_inj, number, eq_comm]
    exact (and_iff_right enough).symm
  · rename_i short
    simp [short]

theorem sized_eq_error {bs : Bytes} {error : LiteralError} :
    sized size fits bs = .error error ↔
      ¬ fits bs.length ∧ error = .invalidLength size bs.length := by
  rw [sized]
  split
  · rename_i enough
    simp [enough]
  · rename_i short
    simp [short, eq_comm]

/-- Digits are written for a value as they were read, behind zeros and in lower case. -/
theorem encode_of_digits {s : String} {bs : Bytes} (h : digits s = .ok bs)
    (short : bs.length ≤ size) :
    encode (Bytes.ofNat size bs.toNat) = String.ofList
      (List.replicate (2 * size - (unmarked s.toList).length) '0' ++
        (unmarked s.toList).map Char.toLower) := by
  have zeros : 2 * (size - bs.length) = 2 * size - (unmarked s.toList).length := by
    rw [length_of_digits h]
    omega
  rw [Bytes.ofNat_toNat_short short, Text.Hex.encode_eq, Text.Hex.nibbles_append,
    Text.Hex.nibbles_zeros, List.map_append, List.map_replicate, zeros,
    Text.Hex.map_digit_eq_toLower (digits_eq_ok.mp h)]
  rfl

/-- Reads a value in two steps: its digits, then as many bytes as fit. -/
def readSized (size : Nat) (fits : Nat → Prop) [DecidablePred fits] (s : String) :
    Except LiteralError (BitVec (8 * size)) :=
  digits s >>= sized size fits

theorem readSized_eq_ok (most : ∀ n, fits n → n ≤ size) {s : String} {value : BitVec (8 * size)} :
    readSized size fits s = .ok value ↔
      ∃ bs, digits s = .ok bs ∧ fits bs.length ∧ value.toNat = bs.toNat := by
  rw [readSized]
  cases digits s with
  | error error => simp [bind, Except.bind]
  | ok bs =>
    simp only [Except.ok.injEq, exists_eq_left']
    exact sized_eq_ok most

theorem readSized_eq_error {s : String} {error : LiteralError} :
    readSized size fits s = .error error ↔ digits s = .error error ∨
      ∃ bs, digits s = .ok bs ∧ ¬ fits bs.length ∧ error = .invalidLength size bs.length := by
  rw [readSized]
  cases digits s with
  | error other => simp [bind, Except.bind]
  | ok bs =>
    simp only [Except.ok.injEq, exists_eq_left', reduceCtorEq, false_or]
    exact sized_eq_error

/-- What is read in these two steps, and is written with all of its bytes, has this form. -/
theorem form_of_sized {write : BitVec (8 * size) → String} (whole : fits size)
    (most : ∀ n, fits n → n ≤ size)
    (writes : ∀ value, write value = "0x" ++ encode (Bytes.ofNat size value.toNat)) :
    Form (8 * size) size fits (readSized size fits) write where
  accepts s value := by
    rw [readSized_eq_ok most]
    constructor
    · rintro ⟨bs, read, enough, number⟩
      rw [number]
      exact ⟨denotes_of_digits read, bs.length, enough, length_of_digits read⟩
    · rintro ⟨denotes, n, enough, length⟩
      obtain ⟨bs, read, number⟩ := digits_of_denotes denotes (by omega)
      have same : bs.length = n := by
        have := length_of_digits read
        omega
      exact ⟨bs, read, same.symm ▸ enough, number.symm⟩
  invalidHex s := by
    have bad : (∃ cause, readSized size fits s = .error (.invalidHex cause)) ↔
        ¬ ∃ bs, digits s = .ok bs := by
      simp only [readSized_eq_error, reduceCtorEq, and_false, exists_false, or_false]
      cases read : digits s with
      | ok bs => simp
      | error error =>
        obtain ⟨cause, rfl⟩ := invalidHex_of_digits read
        simp
    rw [bad, exists_digits_iff, not_and_or]
    simp only [not_forall, exists_prop, Nat.mod_two_not_eq_zero]
  invalidLength s expected got := by
    rw [readSized_eq_error]
    constructor
    · rintro (read | ⟨bs, read, misfit, same⟩)
      · obtain ⟨cause, same⟩ := invalidHex_of_digits read
        cases same
      · cases same
        exact ⟨rfl, length_of_digits read, (exists_digits_iff.mp ⟨bs, read⟩).2, misfit⟩
    · rintro ⟨rfl, length, all, misfit⟩
      obtain ⟨bs, read⟩ := exists_digits_iff.mpr ⟨by omega, all⟩
      have same : bs.length = got := by
        have := length_of_digits read
        omega
      exact .inr ⟨bs, read, same.symm ▸ misfit, same ▸ rfl⟩
  reads_written value := by
    have small : value.toNat < 256 ^ size := by
      have bound := value.isLt
      rwa [Nat.pow_mul] at bound
    rw [readSized_eq_ok most]
    refine ⟨_, (writes value).symm ▸ digits_encode _, ?_, ?_⟩
    · rwa [Bytes.length_ofNat]
    · rw [Bytes.toNat_ofNat, Nat.mod_eq_of_lt small]
  normalizes s value accepted := by
    obtain ⟨bs, read, enough, number⟩ := (readSized_eq_ok most).mp accepted
    rw [writes, number, encode_of_digits read (most _ enough)]

end

/-- Words are read from up to sixty-four hexadecimal digits, an even number of them, and addresses
from exactly forty. -/
theorem hex_forms :
    Form 256 32 (· ≤ 32) Word.ofHex Word.toHex ∧ Form 160 20 (· = 20) Address.ofHex Address.toHex := by
  constructor
  · have reads : Word.ofHex = readSized 32 (· ≤ 32) := by
      funext s
      rw [Word.ofHex, readSized]
      congr 1
      funext bs
      rw [Word.ofBigEndian, sized, atMost]
      split <;> rfl
    rw [reads]
    exact @form_of_sized 32 (· ≤ 32) _ Word.toHex (Nat.le_refl 32) (fun _ h => h) fun _ => rfl
  · have reads : Address.ofHex = readSized 20 (· = 20) := by
      funext s
      rw [Address.ofHex, readSized]
      congr 1
      funext bs
      rw [Address.ofBytes, sized, exactly]
      split <;> rfl
    rw [reads]
    exact @form_of_sized 20 (· = 20) _ Address.toHex rfl (fun _ h => Nat.le_of_eq h) fun _ => rfl

example : Word.ofHex "0x0x12" = .error (.invalidHex (.badDigit 0x78 1)) := by decide

example : Word.ofHex "0xaB" = .ok 0xab := by decide

end Literal

end StackMachine
