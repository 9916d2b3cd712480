import StackMachine.Fixture.Document
import StackMachine.Proofs.Arithmetic
import StackMachine.Proofs.Digits

/-!
# Hexadecimal text

What texts are read as byte strings and words. A byte string is read from the digits that it is
written with (`Text.Hex.decode_eq_ok`), of which there is an even number, and they denote the number
that its bytes do. For a word a zero goes in front of an odd number of digits, and a mark is dropped
both before and after that: `Fixture.asWord_eq_ok` says which texts this lets through.
-/

namespace StackMachine

namespace Text.Hex

/-! ## Digits as bytes -/

/-- The bytes of a text are digits of the given values. -/
def Spells (values : List Nat) (text : Bytes) : Prop :=
  List.Forall₂ (fun value b => digitValue? b = some value) values text

theorem Spells.length_eq {values : List Nat} {text : Bytes} (h : Spells values text) :
    values.length = text.length :=
  List.Forall₂.length_eq h

/-- Bytes that are digits are the bytes of characters that are. -/
theorem spells_iff {values : List Nat} {text : Bytes} :
    Spells values text ↔
      ∃ cs : List Char, List.Forall₂ (IsDigit 16) values cs ∧ text = cs.map Char.toUInt8 := by
  constructor
  · intro h
    induction h with
    | nil => exact ⟨[], .nil, rfl⟩
    | @cons value b _ _ digit _ ih =>
      obtain ⟨cs, spelled, rfl⟩ := ih
      have same : (Char.ofUInt8 b).toUInt8 = b := b.toUInt8_toUInt32
      exact ⟨Char.ofUInt8 b :: cs, .cons (isDigit_of_digitValue? digit) spelled, by
        rw [List.map_cons, same]⟩
  · rintro ⟨cs, spelled, rfl⟩
    induction spelled with
    | nil => exact .nil
    | cons digit _ ih => exact .cons (digitValue?_of_isDigit digit) ih

/-! ## Pairs of digits -/

theorem digitValue?_lt {b : UInt8} {value : Nat} (h : digitValue? b = some value) : value < 16 :=
  (isDigit_of_digitValue? h).1

/-- The values of the digits that a byte string is written with, two for each byte. -/
def nibbles (bs : Bytes) : List Nat :=
  bs.flatMap fun b => [b.toNat / 16, b.toNat % 16]

theorem nibbles_cons (b : UInt8) (bs : Bytes) :
    nibbles (b :: bs) = b.toNat / 16 :: b.toNat % 16 :: nibbles bs := rfl

theorem nibbles_pair {high low : Nat} (high16 : high < 16) (low16 : low < 16) (bs : Bytes) :
    nibbles (UInt8.ofNat (16 * high + low) :: bs) = high :: low :: nibbles bs := by
  have byte : (UInt8.ofNat (16 * high + low)).toNat = 16 * high + low := by
    rw [UInt8.toNat_ofNat']
    omega
  have top : (16 * high + low) / 16 = high := by omega
  have bottom : (16 * high + low) % 16 = low := by omega
  rw [nibbles_cons, byte, top, bottom]

theorem length_nibbles (bs : Bytes) : (nibbles bs).length = 2 * bs.length := by
  induction bs with
  | nil => rfl
  | cons b bs ih =>
    rw [nibbles_cons, List.length_cons, List.length_cons, List.length_cons, ih]
    omega

/-- The number of a byte string is the one that its digits denote. -/
theorem toNat_eq_ofDigits (bs : Bytes) : bs.toNat = ofDigits 16 (nibbles bs) := by
  have folds : ∀ n, bs.foldl (fun n b => n * 256 + b.toNat) n
      = (nibbles bs).foldl (fun n d => n * 16 + d) n := by
    induction bs with
    | nil => exact fun _ => rfl
    | cons b bs ih =>
      intro n
      have pair : n * 256 + b.toNat = (n * 16 + b.toNat / 16) * 16 + b.toNat % 16 := by omega
      rw [nibbles_cons, List.foldl_cons, List.foldl_cons, List.foldl_cons, pair, ih]
  exact folds 0

theorem Spells.exists_nibbles {values : List Nat} {text : Bytes} (h : Spells values text)
    (even : values.length % 2 = 0) : ∃ bs, nibbles bs = values := by
  induction values using List.twoStepInduction generalizing text with
  | nil => exact ⟨[], rfl⟩
  | singleton => cases even
  | cons_cons high low rest ih _ =>
    rcases h with _ | ⟨first, h⟩
    rcases h with _ | ⟨second, h⟩
    rw [List.length_cons, List.length_cons] at even
    obtain ⟨bs, rfl⟩ := ih h (by omega)
    exact ⟨_, nibbles_pair (digitValue?_lt first) (digitValue?_lt second) bs⟩

theorem spells_of_decodePairs {position : Nat} {text bs : Bytes}
    (h : decodePairs position text = .ok bs) : Spells (nibbles bs) text := by
  fun_induction decodePairs position text generalizing bs with
  | case1 => cases h; exact .nil
  | case2 => cases h
  | case3 => cases h
  | case4 => cases h
  | case5 position high low rest vh high' vl low' ih =>
    cases decoded : decodePairs (position + 2) rest with
    | error _ => rw [decoded] at h; cases h
    | ok tail =>
      rw [decoded] at h
      cases h
      rw [nibbles_pair (digitValue?_lt high') (digitValue?_lt low')]
      exact .cons high' (.cons low' (ih decoded))

theorem decodePairs_of_spells {bs text : Bytes} (h : Spells (nibbles bs) text) (position : Nat) :
    decodePairs position text = .ok bs := by
  induction bs generalizing text position with
  | nil =>
    cases h
    rfl
  | cons b bs ih =>
    rcases h with _ | ⟨high, rest⟩
    rcases rest with _ | ⟨low, rest⟩
    have byte : UInt8.ofNat (16 * (b.toNat / 16) + b.toNat % 16) = b := by
      rw [Nat.div_add_mod, UInt8.ofNat_toNat]
    simp only [decodePairs, high, low, ih rest, Except.map, byte]

/-- A byte string is read from the digits that it is written with, and from no others. -/
theorem decode_eq_ok {text bs : Bytes} : decode text = .ok bs ↔ Spells (nibbles bs) text := by
  constructor
  · intro h
    rw [decode] at h
    split at h
    · cases h
    · exact spells_of_decodePairs h
  · intro h
    have even : ¬ text.length % 2 = 1 := by
      rw [← h.length_eq, length_nibbles]
      omega
    rw [decode, if_neg even, decodePairs_of_spells h]

/-- A byte string is read from any even number of digits, and is the number that those denote. -/
theorem decode_of_spells {values : List Nat} {text : Bytes} (h : Spells values text)
    (even : values.length % 2 = 0) :
    ∃ bs, decode text = .ok bs ∧ values.length = 2 * bs.length ∧
      bs.toNat = ofDigits 16 values := by
  obtain ⟨bs, rfl⟩ := h.exists_nibbles even
  exact ⟨bs, decode_eq_ok.mpr h, length_nibbles bs, toNat_eq_ofDigits bs⟩

/-! ## Marks -/

theorem dropMark_eq (text : Bytes) :
    text = 0x30 :: 0x78 :: dropMark text ∨ dropMark text = text := by
  rw [dropMark.eq_def]
  split
  · exact .inl rfl
  · exact .inr rfl

/-- Digits have no mark in front of them: its second byte is no digit. -/
theorem Spells.dropMark_eq {values : List Nat} {text : Bytes} (h : Spells values text) :
    dropMark text = text := by
  rcases Hex.dropMark_eq text with marked | bare
  · rw [marked] at h
    rcases h with _ | ⟨-, rest⟩
    rcases rest with _ | ⟨second, -⟩
    cases second
  · exact bare

/-- What stands in front of the digits of a word: nothing or `0x`. -/
def marks : List String := ["", "0x"]

/-- What else is passed over in front of the digits of a word. In front of an odd number of bytes
goes a zero, which makes a mark of an `x`, and the mark that is left then is dropped like the
first. -/
def strayMarks : List String := ["x", "0xx", "0x0x"]

/-- The text that is left of a word when pairs of digits are read. -/
def digitsOfWord (text : Bytes) : Bytes :=
  let digits := dropMark text
  dropMark (if digits.length % 2 = 1 then 0x30 :: digits else digits)

theorem digitsOfWord_of_mark {values : List Nat} {digits : Bytes} {mark : String}
    (h : Spells values digits) (marked : mark ∈ marks) :
    digitsOfWord (Bytes.ofText mark ++ digits)
      = if digits.length % 2 = 1 then 0x30 :: digits else digits := by
  have dropped : dropMark (Bytes.ofText mark ++ digits) = digits := by
    rcases List.mem_pair.mp marked with rfl | rfl
    · exact h.dropMark_eq
    · rfl
  have zero : Spells (0 :: values) (0x30 :: digits) := .cons rfl h
  rw [digitsOfWord, dropped]
  split
  · exact zero.dropMark_eq
  · exact h.dropMark_eq

theorem digitsOfWord_of_strayMark {digits : Bytes} {mark : String} (even : digits.length % 2 = 0)
    (marked : mark ∈ strayMarks) : digitsOfWord (Bytes.ofText mark ++ digits) = digits := by
  have odd : (0x78 :: digits).length % 2 = 1 := by
    rw [List.length_cons]
    omega
  have even' : ¬ (0x30 :: 0x78 :: digits).length % 2 = 1 := by
    rw [List.length_cons, List.length_cons]
    omega
  rcases List.mem_cons.mp marked with rfl | marked
  · have dropped : dropMark (Bytes.ofText "x" ++ digits) = 0x78 :: digits := rfl
    rw [digitsOfWord, dropped, if_pos odd]
    rfl
  rcases List.mem_pair.mp marked with rfl | rfl
  · have dropped : dropMark (Bytes.ofText "0xx" ++ digits) = 0x78 :: digits := rfl
    rw [digitsOfWord, dropped, if_pos odd]
    rfl
  · have dropped : dropMark (Bytes.ofText "0x0x" ++ digits) = 0x30 :: 0x78 :: digits := rfl
    rw [digitsOfWord, dropped, if_neg even']
    rfl

theorem mark_of_digitsOfWord (text : Bytes) :
    (∃ mark, (mark ∈ marks ∨ mark ∈ strayMarks) ∧ text = Bytes.ofText mark ++ digitsOfWord text) ∨
      ∃ mark digits, mark ∈ marks ∧ digitsOfWord text = 0x30 :: digits ∧
        text = Bytes.ofText mark ++ digits := by
  have first := dropMark_eq text
  rw [digitsOfWord]
  generalize once : dropMark text = digits at first ⊢
  by_cases odd : digits.length % 2 = 1
  · rw [if_pos odd]
    rcases dropMark_eq (0x30 :: digits) with made | none
    · -- The zero in front completes a mark.
      injection made with _ rest
      left
      rcases first with marked | bare
      · exact ⟨"0xx", .inr (by decide), by rw [marked, rest]; rfl⟩
      · exact ⟨"x", .inr (by decide), by rw [← bare, rest]; rfl⟩
    · rw [none]
      right
      rcases first with marked | bare
      · exact ⟨"0x", digits, by decide, rfl, marked⟩
      · exact ⟨"", digits, by decide, rfl, bare.symm⟩
  · rw [if_neg odd]
    left
    rcases dropMark_eq digits with again | none
    · rcases first with marked | bare
      · exact ⟨"0x0x", .inr (by decide), by rw [marked, again]; rfl⟩
      · -- A text that begins with a mark has lost it by now.
        rw [← bare] at once
        rw [once] at again
        have length := congrArg List.length again
        rw [List.length_cons, List.length_cons] at length
        omega
    · rw [none]
      rcases first with marked | bare
      · exact ⟨"0x", .inl (by decide), marked⟩
      · exact ⟨"", .inl (by decide), bare.symm⟩

end Text.Hex

/-! ## Words -/

theorem Word.ofBigEndian_eq_ok {bs : Bytes} {w : Word} :
    ofBigEndian bs = .ok w ↔ bs.length ≤ 32 ∧ w.value = bs.toNat := by
  rw [ofBigEndian, Literal.atMost]
  split
  · rename_i short
    have small : bs.toNat < 2 ^ 256 :=
      Nat.lt_of_lt_of_le bs.toNat_lt (Nat.pow_le_pow_right (by decide) short)
    have value := value_ofNat small
    simp only [Except.map, Except.ok.injEq, short, true_and]
    constructor
    · rintro rfl
      exact value
    · intro same
      rw [← same, ofNat_value]
  · rename_i long
    simp [Except.map, long]

namespace Text.Hex

/-- A word is the number that an even number of digits denote, sixty-four of them at most. -/
theorem wordOfText_eq_ok_iff_spells {s : String} {w : Word} :
    wordOfText s = .ok w ↔ ∃ values, Spells values (digitsOfWord (Bytes.ofText s)) ∧
      values.length % 2 = 0 ∧ values.length ≤ 64 ∧ w.value = ofDigits 16 values := by
  have read : wordOfText s
      = (decode (digitsOfWord (Bytes.ofText s))).mapError .invalidHex >>= Word.ofBigEndian := rfl
  constructor
  · intro h
    cases decoded : decode (digitsOfWord (Bytes.ofText s)) with
    | error e => rw [read, decoded] at h; cases h
    | ok bs =>
      rw [read, decoded] at h
      obtain ⟨short, value⟩ := Word.ofBigEndian_eq_ok.mp h
      have length := length_nibbles bs
      exact ⟨nibbles bs, decode_eq_ok.mp decoded, by omega, by omega,
        value.trans (toNat_eq_ofDigits bs)⟩
  · rintro ⟨values, spelled, even, short, value⟩
    obtain ⟨bs, decoded, length, same⟩ := decode_of_spells spelled even
    rw [read, decoded]
    exact Word.ofBigEndian_eq_ok.mpr ⟨by omega, value.trans same.symm⟩

/-- A word is read from at most sixty-four digits behind a mark, and is the number they denote. If
the mark is a stray one, the number of digits has to be even. -/
theorem wordOfText_eq_ok {s : String} {w : Word} :
    wordOfText s = .ok w ↔ ∃ mark digits values, Bytes.ofText s = Bytes.ofText mark ++ digits ∧
      Spells values digits ∧ values.length ≤ 64 ∧ w.value = ofDigits 16 values ∧
      (mark ∈ marks ∨ mark ∈ strayMarks ∧ values.length % 2 = 0) := by
  rw [wordOfText_eq_ok_iff_spells]
  constructor
  · rintro ⟨values, spelled, even, short, value⟩
    rcases mark_of_digitsOfWord (Bytes.ofText s) with
      ⟨mark, known, text⟩ | ⟨mark, digits, known, zero, text⟩
    · exact ⟨mark, _, values, text, spelled, short, value,
        known.imp_right fun stray => ⟨stray, even⟩⟩
    · rw [zero] at spelled
      rcases spelled with _ | @⟨first, _, values, _, digit, rest⟩
      cases digit
      exact ⟨mark, digits, values, text, rest, Nat.le_of_succ_le short, value, .inl known⟩
  · rintro ⟨mark, digits, values, text, spelled, short, value, known⟩
    have length := spelled.length_eq
    rw [text]
    by_cases even : values.length % 2 = 0
    · have same : digitsOfWord (Bytes.ofText mark ++ digits) = digits := by
        rcases known with marked | ⟨stray, -⟩
        · rw [digitsOfWord_of_mark spelled marked, if_neg (by omega)]
        · exact digitsOfWord_of_strayMark (length ▸ even) stray
      exact ⟨values, same.symm ▸ spelled, even, short, value⟩
    · have marked : mark ∈ marks := known.resolve_right fun stray => even stray.2
      have same := digitsOfWord_of_mark spelled marked
      rw [if_pos (by omega)] at same
      refine ⟨0 :: values, same.symm ▸ .cons rfl spelled, ?_, ?_, value⟩
      · rw [List.length_cons]
        omega
      · rw [List.length_cons]
        omega

end Text.Hex

namespace Fixture

open Text (Denotes)
open Text.Hex (marks strayMarks)

/-- JSON text is read as a word if it is at most sixty-four hexadecimal digits behind an optional
`0x`, and as the number that they denote. It is also read if an even number of digits stands behind
a stray mark. -/
theorem asWord_eq_ok {s : String} {w : Word} :
    asWord (.str s) = .ok w ↔ ∃ mark cs, s = mark ++ String.ofList cs ∧
      Denotes 16 cs w.value ∧ cs.length ≤ 64 ∧
      (mark ∈ marks ∨ mark ∈ strayMarks ∧ cs.length % 2 = 0) := by
  have read : asWord (.str s) = .ok w ↔ Text.Hex.wordOfText s = .ok w := by
    change (Text.Hex.wordOfText s).mapError _ = .ok w ↔ _
    cases Text.Hex.wordOfText s <;> simp [Except.mapError]
  rw [read, Text.Hex.wordOfText_eq_ok]
  constructor
  · rintro ⟨mark, digits, values, text, spelled, short, value, known⟩
    obtain ⟨cs, chars, rfl⟩ := Text.Hex.spells_iff.mp spelled
    rw [chars.length_eq] at short known
    refine ⟨mark, cs, ?_, ⟨values, chars, value.trans (Text.ofDigits_eq 16 values)⟩, short, known⟩
    apply Bytes.ofText_injective
    rw [text, Bytes.ofText_append, Text.ofText_digits chars]
  · rintro ⟨mark, cs, rfl, ⟨values, chars, value⟩, short, known⟩
    rw [← chars.length_eq] at short known
    refine ⟨mark, _, values, ?_, Text.Hex.spells_iff.mpr ⟨cs, chars, rfl⟩, short,
      value.trans (Text.ofDigits_eq 16 values).symm, known⟩
    rw [Bytes.ofText_append, Text.ofText_digits chars]

/-- A second mark is dropped like the first, though it is none of the digits of a word. -/
theorem asWord_second_mark :
    asWord (.str "0x0x12") = .ok 0x12 ∧
      ¬ ∃ mark cs n, mark ∈ marks ∧ "0x0x12" = mark ++ String.ofList cs ∧ Denotes 16 cs n := by
  refine ⟨rfl, ?_⟩
  rintro ⟨mark, cs, n, marked, text, values, chars, -⟩
  have chars' : (mark ++ String.ofList cs).toList = mark.toList ++ cs := by
    rw [String.toList_append, String.toList_ofList]
  have text' := (congrArg String.toList text).trans chars'
  have member : 'x' ∈ cs := by
    rcases List.mem_pair.mp marked with rfl | rfl
    · have all : "0x0x12".toList = cs := text'
      rw [← all]
      decide
    · have rest : "0x0x12".toList.drop 2 = cs := congrArg (List.drop 2) text'
      rw [← rest]
      decide
  obtain ⟨value, digit⟩ := Text.isDigit_of_mem chars member
  cases Text.digitIn?_eq_some.mpr digit

end Fixture

end StackMachine
