import StackMachine.Proofs.Digits
import StackMachine.Vm

/-!
# Options

Which texts set the verbosity, and to what. The texts are described by how they begin: blanks, a
sign, and a numeral, each as long as it can be (`Text.Begins`). No numeral is too long for that,
although numbers are computed in 64 bits: what is too large for those is out of range anyway.
`Vm.setOption_exact` says what one attempt does and what any number of them leave.
-/

namespace StackMachine

namespace Text

/-! ## Runs -/

/-- The characters with the Unicode property White_Space. -/
def whiteSpace : List Nat :=
  [0x09, 0x0a, 0x0b, 0x0c, 0x0d, 0x20, 0x85, 0xa0, 0x1680, 0x2000, 0x2001, 0x2002, 0x2003, 0x2004,
    0x2005, 0x2006, 0x2007, 0x2008, 0x2009, 0x200a, 0x2028, 0x2029, 0x202f, 0x205f, 0x3000]

/-- A character is a blank. -/
def Blank (c : Char) : Prop :=
  c.toNat ∈ whiteSpace

/-- A run of characters of a kind is as long as it can be: what follows it begins with none. -/
structure LongestRun (kind : Char → Prop) (run rest : List Char) : Prop where
  all : ∀ c ∈ run, kind c
  ends : ∀ c ∈ rest.head?, ¬ kind c

theorem isBlank_iff {c : Char} : isBlank c = true ↔ Blank c := by
  simp only [isBlank, Blank, whiteSpace, List.mem_cons, List.not_mem_nil, or_false, Bool.or_eq_true,
    Bool.and_eq_true, decide_eq_true_eq]
  omega

/-- Dropping the blanks leaves what follows the longest run of them. -/
theorem dropWhile_isBlank_eq {cs rest : List Char} :
    cs.dropWhile isBlank = rest ↔ ∃ blanks, cs = blanks ++ rest ∧ LongestRun Blank blanks rest := by
  induction cs with
  | nil =>
    constructor
    · rintro rfl
      exact ⟨[], rfl, by simp, by simp⟩
    · rintro ⟨blanks, text, -⟩
      rw [(List.append_eq_nil_iff.mp text.symm).2]
      rfl
  | cons c cs ih =>
    by_cases blank : isBlank c = true
    · rw [List.dropWhile_cons_of_pos blank, ih]
      constructor
      · rintro ⟨blanks, rfl, longest⟩
        have all := List.forall_mem_cons.mpr ⟨isBlank_iff.mp blank, longest.all⟩
        exact ⟨c :: blanks, rfl, all, longest.ends⟩
      · rintro ⟨_ | ⟨_, blanks⟩, text, longest⟩
        · cases text
          exact absurd (isBlank_iff.mp blank) (longest.ends c rfl)
        · cases text
          exact ⟨blanks, rfl, (List.forall_mem_cons.mp longest.all).2, longest.ends⟩
    · rw [List.dropWhile_cons_of_neg blank]
      constructor
      · rintro rfl
        exact ⟨[], rfl, by simp, by simpa [← isBlank_iff] using blank⟩
      · rintro ⟨_ | ⟨_, blanks⟩, text, longest⟩
        · exact text
        · cases text
          exact absurd (isBlank_iff.mpr (longest.all c List.mem_cons_self)) blank

theorem leadingDigits_of_run {radix : Nat} {values : List Nat} {run rest : List Char}
    (h : List.Forall₂ (IsDigit radix) values run) (ends : ∀ c ∈ rest.head?, ¬ IsAnyDigit radix c) :
    leadingDigits radix (run ++ rest) = values := by
  induction h with
  | nil =>
    cases rest with
    | nil => rfl
    | cons c rest =>
      have none : digitIn? radix c = none := by
        refine Option.eq_none_iff_forall_ne_some.mpr fun value read => ?_
        exact ends c rfl ⟨value, digitIn?_eq_some.mp read⟩
      rw [List.nil_append, leadingDigits, none]
  | cons digit _ ih => rw [List.cons_append, leadingDigits, digitIn?_eq_some.mpr digit, ih]

theorem run_of_leadingDigits (radix : Nat) (cs : List Char) :
    ∃ run rest, cs = run ++ rest ∧ LongestRun (IsAnyDigit radix) run rest ∧
      List.Forall₂ (IsDigit radix) (leadingDigits radix cs) run := by
  induction cs with
  | nil => exact ⟨[], [], rfl, ⟨by simp, by simp⟩, .nil⟩
  | cons c cs ih =>
    rw [leadingDigits]
    cases read : digitIn? radix c with
    | none =>
      refine ⟨[], c :: cs, rfl, ⟨by simp, ?_⟩, .nil⟩
      rintro _ ⟨⟩ ⟨value, digit⟩
      cases read.symm.trans (digitIn?_eq_some.mpr digit)
    | some value =>
      obtain ⟨run, rest, rfl, longest, values⟩ := ih
      have digit := digitIn?_eq_some.mp read
      refine ⟨c :: run, rest, rfl, ⟨?_, longest.ends⟩, .cons digit values⟩
      exact List.forall_mem_cons.mpr ⟨⟨value, digit⟩, longest.all⟩

/-! ## Numerals -/

/-- A text begins like a hexadecimal numeral: a mark with a digit behind it. -/
def MarkedHex (cs : List Char) : Prop :=
  ∃ x d rest, cs = '0' :: x :: d :: rest ∧ (x = 'x' ∨ x = 'X') ∧ IsAnyDigit 16 d

/-- A text begins with a numeral. It is the longest run of hexadecimal digits behind a mark that has
one; without such a mark the longest run of octal digits if the text begins with a zero, and the
longest run of decimal digits, of which there is one, if it does not. -/
inductive Numeral : List Char → Nat → Prop
  | hexadecimal {x : Char} {run rest : List Char} {n : Nat} (mark : x = 'x' ∨ x = 'X')
      (some : run ≠ []) (longest : LongestRun (IsAnyDigit 16) run rest) (value : Denotes 16 run n) :
      Numeral ('0' :: x :: (run ++ rest)) n
  | octal {run rest : List Char} {n : Nat} (unmarked : ¬ MarkedHex ('0' :: (run ++ rest)))
      (longest : LongestRun (IsAnyDigit 8) ('0' :: run) rest) (value : Denotes 8 ('0' :: run) n) :
      Numeral ('0' :: (run ++ rest)) n
  | decimal {c : Char} {run rest : List Char} {n : Nat} (nonzero : c ≠ '0')
      (longest : LongestRun (IsAnyDigit 10) (c :: run) rest) (value : Denotes 10 (c :: run) n) :
      Numeral (c :: (run ++ rest)) n

/-- What is read of the digits of one radix. -/
def naturalIn? (radix : Nat) (cs : List Char) : Option Nat :=
  match leadingDigits radix cs with
  | [] => none
  | ds => some (ofDigitsWithin radix ds)

theorem naturalIn?_eq_some {radix : Nat} (positive : 0 < radix) {cs : List Char} {m : Nat} :
    naturalIn? radix cs = some m ↔ ∃ run rest n, cs = run ++ rest ∧ run ≠ [] ∧
      LongestRun (IsAnyDigit radix) run rest ∧ Denotes radix run n ∧ m = min largest n := by
  have within : ∀ values, ofDigitsWithin radix values
      = min largest (Nat.ofDigits radix values.reverse) := fun values => by
    rw [ofDigitsWithin_eq positive, ofDigits_eq]
  rw [naturalIn?]
  constructor
  · intro h
    obtain ⟨run, rest, rfl, longest, values⟩ := run_of_leadingDigits radix cs
    split at h
    · cases h
    · rename_i some
      refine ⟨run, rest, _, rfl, ?_, longest, ⟨_, values, rfl⟩, ?_⟩
      · rintro rfl
        exact some (List.forall₂_nil_right_iff.mp values)
      · rw [← within]
        exact (Option.some.inj h).symm
  · rintro ⟨run, rest, n, rfl, some, longest, ⟨values, spelled, rfl⟩, rfl⟩
    rw [leadingDigits_of_run spelled longest.ends, ← within]
    cases spelled with
    | nil => exact absurd rfl some
    | cons _ _ => rfl

theorem leadingNatural?_of_marked {x : Char} {cs : List Char}
    (marked : MarkedHex ('0' :: x :: cs)) :
    leadingNatural? ('0' :: x :: cs) = naturalIn? 16 cs := by
  obtain ⟨x, d, rest, text, mark, value, digit⟩ := marked
  cases text
  have read : (digitIn? 16 d).isSome := by rw [digitIn?_eq_some.mpr digit]; rfl
  rw [leadingNatural?]
  simp only [mark, read, and_self, if_true]
  rfl

theorem leadingNatural?_of_zero {cs : List Char} (unmarked : ¬ MarkedHex ('0' :: cs)) :
    leadingNatural? ('0' :: cs) = naturalIn? 8 ('0' :: cs) := by
  rcases cs with _ | ⟨x, _ | ⟨d, rest⟩⟩
  · rfl
  · rfl
  · have none : ¬ ((x = 'x' ∨ x = 'X') ∧ (digitIn? 16 d).isSome) := by
      rintro ⟨mark, read⟩
      obtain ⟨value, read⟩ := Option.isSome_iff_exists.mp read
      exact unmarked ⟨x, d, rest, rfl, mark, value, digitIn?_eq_some.mp read⟩
    rw [leadingNatural?]
    simp only [none, if_false]
    rfl

theorem leadingNatural?_of_nonzero {cs : List Char} (nonzero : cs.head? ≠ some '0') :
    leadingNatural? cs = naturalIn? 10 cs := by
  rw [leadingNatural?.eq_def]
  split
  rename_i h
  split at h
  · exact absurd rfl nonzero
  · exact absurd rfl nonzero
  · cases h
    rfl

/-- The numeral that is read is the one that the text begins with, if it is not too large. -/
theorem leadingNatural?_eq_some {cs : List Char} {m : Nat} :
    leadingNatural? cs = some m ↔ ∃ n, Numeral cs n ∧ m = min largest n := by
  constructor
  · intro h
    by_cases marked : MarkedHex cs
    · obtain ⟨x, d, rest, rfl, mark, digit⟩ := id marked
      rw [leadingNatural?_of_marked marked, naturalIn?_eq_some (by decide)] at h
      obtain ⟨run, rest, n, text, some, longest, value, rfl⟩ := h
      rw [text]
      exact ⟨n, .hexadecimal mark some longest value, rfl⟩
    · by_cases zero : cs.head? = some '0'
      · obtain ⟨cs, rfl⟩ := List.head?_eq_some_iff.mp zero
        rw [leadingNatural?_of_zero marked, naturalIn?_eq_some (by decide)] at h
        obtain ⟨_ | ⟨_, run⟩, rest, n, text, some, longest, value, rfl⟩ := h
        · exact absurd rfl some
        · cases text
          exact ⟨n, .octal marked longest value, rfl⟩
      · rw [leadingNatural?_of_nonzero zero, naturalIn?_eq_some (by decide)] at h
        obtain ⟨_ | ⟨c, run⟩, rest, n, rfl, some, longest, value, rfl⟩ := h
        · exact absurd rfl some
        · exact ⟨n, .decimal (fun same => zero (by rw [same]; rfl)) longest value, rfl⟩
  · rintro ⟨n, numeral, rfl⟩
    cases numeral with
    | @hexadecimal x run rest _ mark some longest value =>
      have marked : MarkedHex ('0' :: x :: (run ++ rest)) := by
        obtain ⟨d, run, rfl⟩ := List.exists_cons_of_ne_nil some
        exact ⟨x, d, run ++ rest, rfl, mark, longest.all d List.mem_cons_self⟩
      rw [leadingNatural?_of_marked marked, naturalIn?_eq_some (by decide)]
      exact ⟨run, rest, n, rfl, some, longest, value, rfl⟩
    | octal unmarked longest value =>
      rw [leadingNatural?_of_zero unmarked, naturalIn?_eq_some (by decide)]
      exact ⟨_, _, n, rfl, List.cons_ne_nil _ _, longest, value, rfl⟩
    | decimal nonzero longest value =>
      rw [leadingNatural?_of_nonzero (by simpa using nonzero), naturalIn?_eq_some (by decide)]
      exact ⟨_, _, n, rfl, List.cons_ne_nil _ _, longest, value, rfl⟩

/-! ## Integers -/

/-- A text begins with a numeral behind at most one sign. -/
inductive Signed : List Char → Int → Prop
  | plain {cs : List Char} {n : Nat} (numeral : Numeral cs n) : Signed cs n
  | plus {cs : List Char} {n : Nat} (numeral : Numeral cs n) : Signed ('+' :: cs) n
  | minus {cs : List Char} {n : Nat} (numeral : Numeral cs n) : Signed ('-' :: cs) (-n)

/-- A text begins with an integer behind its blanks. -/
def Begins (s : String) (v : Int) : Prop :=
  ∃ blanks rest, s.toList = blanks ++ rest ∧ LongestRun Blank blanks rest ∧ Signed rest v

/-- The integer that is read in place of one that may be too large. -/
def nearest (v : Int) : Int :=
  max (-largest) (min largest v)

theorem nearest_natCast (n : Nat) : nearest n = (min largest n : Nat) := by
  simp only [nearest, largest]
  omega

theorem nearest_neg_natCast (n : Nat) : nearest (-n) = -((min largest n : Nat) : Int) := by
  simp only [nearest, largest]
  omega

/-- Every numeral begins with a decimal digit. -/
theorem Numeral.digit {c : Char} {cs : List Char} {n : Nat} (h : Numeral (c :: cs) n) :
    IsAnyDigit 10 c := by
  have zero : IsAnyDigit 10 '0' := ⟨0, by decide, .inl rfl⟩
  cases h with
  | hexadecimal _ _ _ _ => exact zero
  | octal _ _ _ => exact zero
  | decimal _ longest _ => exact longest.all c List.mem_cons_self

theorem not_digit_sign {c : Char} (sign : c = '-' ∨ c = '+') : ¬ IsAnyDigit 10 c := by
  rintro ⟨value, digit⟩
  rcases sign with rfl | rfl <;> cases digitIn?_eq_some.mpr digit

theorem signed_minus {cs : List Char} {v : Int} :
    Signed ('-' :: cs) v ↔ ∃ n : Nat, Numeral cs n ∧ v = -n := by
  constructor
  · rintro (numeral | numeral | numeral)
    · exact absurd numeral.digit (not_digit_sign (.inl rfl))
    · exact ⟨_, numeral, rfl⟩
  · rintro ⟨n, numeral, rfl⟩
    exact .minus numeral

theorem signed_plus {cs : List Char} {v : Int} :
    Signed ('+' :: cs) v ↔ ∃ n : Nat, Numeral cs n ∧ v = n := by
  constructor
  · rintro (numeral | numeral | numeral)
    · exact absurd numeral.digit (not_digit_sign (.inr rfl))
    · exact ⟨_, numeral, rfl⟩
  · rintro ⟨n, numeral, rfl⟩
    exact .plus numeral

theorem signed_plain {cs : List Char} {v : Int} (minus : ∀ rest, cs ≠ '-' :: rest)
    (plus : ∀ rest, cs ≠ '+' :: rest) : Signed cs v ↔ ∃ n : Nat, Numeral cs n ∧ v = n := by
  constructor
  · rintro (numeral | numeral | numeral)
    · exact ⟨_, numeral, rfl⟩
    · exact absurd rfl (plus _)
    · exact absurd rfl (minus _)
  · rintro ⟨n, numeral, rfl⟩
    exact .plain numeral

theorem begins_iff_signed {s : String} {v : Int} :
    Begins s v ↔ Signed (s.toList.dropWhile isBlank) v := by
  constructor
  · rintro ⟨blanks, rest, text, longest, signed⟩
    rwa [dropWhile_isBlank_eq.mpr ⟨blanks, text, longest⟩]
  · intro signed
    obtain ⟨blanks, text, longest⟩ := dropWhile_isBlank_eq.mp (Eq.refl (s.toList.dropWhile isBlank))
    exact ⟨blanks, _, text, longest, signed⟩

/-- A numeral is read alike whatever its sign makes of its number. -/
theorem map_leadingNatural? {sign : Nat → Int} {cs : List Char} {v : Int}
    (clips : ∀ n, nearest (sign n) = sign (min largest n)) :
    (leadingNatural? cs).map sign = some v ↔
      ∃ exact, (∃ n, Numeral cs n ∧ exact = sign n) ∧ v = nearest exact := by
  rw [Option.map_eq_some_iff]
  constructor
  · rintro ⟨m, read, rfl⟩
    obtain ⟨n, numeral, rfl⟩ := leadingNatural?_eq_some.mp read
    exact ⟨sign n, ⟨n, numeral, rfl⟩, (clips n).symm⟩
  · rintro ⟨_, ⟨n, numeral, rfl⟩, rfl⟩
    exact ⟨_, leadingNatural?_eq_some.mpr ⟨n, numeral, rfl⟩, (clips n).symm⟩

theorem leadingInteger?_eq_some {s : String} {v : Int} :
    leadingInteger? s = some v ↔ ∃ exact, Begins s exact ∧ v = nearest exact := by
  simp only [begins_iff_signed]
  rw [leadingInteger?]
  generalize s.toList.dropWhile isBlank = cs
  split
  · simp only [signed_minus]
    exact map_leadingNatural? nearest_neg_natCast
  · simp only [signed_plus]
    exact map_leadingNatural? nearest_natCast
  · rename_i minus plus
    simp only [signed_plain minus plus]
    exact map_leadingNatural? nearest_natCast

/-- A number that is read in a small range is the one that the text begins with. -/
theorem leadingInteger?_eq_some_of_small {s : String} {v : Int}
    (small : -largest < v ∧ v < largest) : leadingInteger? s = some v ↔ Begins s v := by
  rw [leadingInteger?_eq_some]
  constructor
  · rintro ⟨exact, begins, same⟩
    have unchanged : v = exact := by
      rw [nearest] at same
      omega
    rwa [unchanged]
  · intro begins
    refine ⟨v, begins, ?_⟩
    rw [nearest]
    omega

end Text

/-! ## Setting options -/

namespace Vm

/-- An attempt sets the verbosity: it names the option, and its text begins with an integer that a
machine can have. -/
def Sets (name : String) (value : Option String) (v : Int) : Prop :=
  name = "verbose" ∧ ∃ text, value = some text ∧ Text.Begins text v ∧ -1 ≤ v ∧ v ≤ 9

/-- The machine after an attempt to set an option. One that fails leaves it as it was. -/
def afterOption (vm : Vm) (setting : String × Option String) : Vm :=
  match vm.setOption setting.1 setting.2 with
  | .ok (vm, _) => vm
  | .error _ => vm

/-- A machine has a configuration but for the verbosity, which is in range. -/
def Keeps (config : Config) (vm : Vm) : Prop :=
  ∃ v, -1 ≤ v ∧ v ≤ 9 ∧ vm.config = { config with verbosity := v }

variable {vm : Vm} {name : String} {value : Option String}

theorem isVerbosity_iff {v : Int} : Config.isVerbosity v = true ↔ -1 ≤ v ∧ v ≤ 9 := by
  rw [Config.isVerbosity, decide_eq_true_eq]
  rfl

/-- Eight bits are enough for the verbosity. -/
theorem toInt_toInt8 {v : Int} (range : -1 ≤ v ∧ v ≤ 9) : v.toInt8.toInt = v :=
  Int8.toInt_ofInt_of_le (by omega) (by omega)

theorem sets_iff {v : Int} :
    Sets name value v ↔
      name = "verbose" ∧ value.bind Text.leadingInteger? = some v ∧ -1 ≤ v ∧ v ≤ 9 := by
  have read : ∀ {text}, -1 ≤ v ∧ v ≤ 9 →
      (Text.leadingInteger? text = some v ↔ Text.Begins text v) :=
    fun range => Text.leadingInteger?_eq_some_of_small (by rw [Text.largest]; omega)
  rw [Sets, and_congr_right_iff]
  rintro -
  constructor
  · rintro ⟨text, rfl, begins, range⟩
    exact ⟨(read range).mpr begins, range⟩
  · rintro ⟨bound, range⟩
    obtain ⟨text, rfl, integer⟩ := Option.bind_eq_some_iff.mp bound
    exact ⟨text, rfl, (read range).mp integer, range⟩

theorem setOption_of_sets {v : Int} (sets : Sets name value v) :
    vm.setOption name value = .ok (⟨{ vm.config with verbosity := v }⟩, .optionSet v) := by
  obtain ⟨named, read, range⟩ := sets_iff.mp sets
  have known : ¬ name ≠ verboseOption := not_not_intro named
  rw [setOption, if_neg known, read]
  simp only [isVerbosity_iff.mpr range, if_true, toInt_toInt8 range]

theorem setOption_of_other (other : name ≠ "verbose") :
    vm.setOption name value = .error (.invalidName name) :=
  if_pos other

theorem setOption_of_not_sets (named : name = "verbose") (none : ¬ ∃ v, Sets name value v) :
    vm.setOption name value = .error (.invalidValue name value) := by
  have known : ¬ name ≠ verboseOption := not_not_intro named
  rw [setOption, if_neg known]
  split
  · rfl
  · rename_i v read
    have outside : ¬ Config.isVerbosity v = true := fun range =>
      none ⟨v, sets_iff.mpr ⟨named, read, isVerbosity_iff.mp range⟩⟩
    rw [if_neg outside]

theorem setOption_eq_ok {result : Vm × Event} :
    vm.setOption name value = .ok result ↔ ∃ v, Sets name value v ∧
      result = (⟨{ vm.config with verbosity := v }⟩, .optionSet v) := by
  constructor
  · intro h
    by_cases some : ∃ v, Sets name value v
    · obtain ⟨v, sets⟩ := some
      rw [setOption_of_sets sets] at h
      exact ⟨v, sets, (Except.ok.inj h).symm⟩
    · by_cases named : name = "verbose"
      · cases (setOption_of_not_sets named some).symm.trans h
      · cases (setOption_of_other named).symm.trans h
  · rintro ⟨v, sets, rfl⟩
    exact setOption_of_sets sets

theorem setOption_eq_error {error : OptionError} :
    vm.setOption name value = .error error ↔
      name ≠ "verbose" ∧ error = .invalidName name ∨
        name = "verbose" ∧ (¬ ∃ v, Sets name value v) ∧ error = .invalidValue name value := by
  constructor
  · intro h
    by_cases named : name = "verbose"
    · have none : ¬ ∃ v, Sets name value v := by
        rintro ⟨v, sets⟩
        cases (setOption_of_sets sets).symm.trans h
      rw [setOption_of_not_sets named none] at h
      exact .inr ⟨named, none, (Except.error.inj h).symm⟩
    · rw [setOption_of_other named] at h
      exact .inl ⟨named, (Except.error.inj h).symm⟩
  · rintro (⟨other, rfl⟩ | ⟨named, none, rfl⟩)
    · exact setOption_of_other other
    · exact setOption_of_not_sets named none

/-! ## Any number of attempts -/

theorem afterOption_cases (vm : Vm) (setting : String × Option String) :
    (∃ v, Sets setting.1 setting.2 v ∧
        vm.afterOption setting = ⟨{ vm.config with verbosity := v }⟩) ∨
      (¬ ∃ v, Sets setting.1 setting.2 v) ∧ vm.afterOption setting = vm := by
  rw [afterOption]
  cases attempt : vm.setOption setting.1 setting.2 with
  | ok result =>
    obtain ⟨v, sets, rfl⟩ := setOption_eq_ok.mp attempt
    exact .inl ⟨v, sets, rfl⟩
  | error error =>
    refine .inr ⟨?_, rfl⟩
    rintro ⟨v, sets⟩
    cases (setOption_of_sets sets).symm.trans attempt

theorem Keeps.afterOption {config : Config} (h : Keeps config vm)
    (setting : String × Option String) : Keeps config (vm.afterOption setting) := by
  rcases afterOption_cases vm setting with ⟨v, sets, after⟩ | ⟨-, after⟩
  · obtain ⟨_, -, -, same⟩ := h
    obtain ⟨-, -, -, -, low, high⟩ := sets
    exact ⟨v, low, high, by rw [after, same]⟩
  · rwa [after]

theorem Keeps.afterOptions {config : Config} (h : Keeps config vm)
    (settings : List (String × Option String)) :
    Keeps config (settings.foldl Vm.afterOption vm) := by
  induction settings generalizing vm with
  | nil => exact h
  | cons setting settings ih => exact ih (h.afterOption setting)

theorem keeps_ofConfig (config : Config) : Keeps config (ofConfig config) := by
  refine ⟨_, ?_, ?_, rfl⟩
  · exact Int.le_max_left _ _
  · exact Int.max_le.mpr ⟨by decide, Int.min_le_left _ _⟩

/-- Setting an option succeeds for one name and the texts that begin with an integer in range, of
whatever length. Then the verbosity is that integer and nothing else is changed; otherwise the error
says whether the name or the value is at fault, and the machine is as before. So the verbosity stays
in range, however often options are set. -/
theorem setOption_exact :
    (∀ (vm : Vm) (name : String) (value : Option String) (result : Vm × Event),
        vm.setOption name value = .ok result ↔ ∃ v, Sets name value v ∧
          result = (⟨{ vm.config with verbosity := v }⟩, .optionSet v)) ∧
      (∀ (vm : Vm) (name : String) (value : Option String) (error : OptionError),
        vm.setOption name value = .error error ↔
          name ≠ "verbose" ∧ error = .invalidName name ∨
            name = "verbose" ∧ (¬ ∃ v, Sets name value v) ∧ error = .invalidValue name value) ∧
      (∀ (vm : Vm) (setting : String × Option String),
        (∃ v, Sets setting.1 setting.2 v ∧
            vm.afterOption setting = ⟨{ vm.config with verbosity := v }⟩) ∨
          (¬ ∃ v, Sets setting.1 setting.2 v) ∧ vm.afterOption setting = vm) ∧
      (∀ (config : Config) (settings : List (String × Option String)),
        Keeps config (settings.foldl Vm.afterOption (ofConfig config))) ∧
      ∀ settings : List (String × Option String),
        Keeps .default (settings.foldl Vm.afterOption default) := by
  refine ⟨?_, ?_, afterOption_cases, ?_, ?_⟩
  · exact fun _ _ _ _ => setOption_eq_ok
  · exact fun _ _ _ _ => setOption_eq_error
  · exact fun config settings => (keeps_ofConfig config).afterOptions settings
  · intro settings
    have fresh : Keeps .default default := ⟨0, by decide, by decide, rfl⟩
    exact fresh.afterOptions settings

example : (default.afterOption ("verbose", some " -0x1g")).config.verbosity = -1 := by
  decide

end Vm

end StackMachine
