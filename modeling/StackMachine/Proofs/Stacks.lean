import StackMachine.Stack

/-!
# Stacks

When the calls of a stack succeed and when they fail, and what the check of an operation's arity
promises: the operands are there, and there is room for what replaces them.
-/

namespace StackMachine

namespace Stack

variable {s : Stack}

/-! ## Calls that succeed -/

theorem push_eq_ok {t : Stack} {w : Word} :
    s.push w = .ok t ↔ s.size < stackLimit ∧ t = ⟨w :: s.items⟩ := by
  by_cases h : s.size < stackLimit <;> simp [push, h, eq_comm]

theorem dup_eq_ok {t : Stack} {n : Nat} :
    s.dup n = .ok t ↔ s.size < stackLimit ∧
      ∃ m w, n = m + 1 ∧ s.items[m]? = some w ∧ t = ⟨w :: s.items⟩ := by
  cases n with
  | zero => simp [dup]
  | succ m => cases hw : s.items[m]? <;> simp [dup, hw, push_eq_ok]

theorem swap_eq_ok {t : Stack} {n : Nat} :
    s.swap n = .ok t ↔ ∃ m top w rest, n = m + 1 ∧ s.items = top :: rest ∧
      rest[m]? = some w ∧ t = ⟨w :: rest.set m top⟩ := by
  cases n with
  | zero => simp [swap]
  | succ m =>
    cases hs : s.items with
    | nil => simp [swap, hs]
    | cons top rest =>
      cases hw : rest[m]? with
      | none => simp [swap, hs, hw]
      | some w =>
        simp only [swap, hs, hw, Except.ok.injEq]
        constructor
        · rintro rfl
          exact ⟨m, top, w, rest, rfl, rfl, hw, rfl⟩
        · rintro ⟨m', top', w', rest', hm, hr, hw', rfl⟩
          cases hm
          cases hr
          rw [hw] at hw'
          cases hw'
          rfl

theorem pop_eq_ok {t : Stack} {w : Word} : s.pop = .ok (w, t) ↔ s.items = w :: t.items := by
  cases items : s.items with
  | nil => simp [pop, items]
  | cons top rest =>
    cases t
    simp [pop, items]

theorem peek_eq_ok {depth : Nat} {w : Word} : s.peek depth = .ok w ↔ s.items[depth]? = some w := by
  cases item : s.items[depth]? <;> simp [peek, item]

/-! ## Calls that fail -/

theorem push_eq_error {w : Word} {error : VmError} :
    s.push w = .error error ↔ stackLimit ≤ s.size ∧ error = .stackOverflow := by
  by_cases room : s.size < stackLimit
  · simp [push, room, Nat.not_le.mpr room]
  · simp [push, room, Nat.not_lt.mp room, eq_comm]

theorem pop_eq_error {error : VmError} :
    s.pop = .error error ↔ s.size = 0 ∧ error = .stackUnderflow := by
  cases items : s.items <;> simp [pop, size, items, eq_comm]

theorem peek_eq_error {depth : Nat} {error : VmError} :
    s.peek depth = .error error ↔ s.size ≤ depth ∧ error = .stackUnderflow := by
  rw [size, ← List.getElem?_eq_none_iff]
  cases item : s.items[depth]? <;> simp [peek, item, eq_comm]

/-- A copy of a word that is not there is refused first, whether there is room or not. -/
theorem dup_eq_error {n : Nat} {error : VmError} :
    s.dup n = .error error ↔
      (n = 0 ∨ s.size < n) ∧ error = .stackUnderflow ∨
        ¬ (n = 0 ∨ s.size < n) ∧ stackLimit ≤ s.size ∧ error = .stackOverflow := by
  cases n with
  | zero => simp [dup, eq_comm]
  | succ m =>
    cases item : s.items[m]? with
    | none =>
      have past : s.size < m + 1 := Nat.lt_succ_of_le (List.getElem?_eq_none_iff.mp item)
      simp only [dup, item, past, or_true, not_true, false_and, or_false, true_and,
        Except.error.injEq]
      exact eq_comm
    | some w =>
      obtain ⟨within, -⟩ := List.getElem?_eq_some_iff.mp item
      have enough : ¬ s.size < m + 1 := Nat.not_lt.mpr within
      simp [dup, item, enough, push_eq_error]

theorem swap_eq_error {n : Nat} {error : VmError} :
    s.swap n = .error error ↔ (n = 0 ∨ s.size ≤ n) ∧ error = .stackUnderflow := by
  cases n with
  | zero => simp [swap, eq_comm]
  | succ m =>
    cases items : s.items with
    | nil => simp [swap, size, items, eq_comm]
    | cons top rest =>
      have size : s.size = rest.length + 1 := by simp [size, items]
      cases item : rest[m]? with
      | none =>
        have past : rest.length ≤ m := List.getElem?_eq_none_iff.mp item
        simp [swap, items, size, past, eq_comm]
      | some w =>
        obtain ⟨within, -⟩ := List.getElem?_eq_some_iff.mp item
        simp [swap, items, size, within, Nat.not_le.mpr within]

/-! ## Stacks with room -/

theorem require_eq_ok {inputs outputs : Nat} :
    s.require inputs outputs = .ok () ↔
      inputs ≤ s.size ∧ ¬ (inputs < outputs ∧ stackLimit < s.size - inputs + outputs) := by
  by_cases short : s.size < inputs
  · simp only [require, if_pos short, reduceCtorEq, false_iff]
    omega
  · by_cases past : inputs < outputs ∧ stackLimit < s.size - inputs + outputs
    · simp only [require, if_neg short, if_pos past, reduceCtorEq, false_iff]
      omega
    · simp only [require, if_neg short, if_neg past, true_iff]
      exact ⟨Nat.not_lt.mp short, past⟩

/-- A stack that has room for an operation holds the words that the operation takes. -/
theorem inputs_le_of_require {inputs outputs : Nat}
    (h : s.require inputs outputs = .ok ()) : inputs ≤ s.size :=
  (require_eq_ok.mp h).1

theorem size_lt_of_require {n : Nat} (h : s.require n (n + 1) = .ok ()) : s.size < stackLimit := by
  obtain ⟨enough, room⟩ := require_eq_ok.mp h
  omega

/-- The check of a stack that is within the limit leaves no doubt about either end. -/
theorem fits_of_require {inputs outputs : Nat} (h : s.require inputs outputs = .ok ())
    (fits : s.size ≤ stackLimit) :
    ¬ s.size < inputs ∧ ¬ stackLimit < s.size - inputs + outputs := by
  obtain ⟨enough, room⟩ := require_eq_ok.mp h
  omega

/-- What puts no more words on a stack than it takes needs no room. -/
theorem require_of_le {inputs outputs : Nat} (enough : inputs ≤ s.size) (less : outputs ≤ inputs) :
    s.require inputs outputs = .ok () :=
  require_eq_ok.mpr ⟨enough, fun grows => Nat.not_lt.mpr less grows.1⟩

/-- Missing words are reported before missing room. -/
theorem require_refused {inputs outputs : Nat} {error : VmError}
    (h : s.require inputs outputs = .error error) :
    s.size < inputs ∧ error = .stackUnderflow ∨
      ¬ s.size < inputs ∧ stackLimit < s.size - inputs + outputs ∧ error = .stackOverflow := by
  unfold require at h
  split at h
  · cases h
    exact .inl ⟨‹_›, rfl⟩
  · split at h
    · rename_i enough past
      cases h
      exact .inr ⟨enough, past.2, rfl⟩
    · cases h

/-- A stack within the limit is refused just for missing words, or else for missing room. -/
theorem require_eq_error (fits : s.size ≤ stackLimit) {inputs outputs : Nat} {error : VmError} :
    s.require inputs outputs = .error error ↔
      s.size < inputs ∧ error = .stackUnderflow ∨
        ¬ s.size < inputs ∧ stackLimit < s.size - inputs + outputs ∧ error = .stackOverflow := by
  refine ⟨require_refused, ?_⟩
  rintro (⟨short, rfl⟩ | ⟨enough, past, rfl⟩)
  · rw [require, if_pos short]
  · -- A stack comes to be past the limit only by growing, since it was within it.
    have grows : inputs < outputs := by omega
    rw [require, if_neg enough, if_pos ⟨grows, past⟩]

theorem require_error {inputs outputs : Nat} {error : VmError}
    (h : s.require inputs outputs = .error error) :
    error = .stackUnderflow ∨ error = .stackOverflow :=
  (require_refused h).imp And.right fun refused => refused.2.2

theorem exists_cons {n : Nat} {items : List Word} (h : n + 1 ≤ items.length) :
    ∃ w rest, items = w :: rest ∧ n ≤ rest.length := by
  cases items with
  | nil => cases h
  | cons w rest => exact ⟨w, rest, rfl, Nat.le_of_succ_le_succ h⟩

theorem exists_one (h : 1 ≤ s.size) : ∃ a rest, s.items = a :: rest := by
  obtain ⟨a, rest, items, -⟩ := exists_cons h
  exact ⟨a, rest, items⟩

theorem exists_two (h : 2 ≤ s.size) : ∃ a b rest, s.items = a :: b :: rest := by
  obtain ⟨a, tail, items, h⟩ := exists_cons h
  obtain ⟨b, rest, rfl, -⟩ := exists_cons h
  exact ⟨a, b, rest, items⟩

theorem exists_seven (h : 7 ≤ s.size) :
    ∃ a₁ a₂ a₃ a₄ a₅ a₆ a₇ rest, s.items = a₁ :: a₂ :: a₃ :: a₄ :: a₅ :: a₆ :: a₇ :: rest := by
  obtain ⟨a₁, t₁, items, h₁⟩ := exists_cons h
  obtain ⟨a₂, t₂, rfl, h₂⟩ := exists_cons h₁
  obtain ⟨a₃, t₃, rfl, h₃⟩ := exists_cons h₂
  obtain ⟨a₄, t₄, rfl, h₄⟩ := exists_cons h₃
  obtain ⟨a₅, t₅, rfl, h₅⟩ := exists_cons h₄
  obtain ⟨a₆, t₆, rfl, h₆⟩ := exists_cons h₅
  obtain ⟨a₇, rest, rfl, -⟩ := exists_cons h₆
  exact ⟨a₁, a₂, a₃, a₄, a₅, a₆, a₇, rest, items⟩

/-- A stack with room has the word to copy, and can take the copy. -/
theorem dup_ok {n : Nat} (h : s.require n (n + 1) = .ok ()) (hn : 0 < n) :
    ∃ t, s.dup n = .ok t := by
  have depth := inputs_le_of_require h
  have item : n - 1 < s.items.length := by
    rw [size] at depth
    omega
  refine ⟨_, dup_eq_ok.mpr ⟨size_lt_of_require h, n - 1, _, ?_, List.getElem?_eq_getElem item, rfl⟩⟩
  omega

/-- A stack with room has both words to exchange. -/
theorem swap_ok {n : Nat} (h : n + 1 ≤ s.size) (hn : 0 < n) : ∃ t, s.swap n = .ok t := by
  obtain ⟨top, rest, items, depth⟩ := exists_cons h
  have item : n - 1 < rest.length := by omega
  refine ⟨_, swap_eq_ok.mpr ⟨n - 1, top, _, rest, ?_, items, List.getElem?_eq_getElem item, rfl⟩⟩
  omega

end Stack

end StackMachine
