import Mathlib.Algebra.Group.Int.Defs
import StackMachine.Host.Recording
import StackMachine.Proofs.BigEndian
import StackMachine.Proofs.Settlement
import StackMachine.Proofs.Steps

/-!
# Arithmetic on words

A word is read as the number that its bytes denote, and operations on words are operations on those
numbers: `BinaryOp.value_apply` and `UnaryOp.value_apply` say which. Words can be compared and their
bits combined byte by byte. `Execution.step_computes` says what a step makes of the operands on the
stack.
-/

namespace StackMachine

/-! ## Words and numbers -/

namespace Word

/-- The number that the bytes of a word denote. -/
def value (w : Word) : Nat :=
  Bytes.toNat w.toBytes

theorem toNat_lt_pow (w : Word) : w.toNat < 256 ^ 32 :=
  w.isLt

theorem value_eq_toNat (w : Word) : w.value = w.toNat :=
  (Bytes.toNat_ofNat 32 w.toNat).trans (Nat.mod_eq_of_lt w.toNat_lt_pow)

theorem ofNat_value (w : Word) : ofNat w.value = w := by
  rw [value_eq_toNat]
  exact BitVec.ofNat_toNat 256 w

theorem toNat_ofNat {n : Nat} (h : n < 2 ^ 256) : (ofNat n).toNat = n := by
  rw [ofNat, BitVec.toNat_ofNat, Nat.mod_eq_of_lt h]

theorem value_ofNat {n : Nat} (h : n < 2 ^ 256) : (ofNat n).value = n := by
  rw [value_eq_toNat, toNat_ofNat h]

/-- Any thirty-two bytes are those of a word. -/
theorem toBytes_ofNat {bs : Bytes} (h : bs.length = 32) : (ofNat (Bytes.toNat bs)).toBytes = bs := by
  have small := Bytes.toNat_lt bs
  rw [h] at small
  rw [toBytes, toNat_ofNat small, ← h, Bytes.ofNat_toNat]

/-! ### Byte by byte -/

/-- Words with the same bytes are the same number. -/
theorem toBytes_inj {a b : Word} : a.toBytes = b.toBytes ↔ a.value = b.value := by
  constructor
  · intro same
    rw [value, value, same]
  · intro same
    rw [← ofNat_value a, ← ofNat_value b, same]

/-- The order of the bytes is the order of the numbers. -/
theorem toBytes_lt_iff {a b : Word} : a.toBytes < b.toBytes ↔ a.value < b.value :=
  (Bytes.toNat_lt_iff (by simp)).symm

theorem toBytes_and (a b : Word) :
    (a &&& b).toBytes = List.zipWith (· &&& ·) a.toBytes b.toBytes := by
  rw [toBytes, BitVec.toNat_and]
  exact Bytes.ofNat_and 32 a.toNat b.toNat

theorem toBytes_or (a b : Word) :
    (a ||| b).toBytes = List.zipWith (· ||| ·) a.toBytes b.toBytes := by
  rw [toBytes, BitVec.toNat_or]
  exact Bytes.ofNat_or 32 a.toNat b.toNat

theorem toBytes_xor (a b : Word) :
    (a ^^^ b).toBytes = List.zipWith (· ^^^ ·) a.toBytes b.toBytes := by
  rw [toBytes, BitVec.toNat_xor]
  exact Bytes.ofNat_xor 32 a.toNat b.toNat

theorem toBytes_not (a : Word) : (~~~ a).toBytes = a.toBytes.map (~~~ ·) := by
  rw [toBytes, BitVec.toNat_not]
  exact Bytes.ofNat_complement a.toNat_lt_pow

theorem toNat_ofBool (b : Bool) : (ofBool b).toNat = if b then 1 else 0 := by
  cases b <;> rfl

end Word

/-! ## Operations on numbers -/

/-- What becomes of a number below the 256th power of two. -/
def UnaryOp.onNumber : UnaryOp → Nat → Nat
  | isZero, a => if a = 0 then 1 else 0
  | not, a => 2 ^ 256 - 1 - a

/-- What becomes of two numbers below the 256th power of two, the first of them on top. -/
def BinaryOp.onNumbers : BinaryOp → Nat → Nat → Nat
  | add, a, b => (a + b) % 2 ^ 256
  | mul, a, b => a * b % 2 ^ 256
  | sub, a, b => (((a : Int) - b) % 2 ^ 256).toNat
  | div, a, b => if b = 0 then 0 else a / b
  | mod, a, b => if b = 0 then 0 else a % b
  | lt, a, b => if a < b then 1 else 0
  | gt, a, b => if b < a then 1 else 0
  | eq, a, b => if a = b then 1 else 0
  | and, a, b => a &&& b
  | or, a, b => a ||| b
  | xor, a, b => a ^^^ b

theorem UnaryOp.value_apply (op : UnaryOp) (a : Word) : (op.apply a).value = op.onNumber a.value := by
  rw [Word.value_eq_toNat, Word.value_eq_toNat]
  cases op with
  | isZero => simp [apply, onNumber, Word.toNat_ofBool, BitVec.toNat_eq]
  | not => exact BitVec.toNat_not

theorem BinaryOp.value_apply (op : BinaryOp) (a b : Word) :
    (op.apply a b).value = op.onNumbers a.value b.value := by
  rw [Word.value_eq_toNat, Word.value_eq_toNat, Word.value_eq_toNat]
  cases op with
  | add => exact BitVec.toNat_add a b
  | mul => exact BitVec.toNat_mul a b
  | sub =>
    have low := a.isLt
    have low' := b.isLt
    show (a - b).toNat = (((a.toNat : Int) - b.toNat) % 2 ^ 256).toNat
    rw [BitVec.toNat_sub]
    omega
  | div =>
    by_cases zero : b = 0
    · subst zero
      rfl
    · have zero' : b.toNat ≠ 0 := fun h => zero (BitVec.eq_of_toNat_eq h)
      simp only [apply, onNumbers, Word.quotient, if_neg zero, if_neg zero', BitVec.toNat_udiv]
  | mod =>
    by_cases zero : b = 0
    · subst zero
      rfl
    · have zero' : b.toNat ≠ 0 := fun h => zero (BitVec.eq_of_toNat_eq h)
      simp only [apply, onNumbers, Word.remainder, if_neg zero, if_neg zero', BitVec.toNat_umod]
  | lt => simp [apply, onNumbers, Word.toNat_ofBool, BitVec.lt_def]
  | gt => simp [apply, onNumbers, Word.toNat_ofBool, BitVec.lt_def]
  | eq => simp [apply, onNumbers, Word.toNat_ofBool, BitVec.toNat_eq]
  | and => exact BitVec.toNat_and a b
  | or => exact BitVec.toNat_or a b
  | xor => exact BitVec.toNat_xor a b

/-! ## Steps -/

namespace Execution

variable {σ : Type} [Host σ]

/-- The execution once an instruction without bytes of its own has left words on the stack. -/
theorem step_of_rearranges {e : Execution σ} {op : Operation} {price : Nat} {items : List Word}
    (decoded : e.operation? = some op)
    (priced : price = e.context.config.gasSchedule.instructionCost (some op))
    (paid : (price : Int) ≤ e.frame.gas.remaining)
    (room : e.frame.stack.require op.inputs op.outputs = .ok ())
    (rearranges : Rearranges e.context (e.frame.paying price) e.host op items) :
    e.step.frame = { e.frame with
        pc := e.frame.pc + 1 + op.immediate
        stack := ⟨items⟩
        gas := e.frame.gas.less price } ∧
      e.step.host = e.host :=
  step_of_performs decoded priced paid room (.rearranged rearranges)

theorem step_of_binary {e : Execution σ} {op : BinaryOp} {price : Nat} {a b : Word}
    {rest : List Word} (decoded : e.operation? = some (.binary op))
    (priced : price = e.context.config.gasSchedule.instructionCost (some (.binary op)))
    (paid : (price : Int) ≤ e.frame.gas.remaining) (items : e.frame.stack.items = a :: b :: rest) :
    e.step.frame = { e.frame with
        pc := e.frame.pc + 1
        stack := ⟨op.apply a b :: rest⟩
        gas := e.frame.gas.less price } ∧
      e.step.host = e.host := by
  have enough : 2 ≤ e.frame.stack.size := by simp [Stack.size, items]
  have room := Stack.require_of_le enough (Nat.le_succ 1)
  exact step_of_rearranges decoded priced paid room (.binary items)

theorem step_of_unary {e : Execution σ} {op : UnaryOp} {price : Nat} {a : Word}
    {rest : List Word} (decoded : e.operation? = some (.unary op))
    (priced : price = e.context.config.gasSchedule.instructionCost (some (.unary op)))
    (paid : (price : Int) ≤ e.frame.gas.remaining) (items : e.frame.stack.items = a :: rest) :
    e.step.frame = { e.frame with
        pc := e.frame.pc + 1
        stack := ⟨op.apply a :: rest⟩
        gas := e.frame.gas.less price } ∧
      e.step.host = e.host := by
  have enough : 1 ≤ e.frame.stack.size := by simp [Stack.size, items]
  have room := Stack.require_of_le enough (Nat.le_refl 1)
  exact step_of_rearranges decoded priced paid room (.unary items)

/-- Words are the strings of thirty-two bytes: each is a number below the 256th power of two, in
the order of the numbers, and their bits are combined byte by byte. An operation on words that is
paid for replaces its operands by the word whose number it makes of theirs, and nothing else
happens. -/
theorem step_computes :
    ((∀ w : Word, w.toBytes.length = 32 ∧ Word.ofNat w.value = w) ∧
        (∀ n < 2 ^ 256, (Word.ofNat n).value = n) ∧
        (∀ bs : Bytes, bs.length = 32 → (Word.ofNat (Bytes.toNat bs)).toBytes = bs) ∧
        (∀ a b : Word, (a.toBytes < b.toBytes ↔ a.value < b.value) ∧
          (a.toBytes = b.toBytes ↔ a.value = b.value)) ∧
        (∀ a b : Word, (a &&& b).toBytes = List.zipWith (· &&& ·) a.toBytes b.toBytes ∧
          (a ||| b).toBytes = List.zipWith (· ||| ·) a.toBytes b.toBytes ∧
          (a ^^^ b).toBytes = List.zipWith (· ^^^ ·) a.toBytes b.toBytes ∧
          (~~~ a).toBytes = a.toBytes.map (~~~ ·))) ∧
      (∀ (e : Execution σ) (op : BinaryOp) (a b : Word) (rest : List Word),
        let price := e.context.config.gasSchedule.instructionCost (some (.binary op))
        e.operation? = some (.binary op) → (price : Int) ≤ e.frame.gas.remaining →
        e.frame.stack.items = a :: b :: rest →
        ∃ w : Word, w.value = op.onNumbers a.value b.value ∧
          e.step.frame = { e.frame with
            pc := e.frame.pc + 1, stack := ⟨w :: rest⟩, gas := e.frame.gas.less price } ∧
          e.step.host = e.host) ∧
      ∀ (e : Execution σ) (op : UnaryOp) (a : Word) (rest : List Word),
        let price := e.context.config.gasSchedule.instructionCost (some (.unary op))
        e.operation? = some (.unary op) → (price : Int) ≤ e.frame.gas.remaining →
        e.frame.stack.items = a :: rest →
        ∃ w : Word, w.value = op.onNumber a.value ∧
          e.step.frame = { e.frame with
            pc := e.frame.pc + 1, stack := ⟨w :: rest⟩, gas := e.frame.gas.less price } ∧
          e.step.host = e.host := by
  refine ⟨⟨?_, fun n => Word.value_ofNat, fun bs => Word.toBytes_ofNat, ?_, ?_⟩, ?_, ?_⟩
  · intro w
    exact ⟨w.length_toBytes, w.ofNat_value⟩
  · intro a b
    exact ⟨Word.toBytes_lt_iff, Word.toBytes_inj⟩
  · intro a b
    exact ⟨a.toBytes_and b, a.toBytes_or b, a.toBytes_xor b, a.toBytes_not⟩
  · intro e op a b rest price decoded paid items
    exact ⟨_, op.value_apply a b, step_of_binary decoded rfl paid items⟩
  · intro e op a rest price decoded paid items
    exact ⟨_, op.value_apply a, step_of_unary decoded rfl paid items⟩

/-- Three less five, and then the complement of that. -/
theorem step_computes_wrapped :
    let e := steps 2 (start ⟨.default, .latest, .call 0 0 9,
      .ofBytes [0x60, 5, 0x60, 3, 0x03, 0x19]⟩ RecordingHost.empty)
    (e.operation? = some (.binary .sub) ∧ (1 : Int) ≤ e.frame.gas.remaining ∧
        e.frame.stack.items = [3, 5]) ∧
      (e.step.operation? = some (.unary .not) ∧ (1 : Int) ≤ e.step.frame.gas.remaining) ∧
      ∃ w : Word, e.step.frame.stack.items = [w] ∧ w.value = 2 ^ 256 - 2 ∧
        ∃ v : Word, e.step.step.frame.stack.items = [v] ∧ v.value = 1 := by
  intro e
  have decoded : e.operation? = some (.binary .sub) := by decide +kernel
  have decoded' : e.step.operation? = some (.unary .not) := by decide +kernel
  have paid : (1 : Int) ≤ e.frame.gas.remaining := by decide +kernel
  have paid' : (1 : Int) ≤ e.step.frame.gas.remaining := by decide +kernel
  have items : e.frame.stack.items = [3, 5] := by decide +kernel
  obtain ⟨-, binary, unary⟩ := @step_computes RecordingHost _
  obtain ⟨w, difference, frame, -⟩ := binary e .sub 3 5 [] decoded paid items
  have pushed : e.step.frame.stack.items = [w] := by rw [frame]
  obtain ⟨v, complement, frame', -⟩ := unary e.step .not w [] decoded' paid' pushed
  have largest : w.value = 2 ^ 256 - 2 := difference.trans (by decide +kernel)
  rw [largest] at complement
  exact ⟨⟨decoded, paid, items⟩, ⟨decoded', paid'⟩, w, pushed, largest, v, by rw [frame'],
    complement⟩

end Execution

end StackMachine
