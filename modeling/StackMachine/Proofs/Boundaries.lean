import StackMachine.Host.Recording
import StackMachine.Proofs.Opcodes
import StackMachine.Proofs.Steps

/-!
# Instruction boundaries

The sweep that marks jump destinations and the steps of an execution agree on where instructions
begin: `isJumpDest_iff` says what is marked, `Execution.running_at_boundary` that an execution
comes to boundaries only.
-/

namespace StackMachine

/-! ## Boundaries of byte strings -/

theorem Opcode.immediate_le (b : UInt8) : immediate b ≤ 32 := by
  rw [immediate_eq]
  split
  · rename_i push
    have := UInt8.le_iff_toNat_le.mp push.2
    simp only [UInt8.reduceToNat] at this
    omega
  · exact Nat.zero_le _

namespace Code.IsBoundary

variable {bs : Bytes} {b : UInt8} {p q : Nat}

theorem le_length (h : IsBoundary bs p) : p ≤ bs.length + 32 := by
  cases h with
  | start => exact Nat.zero_le _
  | @next position b _ opcode =>
    obtain ⟨within, -⟩ := List.getElem?_eq_some_iff.mp opcode
    have := Opcode.immediate_le b
    omega

/-- The boundaries of a byte string are its start and those behind its first instruction. -/
theorem cons_iff : IsBoundary (b :: bs) p ↔
    p = 0 ∨ ∃ q, p = Opcode.immediate b + q + 1 ∧
      IsBoundary (bs.drop (Opcode.immediate b)) q := by
  constructor
  · intro h
    induction h with
    | start => exact .inl rfl
    | @next position b' _ opcode ih =>
      right
      rcases ih with rfl | ⟨q, rfl, boundary⟩
      · cases opcode
        exact ⟨0, by omega, .start⟩
      · rw [List.getElem?_cons_succ, ← List.getElem?_drop] at opcode
        exact ⟨q + 1 + Opcode.immediate b', by omega, .next boundary opcode⟩
  · rintro (rfl | ⟨q, rfl, boundary⟩)
    · exact .start
    · induction boundary with
      | start =>
        have first : IsBoundary (b :: bs) (0 + 1 + Opcode.immediate b) := .next .start rfl
        rwa [show Opcode.immediate b + 0 + 1 = 0 + 1 + Opcode.immediate b by omega]
      | @next q b' _ opcode ih =>
        rw [List.getElem?_drop, ← List.getElem?_cons_succ (a := b)] at opcode
        have further := IsBoundary.next ih opcode
        rwa [show Opcode.immediate b + (q + 1 + Opcode.immediate b') + 1
          = Opcode.immediate b + q + 1 + 1 + Opcode.immediate b' by omega]

/-- No boundary lies among the bytes of the instruction at another one. -/
theorem apart {bs : Bytes} {b : UInt8} {p q : Nat} (hp : IsBoundary bs p) (hq : IsBoundary bs q)
    (opcode : bs[p]? = some b) : q ≤ p ∨ p + Opcode.immediate b < q := by
  match bs with
  | [] => cases opcode
  | first :: rest =>
    rcases cons_iff.mp hq with rfl | ⟨q', rfl, hq'⟩
    · exact .inl (Nat.zero_le p)
    · rcases cons_iff.mp hp with rfl | ⟨p', rfl, hp'⟩
      · cases opcode
        exact .inr (by omega)
      · -- Both lie behind the first instruction, so the shorter string decides.
        rw [List.getElem?_cons_succ, ← List.getElem?_drop] at opcode
        have := apart hp' hq' opcode
        omega
termination_by bs.length
decreasing_by simp only [List.length_drop, List.length_cons]; omega

end Code.IsBoundary

/-! ## Jump destinations -/

theorem getElem?_markJumpDests (skip : Nat) (bs : Bytes) (p : Nat) :
    (markJumpDests skip bs)[p]? = some true ↔
      skip ≤ p ∧ Code.IsBoundary (bs.drop skip) (p - skip) ∧ bs[p]? = some jumpDestOpcode := by
  fun_induction markJumpDests skip bs generalizing p with
  | case1 skip => simp
  | case2 skip b rest ih =>
    cases p with
    | zero => simp
    | succ p => simp [ih]
  | case3 b rest ih =>
    -- Behind an opcode the sweep skips what `cons_iff` drops.
    cases p with
    | zero => simp [Code.IsBoundary.start]
    | succ p =>
      simp only [List.getElem?_cons_succ, ih, List.drop_zero, Nat.zero_le, true_and, Nat.sub_zero,
        Code.IsBoundary.cons_iff, Nat.add_one_ne_zero, false_or, Nat.add_right_cancel_iff]
      constructor
      · rintro ⟨behind, boundary, opcode⟩
        exact ⟨⟨_, (Nat.add_sub_cancel' behind).symm, boundary⟩, opcode⟩
      · rintro ⟨⟨q, rfl, boundary⟩, opcode⟩
        rw [Nat.add_sub_cancel_left]
        exact ⟨Nat.le_add_right _ _, boundary, opcode⟩

/-- The jump destinations are the boundaries with the opcode that marks them. -/
theorem Code.isJumpDest_iff (c : Code) (p : Nat) :
    c.isJumpDest p = true ↔ IsBoundary c.bytes.toList p ∧ c.bytes[p]? = some jumpDestOpcode := by
  have marks := getElem?_markJumpDests 0 c.bytes.toList p
  simp only [List.drop_zero, Nat.sub_zero, Nat.zero_le, true_and, Array.getElem?_toList] at marks
  rw [← marks, isJumpDest, c.jumpDests_eq, Array.getD_eq_getD_getElem?, List.getElem?_toArray]
  cases (markJumpDests 0 c.bytes.toList)[p]? <;> simp

/-! ## Executions -/

namespace Execution

variable {σ : Type} [Host σ]

/-- An execution that is not over is at a boundary of its code. -/
def AtBoundary (e : Execution σ) : Prop :=
  e.frame.state = .running → Code.IsBoundary e.context.code.bytes.toList e.frame.pc

theorem AtBoundary.step {e : Execution σ} (h : e.AtBoundary) : e.step.AtBoundary := by
  intro goes
  cases state : e.frame.state with
  | halted result =>
    rw [step_of_halted state, state] at goes
    cases goes
  | running =>
    have here := h state
    obtain ⟨after, takes, frame, -⟩ := step_takes state
    rw [frame] at goes ⊢
    cases takes with
    | ended _ | unpaid _ _ => cases goes
    | undefined _ _ _ => cases goes
    | faulted _ _ _ _ => cases goes
    | @performed opcode op effect fetched _ decoded _ performs =>
      rw [← Array.getElem?_toList] at fetched
      have next := here.next fetched
      rw [← Operation.immediate_of_at? decoded] at next
      simp only [Frame.proceed] at goes ⊢
      cases control : effect.control with
      | next => exact next
      -- Wherever a computed target points, only marked positions are jumped to.
      | jump target => exact ((Code.isJumpDest_iff _ _).mp (performs.marked_of_jump control)).1
      | halt status output =>
        rw [control] at goes
        cases goes

/-- An execution that goes on is at a boundary, at most thirty-two bytes past its code, and never
among the bytes of a push. -/
theorem running_at_boundary (c : Context) (host : σ) (k : Nat)
    (running : (steps k (start c host)).frame.state = .running) :
    (∀ b, Opcode.immediate b = if 0x60 ≤ b ∧ b ≤ 0x7f then b.toNat - 0x5f else 0) ∧
      Code.IsBoundary c.code.bytes.toList (steps k (start c host)).frame.pc ∧
      (steps k (start c host)).frame.pc ≤ c.code.size + 32 ∧
      ∀ p b, Code.IsBoundary c.code.bytes.toList p → c.code.bytes[p]? = some b →
        (steps k (start c host)).frame.pc ≤ p ∨
          p + Opcode.immediate b < (steps k (start c host)).frame.pc := by
  have kept : ∀ e : Execution σ, e.AtBoundary → e.step.AtBoundary := fun _ h => h.step
  have begins : (start c host).AtBoundary := fun _ => .start
  have here := steps_induction kept begins k running
  rw [steps_context] at here
  refine ⟨Opcode.immediate_eq, here, ?_, ?_⟩
  · have := here.le_length
    rwa [Array.length_toList] at this
  · intro p b hp opcode
    rw [← Array.getElem?_toList] at opcode
    exact hp.apart here opcode

/-- A jump over a push whose byte looks like a jump destination. -/
theorem running_at_boundary_jump :
    let c : Context := ⟨.default, .latest, .call 0 0 9,
      .ofBytes [0x60, 0x05, 0x56, 0x60, 0x5b, 0x5b, 0x00]⟩
    let e := steps 2 (start c RecordingHost.empty)
    e.frame.state = .running ∧ e.frame.pc = 5 ∧ c.code.isJumpDest 4 = false ∧
      Code.IsBoundary c.code.bytes.toList e.frame.pc := by
  intro c e
  have running : e.frame.state = .running := by decide +kernel
  obtain ⟨-, boundary, -⟩ := running_at_boundary c RecordingHost.empty 2 running
  exact ⟨running, by decide +kernel, by decide +kernel, boundary⟩

end Execution

end StackMachine
