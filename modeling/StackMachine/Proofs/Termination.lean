import StackMachine.Host.Recording
import StackMachine.Proofs.Boundaries
import StackMachine.Proofs.Runs
import StackMachine.Proofs.Settlement

/-!
# Termination

A step that goes on pays for its instruction and moves on through the code. So an execution ends
once its gas is spent, if every instruction that goes on costs some (`Execution.haltsWithin_gas`),
and once its code is over, if nothing jumps (`Execution.haltsWithin_code`).
-/

namespace StackMachine

/-! ## Instructions that do not end the execution -/

/-- The least price of an instruction that does not end the execution. -/
def GasSchedule.floor : GasSchedule → Nat
  | uniform perInstruction => perInstruction.toNat
  | tiered => 1

/-- No instruction of the code is a jump, conditional or not. -/
def Code.JumpFree (c : Code) : Prop :=
  ∀ position b, IsBoundary c.bytes.toList position → c.bytes[position]? = some b →
    b ≠ 0x56 ∧ b ≠ 0x57

/-- How an execution goes on after an operation, if it does. -/
def Control.GoesOn (control : Control) : Prop :=
  ∀ status output, control ≠ .halt status output

section

variable {σ : Type} [Host σ] {c : Context} {f : Frame} {host : σ} {op : Operation} {e : Effect σ}

/-- Only operations that end the execution are without a price. -/
theorem Performs.baseGas_pos (h : Performs c f host op e) (goes : e.control.GoesOn) :
    0 < op.baseGas := by
  cases h with
  | rearranged h =>
    cases h with
    | @binary op a b rest items => cases op <;> decide
    | @push n room =>
      simp only [Operation.baseGas]
      split <;> decide
    | unary _ | observe _ | callDataLoad _ | pop _ | sload _ | jumpi _ | jumpDest | dup _ _
    | swap _ _ => exact Nat.succ_pos _
  | stopped | returned _ _ _ _ => exact absurd rfl (goes _ _)
  | stored stores _ _ _ => rcases stores with ⟨rfl, -⟩ | ⟨rfl, -⟩ <;> decide
  | jumped _ _ | branched _ _ _ | wrote _ _ | hashed _ _ _ | loaded _ _ _ | refused _ _ _ _ _ _
  | called _ _ _ _ _ _ _ _ => exact Nat.succ_pos _

theorem Performs.floor_le_price {opcode : UInt8} (h : Performs c f host op e)
    (goes : e.control.GoesOn) (decoded : Operation.at? c.revision opcode = some op) :
    c.config.gasSchedule.floor ≤ c.price opcode := by
  rw [Context.price, decoded]
  cases c.config.gasSchedule with
  | uniform perInstruction => exact Nat.le_refl _
  | tiered => exact h.baseGas_pos goes

theorem Performs.jumps_of_control {target : Nat} (h : Performs c f host op e)
    (jumps : e.control = .jump target) : op = .jump ∨ op = .jumpi := by
  cases h with
  | jumped _ _ => exact .inl rfl
  | branched _ _ _ => exact .inr rfl
  | rearranged _ | stopped | wrote _ _ | hashed _ _ _ | loaded _ _ _ | stored _ _ _ _
  | returned _ _ _ _ | refused _ _ _ _ _ _ | called _ _ _ _ _ _ _ _ => cases jumps

end

namespace Execution

variable {σ : Type} [Host σ]

/-- A step that goes on carries out an operation that does not end the execution. -/
theorem step_goesOn {e : Execution σ} (goes : e.step.frame.state = .running) :
    ∃ opcode op effect, e.context.code.bytes[e.frame.pc]? = some opcode ∧
      (e.context.price opcode : Int) ≤ e.frame.gas.remaining ∧
      Operation.at? e.context.revision opcode = some op ∧
      Performs e.context (e.frame.paying (e.context.price opcode)) e.host op effect ∧
      effect.control.GoesOn ∧
      e.step.frame = (e.frame.paying (e.context.price opcode)).proceed op effect := by
  have running : e.frame.state = .running := running_of_le (n := 1) (Nat.zero_le 1) goes
  obtain ⟨after, takes, frame, -⟩ := step_takes running
  rw [frame] at goes ⊢
  cases takes with
  | ended _ | unpaid _ _ | undefined _ _ _ | faulted _ _ _ _ => cases goes
  | @performed opcode op effect fetched paid decoded room performs =>
    refine ⟨opcode, op, effect, fetched, paid, decoded, performs, ?_, rfl⟩
    intro status output halts
    simp only [Frame.proceed, halts] at goes
    cases goes

/-! ## Gas -/

/-- A step that goes on pays the least price at least, and is left with no debt. -/
theorem step_pays {e : Execution σ} (goes : e.step.frame.state = .running) :
    e.step.frame.gas.remaining + e.context.config.gasSchedule.floor ≤ e.frame.gas.remaining ∧
      0 ≤ e.step.frame.gas.remaining := by
  obtain ⟨opcode, op, effect, -, paid, decoded, performs, on, frame⟩ := step_goesOn goes
  have price := performs.floor_le_price on decoded
  obtain ⟨-, left, meter⟩ := performs.meter (Frame.paying_solvent paid)
  rw [frame, Frame.proceed_gas]
  refine ⟨?_, left⟩
  rw [meter]
  simp only [Frame.paying_gas, GasMeter.less_remaining]
  omega

/-- An execution that goes on after some steps has paid the least price for each of them. -/
theorem paid_of_running {e : Execution σ} {n : Nat} (goes : (steps n e).frame.state = .running) :
    (steps n e).frame.gas.remaining + (e.context.config.gasSchedule.floor * n : Nat)
        ≤ e.frame.gas.remaining ∧
      (n = 0 ∨ 0 ≤ (steps n e).frame.gas.remaining) := by
  induction n with
  | zero => exact ⟨by simp, .inl rfl⟩
  | succ n ih =>
    obtain ⟨before, -⟩ := ih (running_of_le (Nat.le_succ n) goes)
    rw [steps_succ] at goes ⊢
    obtain ⟨pays, left⟩ := step_pays goes
    rw [steps_context] at pays
    refine ⟨?_, .inr left⟩
    rw [Nat.mul_succ]
    omega

/-- Once the gas is spent at the least price, the execution is over. -/
theorem haltsWithin_gas {e : Execution σ} {least : Nat}
    (floor : e.context.config.gasSchedule.floor = least) (priced : 0 < least) :
    e.HaltsWithin (e.frame.gas.remaining.toNat / least + 1) := by
  refine haltsWithin_of_not_running fun goes => ?_
  obtain ⟨paid, left⟩ := paid_of_running goes
  have left := left.resolve_left (Nat.succ_ne_zero _)
  have beyond := Nat.lt_mul_div_succ e.frame.gas.remaining.toNat priced
  rw [floor] at paid
  omega

/-! ## Code without jumps -/

/-- A step that goes on through code without jumps moves on. -/
theorem step_moves {e : Execution σ} (boundary : e.AtBoundary) (jumpFree : e.context.code.JumpFree)
    (goes : e.step.frame.state = .running) :
    e.frame.pc < e.context.code.size ∧ e.frame.pc < e.step.frame.pc := by
  have running : e.frame.state = .running := running_of_le (n := 1) (Nat.zero_le 1) goes
  obtain ⟨opcode, op, effect, fetched, -, decoded, performs, on, frame⟩ := step_goesOn goes
  obtain ⟨within, -⟩ := Array.getElem?_eq_some_iff.mp fetched
  refine ⟨within, ?_⟩
  rw [frame, Frame.proceed]
  cases control : effect.control with
  | next =>
    show e.frame.pc < e.frame.pc + 1 + op.immediate
    omega
  | halt status output => exact absurd control (on status output)
  | jump target =>
    -- The opcode at the boundary would be that of a jump.
    obtain ⟨notJump, notJumpi⟩ := jumpFree _ _ (boundary running) fetched
    have decoded := (Operation.at?_eq_some.mp decoded).1
    rcases performs.jumps_of_control control with rfl | rfl
    · exact absurd (Operation.byte_eq_of_ofByte? decoded (by decide)) notJump
    · exact absurd (Operation.byte_eq_of_ofByte? decoded (by decide)) notJumpi

theorem le_pc_of_running {e : Execution σ} (boundary : e.AtBoundary)
    (jumpFree : e.context.code.JumpFree) {n : Nat} (goes : (steps n e).frame.state = .running) :
    n ≤ (steps n e).frame.pc := by
  induction n with
  | zero => exact Nat.zero_le _
  | succ n ih =>
    have before := ih (running_of_le (Nat.le_succ n) goes)
    rw [steps_succ] at goes ⊢
    have here := steps_induction (fun _ h => AtBoundary.step h) boundary n
    obtain ⟨-, moves⟩ := step_moves here (by rwa [steps_context]) goes
    omega

/-- Once it has come past its code, the execution is over. -/
theorem haltsWithin_code {e : Execution σ} (boundary : e.AtBoundary)
    (jumpFree : e.context.code.JumpFree) : e.HaltsWithin (e.context.code.size + 1) := by
  refine haltsWithin_of_not_running fun goes => ?_
  have past := le_pc_of_running boundary jumpFree (running_of_le (Nat.le_succ _) goes)
  rw [steps_succ] at goes
  have here := steps_induction (fun _ h => AtBoundary.step h) boundary e.context.code.size
  obtain ⟨within, -⟩ := step_moves here (by rwa [steps_context]) goes
  rw [steps_context] at within
  omega

/-! ## All executions -/

/-- An execution ends within as many steps as its gas pays for at the least price, and one more;
within as many as its code has bytes, and one more, if no instruction is a jump. Then it stays as
it is, and a run gives the result and the host that it stays with, whatever steps were taken before
the run. -/
theorem halts_within (c : Context) (host : σ) :
    let e := start c host
    (c.config.gasSchedule = .tiered → e.HaltsWithin (c.message.gas.toNat + 1)) ∧
      (∀ price, c.config.gasSchedule = .uniform price → 1 ≤ price →
        e.HaltsWithin (c.message.gas.toNat / price.toNat + 1)) ∧
      (c.code.JumpFree → e.HaltsWithin (c.code.size + 1)) ∧
      (∀ n result, e.HaltsAfter n result →
        (∀ k ≥ n, steps k e = steps n e) ∧ e.outcome? = some (result, (steps n e).host)) ∧
      ∀ k, (steps k e).outcome? = e.outcome? := by
  intro e
  refine ⟨fun tiered => ?_, fun price uniform positive => ?_, fun jumpFree => ?_, ?_, ?_⟩
  · have floor : c.config.gasSchedule.floor = 1 := by
      rw [tiered]
      rfl
    have ends := haltsWithin_gas (e := e) floor Nat.one_pos
    rwa [Nat.div_one] at ends
  · have floor : c.config.gasSchedule.floor = price.toNat := by
      rw [uniform]
      rfl
    exact haltsWithin_gas (e := e) floor (UInt64.le_iff_toNat_le.mp positive)
  · exact haltsWithin_code (fun _ => .start) jumpFree
  · intro n result ends
    refine ⟨fun k hk => ends.steps_eq hk, ?_⟩
    exact (outcome?_eq_some (start_stack_size_le c host)).mpr ⟨n, ends, rfl⟩
  · exact outcome?_steps c host

/-- A loop ends with its gas under both kinds of prices, and free code ends behind a push of the
byte that would be a jump. -/
theorem halts_within_loop :
    let host := RecordingHost.empty
    let loop := Code.ofBytes [0x5b, 0x60, 0x00, 0x56]
    let tiered : Context :=
      ⟨{ Config.default with gasSchedule := .tiered }, .latest, .call 0 0 40, loop⟩
    let uniform : Context :=
      ⟨{ Config.default with gasSchedule := .uniform 3 }, .latest, .call 0 0 10, loop⟩
    let free : Context :=
      ⟨{ Config.default with gasSchedule := .uniform 0 }, .latest, .call 0 0 0,
        .ofBytes [0x60, 0x56]⟩
    (start tiered host).HaltsWithin 41 ∧ (start uniform host).HaltsWithin 4 ∧
      (free.code.JumpFree ∧ (start free host).HaltsWithin 3) ∧
      ((start free host).HaltsAfter 2 ⟨.success, 0, []⟩ ∧
        (start free host).outcome? = some (⟨.success, 0, []⟩, host)) := by
  intro host loop tiered uniform free
  obtain ⟨byTiers, -⟩ := halts_within tiered host
  obtain ⟨-, byPrice, -⟩ := halts_within uniform host
  obtain ⟨-, -, byCode, ended, -⟩ := halts_within free host
  have jumpFree : free.code.JumpFree := by
    intro position b boundary opcode
    have position : position = 0 ∨ 2 ≤ position := by
      rcases Code.IsBoundary.cons_iff.mp boundary with rfl | ⟨q, rfl, -⟩
      · exact .inl rfl
      · refine .inr ?_
        have : Opcode.immediate 0x60 = 1 := by decide
        omega
    rcases position with rfl | past
    · cases opcode
      decide
    · rw [Array.getElem?_eq_none past] at opcode
      cases opcode
  have ends : (start free host).HaltsAfter 2 ⟨.success, 0, []⟩ :=
    ⟨by decide +kernel, by decide +kernel⟩
  have kept : (steps 2 (start free host)).host = host := by decide +kernel
  have outcome := (ended _ _ ends).2
  rw [kept] at outcome
  have three : uniform.message.gas.toNat / UInt64.toNat 3 + 1 = 4 := by decide
  exact ⟨byTiers rfl, three ▸ byPrice 3 rfl (by decide), ⟨jumpFree, byCode jumpFree⟩, ends, outcome⟩

end Execution

end StackMachine
