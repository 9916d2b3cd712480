import Mathlib.Algebra.BigOperators.Group.Finset.Basic
import StackMachine.Host.Recording
import StackMachine.Proofs.Settlement
import StackMachine.Proofs.Steps

/-!
# Conservation of gas

After any number of steps the meter has lost the base prices that were paid, the prices of the
hashes that were completed, and the price of memory as large as it is now, grown at once.
-/

namespace StackMachine

namespace Execution

variable {σ : Type}

/-- The base price that the next step pays: that of the opcode it fetches, if the meter bears it. -/
def basePaid (e : Execution σ) : Nat :=
  match e.opcode? with
  | some opcode =>
    if (e.context.price opcode : Int) ≤ e.frame.gas.remaining then e.context.price opcode else 0
  | none => 0

section

variable {e : Execution σ} {opcode : UInt8}

theorem basePaid_of_none (idle : e.opcode? = none) : e.basePaid = 0 := by
  simp only [basePaid, idle]

theorem basePaid_of_short (fetched : e.opcode? = some opcode)
    (short : e.frame.gas.remaining < e.context.price opcode) : e.basePaid = 0 := by
  simp only [basePaid, fetched, if_neg (Int.not_le.mpr short)]

theorem basePaid_of_paid (fetched : e.opcode? = some opcode)
    (paid : (e.context.price opcode : Int) ≤ e.frame.gas.remaining) :
    e.basePaid = e.context.price opcode := by
  simp only [basePaid, fetched, if_pos paid]

end

/-! ## The account of a run -/

/-- What an execution has paid since its start: base prices, hashes, and the growth to the present
size of memory. -/
structure Accounted (c : Context) (base hash : Nat) (e : Execution σ) : Prop where
  context : e.context = c
  remaining : e.frame.gas.remaining = c.message.gas - base - hash
    - c.config.memoryPolicy.expansionCost 0 e.frame.memory.size
  /-- Nothing was paid yet, or something is left. -/
  solvent : e.frame.gas.remaining = c.message.gas ∧ e.frame.memory.size = 0 ∨
    0 ≤ e.frame.gas.remaining

theorem accounted_start (c : Context) (host : σ) : Accounted c 0 0 (start c host) where
  context := rfl
  remaining := by
    have size : (start c host).frame.memory.size = 0 := rfl
    have gas : (start c host).frame.gas.remaining = c.message.gas := rfl
    rw [size, gas, MemoryPolicy.expansionCost_of_le _ (Nat.le_refl 0)]
    omega
  solvent := .inl ⟨rfl, rfl⟩

theorem Accounted.bounded {c : Context} {e : Execution σ} {base hash : Nat}
    (h : Accounted c base hash e) (bounded : c.message.gas ≤ maxGas) :
    e.frame.gas.remaining ≤ maxGas := by
  have := h.remaining
  omega

variable [Host σ]

/-- What the next step pays for hashing, if it completes a hash. -/
def hashPaid (e : Execution σ) : Nat :=
  if e.completes .keccak256 then Operation.keccak256.hashGas e.context e.frame.stack else 0

/-- What the growth of memory in the next step costs. -/
def growthPrice (e : Execution σ) : Nat :=
  e.context.config.memoryPolicy.expansionCost e.frame.memory.size e.step.frame.memory.size

/-! ## One step -/

section

variable {e : Execution σ}

theorem hashPaid_of_not_completes (h : e.completes .keccak256 = false) : e.hashPaid = 0 := by
  simp [hashPaid, h]

theorem hashPaid_of_none (idle : e.opcode? = none) : e.hashPaid = 0 :=
  hashPaid_of_not_completes (by simp [completes, operation?, idle])

theorem hashPaid_of_isFault (h : e.step.frame.state.isFault = true) : e.hashPaid = 0 :=
  hashPaid_of_not_completes (by simp [completes, h])

theorem hashPaid_of_completes {op : Operation} (h : e.completes op = true) :
    e.hashPaid = op.hashGas e.context e.frame.stack := by
  by_cases hop : op = .keccak256
  · subst hop
    rw [hashPaid, if_pos h]
  · have decoded : e.operation? = some op := by simp_all [completes]
    have other : e.completes .keccak256 = false := by simp [completes, decoded, hop]
    rw [hashPaid_of_not_completes other, Operation.hashGas_of_ne hop]

theorem growthPrice_of_kept (kept : e.step.frame.memory = e.frame.memory) : e.growthPrice = 0 := by
  rw [growthPrice, kept]
  exact MemoryPolicy.expansionCost_of_le _ (Nat.le_refl _)

end

/-- What one step does to memory and to the meter. -/
structure Metered (e : Execution σ) : Prop where
  grows : e.frame.memory.size ≤ e.step.frame.memory.size
  remaining : e.step.frame.gas.remaining
    = e.frame.gas.remaining - e.basePaid - e.hashPaid - e.growthPrice
  /-- Nothing is paid, or something is left afterwards. -/
  solvent : e.step.frame.gas = e.frame.gas ∧ e.step.frame.memory = e.frame.memory ∨
    0 ≤ e.step.frame.gas.remaining

/-- A step that keeps memory pays the base price alone, if it completes no hash. -/
theorem Metered.of_kept {e : Execution σ} (amount : Nat)
    (memory : e.step.frame.memory = e.frame.memory)
    (gas : e.step.frame.gas = e.frame.gas.less amount)
    (base : e.basePaid = amount) (hash : e.hashPaid = 0)
    (solvent : amount = 0 ∨ (amount : Int) ≤ e.frame.gas.remaining) : Metered e where
  grows := by rw [memory]
  remaining := by
    rw [gas, base, hash, growthPrice_of_kept memory, GasMeter.less_remaining]
    omega
  solvent := by
    rw [gas, GasMeter.less_remaining]
    rcases solvent with rfl | bears
    · exact .inl ⟨GasMeter.less_zero _, memory⟩
    · exact .inr (by omega)

/-- A step that faults is one that keeps memory and completes no hash. -/
theorem Metered.of_fault {e : Execution σ} {f : Frame} {error : VmError} (amount : Nat)
    (frame : e.step.frame = f.fail error) (memory : f.memory = e.frame.memory)
    (gas : f.gas = e.frame.gas.less amount) (base : e.basePaid = amount)
    (solvent : amount = 0 ∨ (amount : Int) ≤ e.frame.gas.remaining) : Metered e := by
  refine .of_kept amount ?_ ?_ base (hashPaid_of_isFault ?_) solvent
  · rw [frame, Frame.fail_memory, memory]
  · rw [frame, Frame.fail_gas, gas]
  · rw [frame, Frame.isFault_fail]

/-- A step that carries an operation out pays the base price, the hash and the growth. -/
theorem Metered.of_performed {e : Execution σ} {opcode : UInt8} {op : Operation}
    {effect : Effect σ} (running : e.frame.state = .running)
    (bounded : e.frame.gas.remaining ≤ maxGas) (fetched : e.opcode? = some opcode)
    (paid : (e.context.price opcode : Int) ≤ e.frame.gas.remaining)
    (decoded : Operation.at? e.context.revision opcode = some op)
    (performs : Performs e.context (e.frame.paying (e.context.price opcode)) e.host op effect)
    (frame : e.step.frame = (e.frame.paying (e.context.price opcode)).proceed op effect) :
    Metered e := by
  have sound : e.step.frame.state.isFault = false := by
    rw [frame]
    exact performs.isFault_proceed running
  have completes : e.completes op = true := by
    simp [Execution.completes, operation?, fetched, decoded, sound]
  have memory : e.step.frame.memory = effect.memory := by rw [frame, Frame.proceed_memory]
  have gas : e.step.frame.gas = effect.gas := by rw [frame, Frame.proceed_gas]
  have solvent : 0 ≤ (e.frame.paying (e.context.price opcode)).gas.remaining := by
    rw [Frame.paying_gas, GasMeter.less_remaining]
    omega
  -- `meter` speaks of the frame that has paid; its price is stated for the execution below.
  obtain ⟨grows, left, meter⟩ := performs.meter solvent
  have hash : op.hashGas e.context (e.frame.paying (e.context.price opcode)).stack = e.hashPaid :=
    (hashPaid_of_completes completes).symm
  have growth : e.context.config.memoryPolicy.expansionCost
      (e.frame.paying (e.context.price opcode)).memory.size effect.memory.size = e.growthPrice := by
    rw [growthPrice, memory, Frame.paying_memory]
  rw [hash, growth, Frame.paying_gas] at meter
  -- What the meter bears is below the largest price, so the amount was not cut off.
  have uncut : saturate (e.growthPrice + e.hashPaid) = e.growthPrice + e.hashPaid := by
    rw [meter] at left
    simp only [GasMeter.less_remaining, saturate, maxGas, maxPrice] at *
    omega
  refine ⟨?_, ?_, .inr ?_⟩
  · rw [memory]
    exact grows
  · rw [gas, meter, uncut, basePaid_of_paid fetched paid]
    simp only [GasMeter.less_remaining]
    omega
  · rw [gas]
    exact left

theorem metered (e : Execution σ) (bounded : e.frame.gas.remaining ≤ maxGas) : Metered e := by
  cases state : e.frame.state with
  | halted result =>
    have still := step_of_halted state
    have idle := opcode?_of_halted state
    refine .of_kept 0 ?_ ?_ (basePaid_of_none idle) (hashPaid_of_none idle) (.inl rfl)
    · rw [still]
    · rw [still, GasMeter.less_zero]
  | running =>
    have opcode := opcode?_of_running state
    obtain ⟨after, takes, frame, -⟩ := step_takes state
    cases takes with
    | ended past =>
      rw [past] at opcode
      refine .of_kept 0 ?_ ?_ (basePaid_of_none opcode) (hashPaid_of_none opcode) (.inl rfl)
      · rw [frame]
        rfl
      · rw [frame, GasMeter.less_zero]
        rfl
    | unpaid fetched short =>
      rw [fetched] at opcode
      have free := (GasMeter.less_zero e.frame.gas).symm
      exact .of_fault 0 frame rfl free (basePaid_of_short opcode short) (.inl rfl)
    | undefined fetched paid unknown =>
      rw [fetched] at opcode
      exact .of_fault _ frame rfl rfl (basePaid_of_paid opcode paid) (.inr paid)
    | faulted fetched paid decoded attempted =>
      rw [fetched] at opcode
      exact .of_fault _ frame rfl rfl (basePaid_of_paid opcode paid) (.inr paid)
    | performed fetched paid decoded room performs =>
      rw [fetched] at opcode
      exact .of_performed state bounded opcode paid decoded performs frame

/-! ## Runs -/

/-- The price of growth adds up to that of growth at once. -/
theorem Accounted.step {c : Context} {e : Execution σ} {base hash : Nat}
    (h : Accounted c base hash e) (bounded : c.message.gas ≤ maxGas) :
    Accounted c (base + e.basePaid) (hash + e.hashPaid) e.step := by
  obtain ⟨grows, paid, solvent⟩ := metered e (h.bounded bounded)
  obtain ⟨rfl, remaining, funded⟩ := h
  have whole : e.context.config.memoryPolicy.expansionCost 0 e.frame.memory.size + e.growthPrice
      = e.context.config.memoryPolicy.expansionCost 0 e.step.frame.memory.size := by
    rcases solvent with ⟨-, memory⟩ | solvent
    · rw [growthPrice_of_kept memory, memory, Nat.add_zero]
    · -- All of it was taken off a meter of 63 bits, so the sum is not cut off either.
      rw [← MemoryPolicy.expansionCost_add _ (Nat.zero_le e.frame.memory.size) grows]
      refine (saturate_of_le ?_).symm
      show _ + e.growthPrice ≤ maxPrice
      simp only [maxGas, maxPrice] at *
      omega
  refine ⟨rfl, ?_, ?_⟩
  · rw [paid, remaining, ← whole]
    omega
  · rcases solvent with ⟨gas, memory⟩ | solvent
    · rw [gas, memory]
      exact funded
    · exact .inr solvent

theorem steps_accounted (c : Context) (host : σ) (bounded : c.message.gas ≤ maxGas) (k : Nat) :
    Accounted c (∑ i ∈ Finset.range k, (steps i (start c host)).basePaid)
      (∑ i ∈ Finset.range k, (steps i (start c host)).hashPaid) (steps k (start c host)) := by
  induction k with
  | zero => exact accounted_start c host
  | succ k ih =>
    rw [Finset.sum_range_succ, Finset.sum_range_succ, steps_succ]
    exact ih.step bounded

theorem remaining_antitone (c : Context) (host : σ) (bounded : c.message.gas ≤ maxGas) {j k : Nat}
    (h : j ≤ k) :
    (steps k (start c host)).frame.gas.remaining
      ≤ (steps j (start c host)).frame.gas.remaining := by
  induction h with
  | refl => exact Int.le_refl _
  | @step k _ ih =>
    refine Int.le_trans ?_ ih
    have paid := (metered _ ((steps_accounted c host bounded k).bounded bounded)).remaining
    rw [Nat.succ_eq_add_one, steps_succ]
    omega

/-- The meter has lost the base prices and the hashes that were paid, and the price of the present
memory. It only falls, and not below zero. A nested call costs its base price and the growth of
memory, whatever gas it forwards and gets back. -/
theorem gas_conserved (c : Context) (host : σ) (bounded : c.message.gas ≤ maxGas) (k : Nat) :
    let e := fun i => steps i (start c host)
    (e k).frame.gas.remaining = c.message.gas
        - ((∑ i ∈ Finset.range k, (e i).basePaid : Nat) : Int)
        - ((∑ i ∈ Finset.range k, (e i).hashPaid : Nat) : Int)
        - (c.config.memoryPolicy.expansionCost 0 (e k).frame.memory.size : Int) ∧
      (∀ j ≤ k, (e k).frame.gas.remaining ≤ (e j).frame.gas.remaining) ∧
      (0 ≤ c.message.gas → 0 ≤ (e k).frame.gas.remaining) ∧
      ((e k).operation? = some .call → (e (k + 1)).frame.gas.remaining
        = (e k).frame.gas.remaining - (e k).basePaid
          - (c.config.memoryPolicy.expansionCost (e k).frame.memory.size
              (e (k + 1)).frame.memory.size : Int)) := by
  intro e
  have accounted := steps_accounted c host bounded k
  refine ⟨accounted.remaining, fun j hj => remaining_antitone c host bounded hj, ?_, ?_⟩
  · intro funded
    rcases accounted.solvent with ⟨start, -⟩ | solvent
    · rw [start]
      exact funded
    · exact solvent
  · intro calls
    have paid := (metered (e k) (accounted.bounded bounded)).remaining
    have other : (e k).completes .keccak256 = false := by simp [completes, calls]
    rw [hashPaid_of_not_completes other] at paid
    have next : e (k + 1) = (e k).step := steps_succ k _
    have growth : (e k).growthPrice = c.config.memoryPolicy.expansionCost
        (e k).frame.memory.size (e (k + 1)).frame.memory.size := by
      rw [next, ← accounted.context]
      rfl
    rw [← growth, next]
    omega

/-- Three steps that hash one word of a memory without words. -/
theorem gas_conserved_hash :
    let c : Context := ⟨⟨0, .tiered, .quadratic, defaultMemoryLimit, defaultCallDepth⟩, .latest,
      .call 0 0 100, .ofBytes [0x60, 0x20, 0x60, 0x00, 0x20]⟩
    c.message.gas ≤ maxGas ∧ (steps 2 (start c RecordingHost.empty)).hashPaid = 6 ∧
      (steps 3 (start c RecordingHost.empty)).frame.gas.remaining = 55 ∧
      (steps 3 (start c RecordingHost.empty)).frame.gas.remaining = c.message.gas
        - ((∑ i ∈ Finset.range 3, (steps i (start c RecordingHost.empty)).basePaid : Nat) : Int)
        - ((∑ i ∈ Finset.range 3, (steps i (start c RecordingHost.empty)).hashPaid : Nat) : Int)
        - (c.config.memoryPolicy.expansionCost 0
            (steps 3 (start c RecordingHost.empty)).frame.memory.size : Int) := by
  intro c
  have bounded : c.message.gas ≤ maxGas := by decide
  obtain ⟨conserved, -⟩ := gas_conserved c RecordingHost.empty bounded 3
  refine ⟨bounded, by decide +kernel, by decide +kernel, ?_⟩
  dsimp only at conserved
  exact conserved

end Execution

end StackMachine
