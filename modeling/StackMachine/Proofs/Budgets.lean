import StackMachine.Proofs.Hosts
import StackMachine.Proofs.Lockstep
import StackMachine.Proofs.Settlement

/-!
# Gas is a budget

An execution that has gas enough and does not look at it is the same with more gas, but for what is
left. Under other prices it is the same as well, or it runs out of gas on the way. Both are cases of
one lockstep, with what is known of the two meters as `Comparison.surplus` and
`Comparison.unrelated`.
-/

namespace StackMachine

/-! ## Comparisons -/

namespace Comparison

/-- The second has so much more gas, and pays the same. -/
def surplus (more : Int) : Comparison :=
  ⟨fun m m' => m'.remaining = m.remaining + more, False⟩

/-- Nothing is known of gas and prices. -/
def unrelated : Comparison :=
  ⟨fun _ _ => True, True⟩

theorem short_of_charge {m : GasMeter} {amount : Nat} {error : VmError}
    (h : m.charge amount = .error error) : error.IsShort :=
  (GasMeter.charge_eq_error.mp h).2

theorem charge_surplus {more : Int} (h : 0 ≤ more) {m m' : GasMeter}
    (meters : (surplus more).meters m m') (amount : Nat) :
    (surplus more).Matches VmError.IsShort (surplus more).meters (m.charge amount)
      (m'.charge amount) := by
  have meters : m'.remaining = m.remaining + more := meters
  cases charged : m.charge amount with
  | error error => exact .first (short_of_charge charged) _
  | ok paid =>
    obtain ⟨bears, rfl⟩ := GasMeter.charge_eq_ok.mp charged
    have charged' : m'.charge amount = .ok (m'.less amount) :=
      GasMeter.charge_eq_ok.mpr ⟨by omega, rfl⟩
    rw [charged']
    refine .ok ?_
    show _ = _ + more
    rw [GasMeter.less_remaining, GasMeter.less_remaining, meters]
    omega

theorem charge_unrelated (m m' : GasMeter) (amount amount' : Nat) :
    unrelated.Matches VmError.IsShort unrelated.meters (m.charge amount)
      (m'.charge amount') := by
  cases charged : m.charge amount with
  | error error => exact .first (short_of_charge charged) _
  | ok paid =>
    cases charged' : m'.charge amount' with
    | error error => exact .second trivial (short_of_charge charged') _
    | ok paid' => exact .ok trivial

theorem fair_surplus {more : Int} (h : 0 ≤ more) (config : Config) :
    (surplus more).Fair config config.gasSchedule config.memoryPolicy where
  instruction _ _ _ meters := charge_surplus h meters _
  memory _ _ _ _ _ meters := charge_surplus h meters _

theorem fair_unrelated (config : Config) (schedule : GasSchedule) (policy : MemoryPolicy) :
    unrelated.Fair config schedule policy where
  instruction _ _ _ _ := charge_unrelated _ _ _ _
  memory _ _ _ _ _ _ := charge_unrelated _ _ _ _

/-- Executions of the same message on the same host begin in lockstep. -/
theorem lockstep_start {k : Comparison} {σ : Type} {c : Context} {schedule : GasSchedule}
    {policy : MemoryPolicy} {gas : Int} (fair : k.Fair c.config schedule policy)
    (meters : k.meters (.ofLimit c.message.gas) (.ofLimit gas)) (host : σ) :
    k.Lockstep (.start c host) (.start (c.repriced schedule policy gas) host) :=
  ⟨⟨schedule, policy, gas, fair, rfl⟩, ⟨rfl, meters, rfl⟩, rfl⟩

end Comparison

/-! ## Results and what is left -/

namespace Execution

variable {σ : Type} [Host σ]

/-- The result of an execution that is over gives back what the meter holds, if it gives anything
back. -/
def Reports (e : Execution σ) : Prop :=
  ∀ result, e.frame.state = .halted result →
    result = .ofStatus result.status e.frame.gas.remaining result.output

theorem Reports.step {e : Execution σ} (h : e.Reports) : e.step.Reports := by
  cases state : e.frame.state with
  | halted result =>
    rw [step_of_halted state]
    exact h
  | running =>
    obtain ⟨after, takes, frame, -⟩ := step_takes state
    intro result halted
    rw [frame] at halted ⊢
    cases takes with
    | ended _ | unpaid _ _ | undefined _ _ _ | faulted _ _ _ _ =>
      cases halted
      rfl
    | @performed opcode op effect _ _ _ _ _ =>
      have goes : (e.frame.paying (e.context.price opcode)).state = .running := state
      simp only [Frame.proceed] at halted ⊢
      cases control : effect.control with
      | next | jump target =>
        simp only [control, goes] at halted
        cases halted
      | halt status output =>
        simp only [control] at halted ⊢
        cases halted
        rfl

/-- A meter that is not overdrawn never is. -/
theorem solvent_step {e : Execution σ} (h : 0 ≤ e.frame.gas.remaining) :
    0 ≤ e.step.frame.gas.remaining := by
  cases state : e.frame.state with
  | halted result =>
    rw [step_of_halted state]
    exact h
  | running =>
    obtain ⟨after, takes, frame, -⟩ := step_takes state
    rw [frame]
    cases takes with
    | ended _ | unpaid _ _ => exact h
    | undefined _ paid _ | faulted _ paid _ _ => exact Frame.paying_solvent paid
    | performed _ paid _ _ performs =>
      obtain ⟨-, left, -⟩ := performs.meter (Frame.paying_solvent paid)
      rw [Frame.proceed_gas]
      exact left

/-- An execution that is over gives back what is left if it ended well, never less than nothing. -/
theorem result_of_halted {c : Context} {host : σ} {n : Nat} {result : ExecutionResult}
    (halted : (steps n (start c host)).frame.state = .halted result) :
    result = .ofStatus result.status (steps n (start c host)).frame.gas.remaining result.output := by
  have begins : (start c host).Reports := fun _ h => by cases h
  exact steps_induction (fun _ h => Reports.step h) begins n result halted

/-- What an execution with gas gives back when it ends well is what the meter holds. -/
theorem gasLeft_of_halted {c : Context} {host : σ} (funded : 0 ≤ c.message.gas) {n : Nat}
    {result : ExecutionResult} (halted : (steps n (start c host)).frame.state = .halted result)
    (keeps : result.status.keepsGas = true) :
    result.gasLeft = (steps n (start c host)).frame.gas.remaining := by
  have solvent := steps_induction (P := fun e => 0 ≤ e.frame.gas.remaining)
    (fun _ h => solvent_step h) (e := start c host) funded n
  rw [result_of_halted halted]
  simp only [ExecutionResult.ofStatus, keeps, ↓reduceIte]
  omega

/-! ## More gas -/

/-- An execution that ends with gas enough, and never pushes what it has, ends just so with more
gas; what is over is left. -/
theorem same_with_more_gas (c : Context) (host : σ) (funded : 0 ≤ c.message.gas) {n : Nat}
    {result : ExecutionResult} (ends : (start c host).HaltsAfter n result)
    (paid : result.status ≠ .outOfGas)
    (blind : ∀ i < n, (steps i (start c host)).opcode? ≠ some 0x5a) {gas : Int}
    (more : c.message.gas ≤ gas) :
    let richer := start { c with message := c.message.withGas gas } host
    ∃ result', richer.HaltsAfter n result' ∧ result'.status = result.status ∧
      result'.output = result.output ∧ (steps n richer).host = (steps n (start c host)).host ∧
      (result.status = .success ∨ result.status = .revert →
        result'.gasLeft = result.gasLeft + (gas - c.message.gas)) := by
  intro richer
  have fair := Comparison.fair_surplus (Int.sub_nonneg_of_le more) c.config
  have begins := Comparison.lockstep_start fair
    (show gas = c.message.gas + (gas - c.message.gas) by omega) host
  rcases begins.ends ends paid blind with ⟨result', ends', status, output, last⟩ | cut
  · refine ⟨result', ends', status, output, last.host, fun kept => ?_⟩
    have keeps : result.status.keepsGas = true := by simpa [Status.keepsGas] using kept
    have left := gasLeft_of_halted funded ends.halted keeps
    have left' := gasLeft_of_halted (Int.le_trans funded more) ends'.halted (status ▸ keeps)
    rw [left, left']
    exact last.frames.gas
  · exact cut.scarce.elim

/-- Four instructions on three and on a hundred units of gas, the last of them past the end. -/
theorem same_with_more_gas_write :
    let c : Context := ⟨.default, .latest, .call 0 0 3, .ofBytes [0x60, 0x2a, 0x60, 0x01, 0x55]⟩
    let e := start c RecordingHost.empty
    let richer := start { c with message := c.message.withGas 100 } RecordingHost.empty
    (0 ≤ c.message.gas ∧ e.HaltsAfter 4 ⟨.success, 0, []⟩ ∧ c.message.gas ≤ 100 ∧
        ∀ i < 4, (steps i e).opcode? ≠ some 0x5a) ∧
      ∃ result, richer.HaltsAfter 4 result ∧ result.status = .success ∧ result.gasLeft = 97 ∧
        (steps 4 richer).host = (steps 4 e).host := by
  intro c e richer
  have funded : 0 ≤ c.message.gas := by decide
  have more : c.message.gas ≤ 100 := by decide
  have ends : e.HaltsAfter 4 ⟨.success, 0, []⟩ := ⟨by decide +kernel, by decide +kernel⟩
  have blind : ∀ i < 4, (steps i e).opcode? ≠ some 0x5a := by decide +kernel
  obtain ⟨result, ends', status, -, host, left⟩ :=
    same_with_more_gas c RecordingHost.empty funded ends (by decide) blind more
  exact ⟨⟨funded, ends, more, blind⟩, result, ends', status, left (.inl rfl), host⟩

/-! ## Other prices -/

/-- Under other prices and with other gas an execution that had gas enough, and never pushes what it
has, ends just so, or runs out of gas before that; the nested calls it has made by then are the
first ones of the other execution. -/
theorem same_under_other_prices (c : Context) (host : RecordingHost) {n : Nat}
    {result : ExecutionResult} (ends : (start c host).HaltsAfter n result)
    (paid : result.status ≠ .outOfGas)
    (blind : ∀ i < n, (steps i (start c host)).opcode? ≠ some 0x5a) (schedule : GasSchedule)
    (policy : MemoryPolicy) (gas : Int) :
    let e := start c host
    let other := start (c.repriced schedule policy gas) host
    (∃ m ≤ n, ∃ result', other.HaltsAfter m result' ∧ result'.status = .outOfGas ∧
        (steps m other).host.calls <+: (steps n e).host.calls) ∨
      ∃ result', other.HaltsAfter n result' ∧ result'.status = result.status ∧
        result'.output = result.output ∧
        (steps n other).host.accounts = (steps n e).host.accounts ∧
        (steps n other).host.calls = (steps n e).host.calls := by
  intro e other
  have fair := Comparison.fair_unrelated c.config schedule policy
  have begins : Comparison.unrelated.Lockstep e other :=
    Comparison.lockstep_start fair trivial host
  rcases begins.ends ends paid blind with ⟨result', ends', status, output, last⟩ | cut
  · refine .inr ⟨result', ends', status, output, ?_, ?_⟩
    · rw [last.host]
    · rw [last.host]
  · obtain ⟨-, m, hm, result', ends', status, i, hi, same⟩ := cut
    refine .inl ⟨m, hm, result', ends', status, ?_⟩
    rw [same]
    exact e.calls_prefix hi

/-- A nested call and two more instructions, for one unit of gas each and then at tiered prices,
with nothing to pay for what comes after the call. -/
theorem same_under_other_prices_call :
    let c : Context := ⟨.default, .latest, .call 0 0 20,
      .ofBytes [0x60, 0, 0x60, 0, 0x60, 0, 0x60, 0, 0x60, 0, 0x60, 1, 0x60, 0, 0xf1, 0x60, 1, 0x50]⟩
    let host := RecordingHost.empty
    let dearer := c.repriced .tiered .quadratic 723
    ((start c host).HaltsAfter 11 ⟨.success, 10, []⟩ ∧
        ∀ i < 11, (steps i (start c host)).opcode? ≠ some 0x5a) ∧
      ∃ m ≤ 11, ∃ result, (start dearer host).HaltsAfter m result ∧ result.status = .outOfGas ∧
        (steps m (start dearer host)).host.calls <+: (steps 11 (start c host)).host.calls := by
  intro c host dearer
  have ends : (start c host).HaltsAfter 11 ⟨.success, 10, []⟩ :=
    ⟨by decide +kernel, by decide +kernel⟩
  have blind : ∀ i < 11, (steps i (start c host)).opcode? ≠ some 0x5a := by decide +kernel
  have cut : (steps 9 (start (c.repriced .tiered .quadratic 723) host)).frame.state
      = .halted ⟨.outOfGas, 0, []⟩ := by decide +kernel
  refine ⟨⟨ends, blind⟩, ?_⟩
  rcases same_under_other_prices c host ends (by decide) blind .tiered .quadratic 723
    with short | ⟨result, ends', status, -⟩
  · exact short
  · have same := ends'.eq_of_halted (by decide) cut
    rw [← same] at status
    cases status

end Execution

end StackMachine
