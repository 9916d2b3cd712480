import StackMachine.Proofs.Budgets

/-!
# Zeros behind the code

Code is read as if endless zeros followed it, and a zero is the instruction that stops. Zeros that
are really there make no difference then: they mark no jump destination (`Code.jumpTarget_padded`),
a push that is cut off reads them as it does without them (`Code.immediateAt_padded`), and an
execution that comes to one of them stops where it would have run off the end, as long as stopping
is free (`Context.step_padded`).
-/

namespace StackMachine

/-! ## Byte strings -/

/-- Reading past the end gives what the list is padded with anyway. -/
theorem getD_append_replicate {α : Type} (as : List α) (n i : Nat) (a : α) :
    (as ++ List.replicate n a).getD i a = as.getD i a := by
  simp only [List.getD_eq_getElem?_getD, List.getElem?_append, List.getElem?_replicate]
  split
  · rfl
  · rename_i past
    rw [List.getElem?_eq_none (Nat.le_of_not_lt past)]
    split <;> rfl

namespace Bytes

/-- A window shows the bytes of the string, and zeros past its end. -/
theorem getElem?_window (bs : Bytes) (offset len : Nat) {i : Nat} (h : i < len) :
    (bs.window offset len)[i]? = some (bs.getD (offset + i) 0) := by
  simp only [window, padRight, List.getElem?_append, List.getElem?_take, List.getElem?_drop,
    List.getElem?_replicate, List.length_take, List.length_drop, List.getD_eq_getElem?_getD]
  by_cases within : offset + i < bs.length
  · rw [if_pos (by omega), if_pos h, List.getElem?_eq_getElem within]
    rfl
  · rw [if_neg (by omega), if_pos (by omega), List.getElem?_eq_none (by omega)]
    rfl

theorem window_append_zeros (bs : Bytes) (n offset len : Nat) :
    (bs ++ List.replicate n 0).window offset len = bs.window offset len := by
  refine List.ext_getElem? fun i => ?_
  by_cases hi : i < len
  · rw [getElem?_window _ _ _ hi, getElem?_window _ _ _ hi, getD_append_replicate]
  · rw [List.getElem?_eq_none (by rw [length_window]; omega),
      List.getElem?_eq_none (by rw [length_window]; omega)]

end Bytes

/-! ## Code -/

theorem markJumpDests_zeros (skip n : Nat) :
    markJumpDests skip (List.replicate n 0) = List.replicate n false := by
  induction n generalizing skip with
  | zero => rw [List.replicate_zero, List.replicate_zero, markJumpDests]
  | succ n ih =>
    have alone : Opcode.immediate 0 = 0 := by decide
    cases skip with
    | zero =>
      rw [List.replicate_succ, List.replicate_succ, markJumpDests, alone, ih]
      rfl
    | succ skip => rw [List.replicate_succ, List.replicate_succ, markJumpDests, ih]

/-- The sweep goes on through zeros without a mark, even if it is still skipping. -/
theorem markJumpDests_append_zeros (skip : Nat) (bs : Bytes) (n : Nat) :
    markJumpDests skip (bs ++ List.replicate n 0)
      = markJumpDests skip bs ++ List.replicate n false := by
  fun_induction markJumpDests skip bs with
  | case1 skip => exact markJumpDests_zeros skip n
  | case2 skip b rest ih => rw [List.cons_append, markJumpDests, ih, List.cons_append]
  | case3 b rest ih => rw [List.cons_append, markJumpDests, ih, List.cons_append]

namespace Code

/-- The code with zeros behind it. -/
def padded (c : Code) (n : Nat) : Code :=
  .ofBytes (c.bytes.toList ++ List.replicate n 0)

variable (c : Code) (n : Nat)

theorem bytes_padded : (c.padded n).bytes.toList = c.bytes.toList ++ List.replicate n 0 := rfl

variable {p : Nat}

theorem getElem?_padded_of_lt (within : p < c.size) : (c.padded n).bytes[p]? = c.bytes[p]? := by
  rw [← Array.getElem?_toList, ← Array.getElem?_toList, bytes_padded]
  exact List.getElem?_append_left within

/-- Past the code there is a zero or nothing. -/
theorem getElem?_padded_of_le (past : c.size ≤ p) :
    (c.padded n).bytes[p]? = some 0 ∨ (c.padded n).bytes[p]? = none := by
  rw [← Array.getElem?_toList, bytes_padded, List.getElem?_append_right past,
    List.getElem?_replicate]
  split
  · exact .inl rfl
  · exact .inr rfl

theorem isJumpDest_eq_getD (p : Nat) :
    c.isJumpDest p = (markJumpDests 0 c.bytes.toList).getD p false := by
  rw [isJumpDest, c.jumpDests_eq, Array.getD_eq_getD_getElem?, List.getElem?_toArray,
    List.getD_eq_getElem?_getD]

theorem isJumpDest_padded (p : Nat) : (c.padded n).isJumpDest p = c.isJumpDest p := by
  rw [isJumpDest_eq_getD, isJumpDest_eq_getD, bytes_padded, markJumpDests_append_zeros,
    getD_append_replicate]

theorem jumpTarget_padded (target : Word) :
    (c.padded n).jumpTarget target = c.jumpTarget target := by
  rw [jumpTarget, jumpTarget, isJumpDest_padded]

theorem immediateAt_eq_window (position len : Nat) :
    c.immediateAt position len
      = Word.ofNat (Bytes.toNat (Bytes.window c.bytes.toList position len)) := by
  rw [immediateAt, Bytes.window, Array.toList_extract, List.extract_eq_take_drop,
    Nat.add_sub_cancel_left]

theorem immediateAt_padded (position len : Nat) :
    (c.padded n).immediateAt position len = c.immediateAt position len := by
  rw [immediateAt_eq_window, immediateAt_eq_window, bytes_padded, Bytes.window_append_zeros]

end Code

/-! ## Steps -/

/-- The context with zeros behind its code. -/
def Context.padded (c : Context) (n : Nat) : Context :=
  { c with code := c.code.padded n }

section

variable {σ : Type} [Host σ] {c : Context} {f : Frame} {host : σ} (n : Nat)

/-- Only jumps and pushes look at the code, and both see the same. -/
theorem Operation.perform_padded (op : Operation) :
    op.perform (c.padded n) f host = op.perform c f host := by
  cases op with
  | jump | jumpi => simp only [perform, Context.padded, Code.jumpTarget_padded]
  | push len => simp only [perform, Context.padded, Code.immediateAt_padded]
  | _ => rfl

theorem Context.execute_padded (opcode : UInt8) :
    (c.padded n).execute f host opcode = c.execute f host opcode := by
  have attempts (f : Frame) (op : Operation) :
      (c.padded n).attempt f host op = c.attempt f host op := by
    rw [attempt, attempt, Operation.perform_padded]
  simp only [execute, attempts]
  rfl

theorem Operation.at?_zero (r : Revision) : at? r 0 = some stop :=
  at?_eq_some.mpr ⟨by decide, by cases r <;> decide⟩

/-- A zero that costs nothing stops the execution as the end of the code does. -/
theorem Context.execute_zero (free : c.config.gasSchedule.instructionCost (some .stop) = 0)
    (solvent : 0 ≤ f.gas.remaining) :
    (c.execute f host 0).frame = f.halt .success [] ∧ (c.execute f host 0).host = host := by
  have paid : f.gas.charge 0 = .ok f.gas :=
    GasMeter.charge_eq_ok.mpr ⟨solvent, (GasMeter.less_zero _).symm⟩
  have room : f.stack.require Operation.stop.inputs Operation.stop.outputs = .ok () := by
    simp [Stack.require, Operation.inputs, Operation.outputs]
  have stops : c.attempt f host .stop
      = .ok { Effect.nothing f host with control := .halt .success [] } := by
    simp only [attempt, room]
    rfl
  simp only [execute, Operation.at?_zero, free, paid, stops]
  exact ⟨rfl, rfl⟩

theorem Context.step_padded (free : c.config.gasSchedule.instructionCost (some .stop) = 0)
    (solvent : 0 ≤ f.gas.remaining) :
    ((c.padded n).step f host).frame = (c.step f host).frame ∧
      ((c.padded n).step f host).host = (c.step f host).host := by
  cases state : f.state with
  | halted result => simp [step, state]
  | running =>
    by_cases within : f.pc < c.code.size
    · -- Both fetch the same opcode.
      have fetched : c.code.bytes[f.pc]? = some _ := Array.getElem?_eq_getElem within
      have fetched' := (c.code.getElem?_padded_of_lt n within).trans fetched
      rw [step_of_fetched state fetched, step_of_fetched (c := c.padded n) state fetched',
        execute_padded]
      exact ⟨rfl, rfl⟩
    · have past := Nat.le_of_not_lt within
      rw [step_of_past state (Array.getElem?_eq_none past)]
      rcases c.code.getElem?_padded_of_le n past with zero | none
      · rw [step_of_fetched (c := c.padded n) state zero]
        exact execute_zero free solvent
      · rw [step_of_past (c := c.padded n) state none]
        exact ⟨rfl, rfl⟩

end

/-! ## Executions -/

namespace Execution

variable {σ : Type} [Host σ]

/-- Zeros behind the code make no difference to any number of steps, if stopping is free and the
execution begins without debt. -/
theorem agrees_steps_padded {e : Execution σ}
    (free : e.context.config.gasSchedule.instructionCost (some .stop) = 0)
    (funded : 0 ≤ e.frame.gas.remaining) (n k : Nat) :
    ((steps k e).inContext (e.context.padded n)).Agrees
      (steps k (e.inContext (e.context.padded n))) := by
  have solvent (i : Nat) : 0 ≤ (steps i e).frame.gas.remaining :=
    steps_induction (P := fun e => 0 ≤ e.frame.gas.remaining) (fun _ h => solvent_step h) funded i
  refine agrees_steps_inContext (fun i _ => ?_) (fun i _ => ?_) (Nat.le_refl k)
  · rw [(Context.step_padded n free (solvent i)).1, steps_succ_frame]
  · rw [(Context.step_padded n free (solvent i)).2, steps_succ_host]

/-- Where stopping is free, an execution that begins without debt ends if it does so with zeros
behind its code, after as many steps, with the same result and the same host. -/
theorem same_before_zeros (c : Context) (host : σ)
    (free : c.config.gasSchedule = .tiered ∨ c.config.gasSchedule = .uniform 0)
    (funded : 0 ≤ c.message.gas) (n : Nat) :
    let e := start c host
    let longer := start { c with code := c.code.padded n } host
    (∀ k result, longer.HaltsAfter k result ↔ e.HaltsAfter k result) ∧
      (∀ k, (steps k longer).host = (steps k e).host) ∧ longer.outcome? = e.outcome? := by
  intro e longer
  have stops : c.config.gasSchedule.instructionCost (some .stop) = 0 := by
    rcases free with free | free <;> rw [free] <;> rfl
  have agrees (k : Nat) : ((steps k e).inContext (c.padded n)).Agrees (steps k longer) :=
    agrees_steps_padded (e := start c host) stops funded n k
  have ends (k : Nat) (result : ExecutionResult) :
      longer.HaltsAfter k result ↔ e.HaltsAfter k result := by
    constructor
    · intro ends
      exact ends.of_frames fun i _ => (agrees i).frame.symm
    · intro ends
      exact ends.of_frames fun i _ => (agrees i).frame
  refine ⟨ends, fun k => (agrees k).host, Option.ext fun ⟨result, after⟩ => ?_⟩
  rw [outcome?_eq_some (start_stack_size_le _ host), outcome?_eq_some (start_stack_size_le c host)]
  refine exists_congr fun k => ?_
  rw [ends, (agrees k).host]
  rfl

/-- A slot is set, and a push that is cut off comes last. With three zeros behind it, it takes one
of them, and the next one stops the execution. -/
theorem same_before_zeros_push :
    let c : Context := ⟨{ Config.default with gasSchedule := .tiered }, .latest, .call 0 7 5009,
      .ofBytes [0x60, 0x2a, 0x60, 0x01, 0x55, 0x61, 0x07]⟩
    let e := start c RecordingHost.empty
    let longer := start { c with code := c.code.padded 3 } RecordingHost.empty
    (c.config.gasSchedule = .tiered ∧ 0 ≤ c.message.gas) ∧
      e.HaltsAfter 5 ⟨.success, 0, []⟩ ∧ longer.HaltsAfter 5 ⟨.success, 0, []⟩ ∧
      (steps 4 longer).opcode? = some 0 ∧ (steps 4 e).opcode? = none ∧
      (steps 5 longer).host = (steps 5 e).host ∧ (steps 5 longer).host.storageAt 7 1 = 0x2a := by
  intro c e longer
  have funded : 0 ≤ c.message.gas := by decide
  obtain ⟨halts, hosts, -⟩ := same_before_zeros c RecordingHost.empty (.inl rfl) funded 3
  have ends : e.HaltsAfter 5 ⟨.success, 0, []⟩ := ⟨by decide +kernel, by decide +kernel⟩
  refine ⟨⟨rfl, funded⟩, ends, (halts 5 _).mpr ends, by decide +kernel, by decide +kernel,
    hosts 5, ?_⟩
  rw [hosts 5]
  decide +kernel

end Execution

end StackMachine
