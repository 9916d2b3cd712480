import StackMachine.Frame.Routine
import StackMachine.Proofs.Settlement

/-!
# What routines come to

A routine comes to what `Operation.perform` says of its operation, on any stack within the limit:
`Routine.run_ofOperation`. What can fail fails before anything is changed, but for the target of a
jump. After the charge of `Routine.pay` the operands are there to be dropped, the regions lie within
the limit (`Routine.run_touch`, `Routine.run_read`, `Routine.run_deliver`), and the stack has room
for the result (`Routine.room_of_items`).
-/

namespace StackMachine

/-! ## Memory that is large enough -/

namespace Memory

variable {m : Memory}

theorem expand_ok {r : Region} (within : r.len = 0 ∨ r.offset + r.len ≤ m.limit) :
    m.expand r.offset r.len = .ok (m.growTo r.stop) := by
  rw [expand, Region.regionEnd_eq_ok.mpr ⟨within, rfl⟩]
  rfl

theorem read_ok {r : Region} (within : r.len = 0 ∨ r.offset + r.len ≤ m.limit) :
    m.read r.offset r.len = .ok (m.slice r.offset r.len) := by
  rw [read, Region.regionEnd_eq_ok.mpr ⟨within, rfl⟩]
  rfl

theorem readWord_ok {offset : Nat} (within : offset + 32 ≤ m.limit) :
    m.readWord offset = .ok (.ofNat (Bytes.toNat (m.slice offset 32))) := by
  let r : Region := ⟨offset, 32⟩
  have read : m.read r.offset r.len = .ok (m.slice offset 32) := read_ok (.inr within)
  rw [readWord, read]
  rfl

theorem put_nil {offset : Nat} (h : offset ≤ m.size) : m.put offset [] = m := by
  cases m with
  | mk data limit =>
    simp only [put, Memory.mk.injEq, and_true]
    apply ByteArray.ext
    simp [size] at h ⊢

/-- A write grows memory to the end of what is written. -/
theorem write_ok {offset : Nat} {bs : Bytes} (some : bs ≠ [])
    (within : offset + bs.length ≤ m.limit) :
    m.write offset bs = .ok ((m.growTo (offset + bs.length)).put offset bs) := by
  let r : Region := ⟨offset, bs.length⟩
  have some' : r.len ≠ 0 := fun empty => some (List.length_eq_zero_iff.mp empty)
  have stop : m.regionEnd r.offset r.len = .ok r.stop :=
    Region.regionEnd_eq_ok.mpr ⟨.inr within, rfl⟩
  rw [write, if_neg some, stop, Region.stop_eq some']
  rfl

end Memory

/-! ## Results -/

/-- Where an operation that comes to a result leads from a state. -/
def Performed.after {σ : Type} (s : Stepped σ) :
    Performed σ → EStateM.Result VmError (Stepped σ) Control
  | .ok e =>
    let frame := { s.frame with stack := e.stack, memory := e.memory, gas := e.gas }
    .ok e.control ⟨frame, e.host, s.events ++ e.events⟩
  | .error fault => .error fault.error (s.withStack fault.stack)

namespace Stepped

variable {σ : Type} (s : Stepped σ)

theorem after_quiet (control : Control) (stack : Stack) (memory : Memory) (gas : GasMeter)
    (host : σ) :
    Performed.after s (.ok ⟨control, stack, memory, gas, host, []⟩)
      = .ok control { ((s.withGas gas).withMemory memory).withStack stack with host } := by
  simp only [Performed.after, List.append_nil]
  rfl

@[simp] theorem frame_withMemory (memory : Memory) :
    (s.withMemory memory).frame = { s.frame with memory } := rfl

end Stepped

namespace Routine

variable {σ α β : Type} {s t : Stepped σ}

/-! ## Sequences -/

theorem run_bind_ok {x : Routine σ α} {k : α → Routine σ β} {a : α} (h : x.run s = .ok a t) :
    (x >>= k).run s = (k a).run t := by
  rw [EStateM.run_bind, h]

theorem run_bind_error {x : Routine σ α} {k : α → Routine σ β} {error : VmError}
    (h : x.run s = .error error t) : (x >>= k).run s = .error error t := by
  rw [EStateM.run_bind, h]

/-! ## Accesses -/

theorem run_given {x : Except VmError α} {a : α} (h : x = .ok a) :
    (ofExcept x : Routine σ α).run s = .ok a s := by
  rw [h]
  rfl

theorem run_given_error {x : Except VmError α} {error : VmError} (h : x = .error error) :
    (ofExcept x : Routine σ α).run s = .error error s := by
  rw [h]
  rfl

theorem run_frame_bind (k : Frame → Routine σ β) : (frame >>= k).run s = (k s.frame).run s := rfl

theorem run_charge {amount : Nat} {gas : GasMeter} (h : s.frame.gas.charge amount = .ok gas) :
    (charge amount).run s = .ok () (s.withGas gas) := by
  rw [charge, run_frame_bind, run_bind_ok (run_given h), EStateM.run_modify]

theorem run_charge_error {amount : Nat} {error : VmError}
    (h : s.frame.gas.charge amount = .error error) : (charge amount).run s = .error error s := by
  rw [charge, run_frame_bind, run_bind_error (run_given_error h)]

theorem run_onStack {call : Stack → Except VmError Stack} {stack : Stack}
    (h : call s.frame.stack = .ok stack) : (onStack call).run s = .ok () (s.withStack stack) := by
  rw [onStack, run_frame_bind, run_bind_ok (run_given h), EStateM.run_modify]

theorem run_onStack_error {call : Stack → Except VmError Stack} {error : VmError}
    (h : call s.frame.stack = .error error) : (onStack call).run s = .error error s := by
  rw [onStack, run_frame_bind, run_bind_error (run_given_error h)]

theorem run_onMemory {call : Memory → Except VmError Memory} {memory : Memory}
    (h : call s.frame.memory = .ok memory) :
    (onMemory call).run s = .ok () (s.withMemory memory) := by
  rw [onMemory, run_frame_bind, run_bind_ok (run_given h), EStateM.run_modify]

theorem run_pop {w : Word} {rest : List Word} (items : s.frame.stack.items = w :: rest) :
    pop.run s = .ok w (s.withStack ⟨rest⟩) := by
  rw [pop, run_frame_bind, run_bind_ok (run_given (Stack.pop_eq_ok.mpr items))]
  rfl

theorem run_pop_error (items : s.frame.stack.items = []) :
    pop.run s = .error .stackUnderflow s := by
  have short : s.frame.stack.size = 0 := congrArg List.length items
  rw [pop, run_frame_bind, run_bind_error (run_given_error (Stack.pop_eq_error.mpr ⟨short, rfl⟩))]

theorem run_drop {taken rest : List Word} (items : s.frame.stack.items = taken ++ rest) :
    (drop taken.length).run s = .ok () (s.withStack ⟨rest⟩) := by
  induction taken generalizing s with
  | nil =>
    have same : s.frame.stack = ⟨rest⟩ := congrArg Stack.mk items
    rw [← same]
    rfl
  | cons w taken ih =>
    rw [List.length_cons, drop, run_bind_ok (run_pop items), ih rfl]
    rfl

theorem run_peek {depth : Nat} {w : Word} (item : s.frame.stack.items[depth]? = some w) :
    (peek depth).run s = .ok w s := by
  rw [peek, run_frame_bind, run_given (Stack.peek_eq_ok.mpr item)]

theorem run_peek_error {depth : Nat} (item : s.frame.stack.items[depth]? = none) :
    (peek depth).run s = .error .stackUnderflow s := by
  have short : s.frame.stack.size ≤ depth := List.getElem?_eq_none_iff.mp item
  rw [peek, run_frame_bind, run_given_error (Stack.peek_eq_error.mpr ⟨short, rfl⟩)]

theorem run_push {w : Word} (room : s.frame.stack.size < stackLimit) :
    (push w).run s = .ok .next (s.withStack ⟨w :: s.frame.stack.items⟩) := by
  rw [push, run_bind_ok (run_onStack (Stack.push_eq_ok.mpr ⟨room, rfl⟩)), EStateM.run_pure]

/-! ## Memory that is paid for -/

theorem grown_eq {m : Memory} {size : Nat} (large : m.size ≤ size) (regions : List Region) :
    grown m size regions = (Region.reach m regions).map (max size) := by
  induction regions generalizing size with
  | nil => simp [grown, Region.reach, Except.map, Nat.max_eq_left large]
  | cons r rest ih =>
    simp only [grown, Region.reach, Memory.growth]
    cases ends : m.regionEnd r.offset r.len with
    | error error => rfl
    | ok stop =>
      have further : max size (Option.getD (if m.size < stop then some stop else none) 0)
          = max size stop := by
        split
        · rfl
        · show max size 0 = _
          omega
      simp only [Except.map, bind, Except.bind, further,
        ih (Nat.le_trans large (Nat.le_max_left _ _))]
      cases Region.reach m rest with
      | error error => rfl
      | ok furthest => simp only [pure, Except.pure, Nat.max_assoc]

/-- Region by region, memory is found to reach as far as settling takes it. -/
theorem grown_size (m : Memory) (regions : List Region) :
    grown m m.size regions = Region.reach m regions := by
  rw [grown_eq (Nat.le_refl _)]
  cases reached : Region.reach m regions with
  | error error => rfl
  | ok size =>
    obtain ⟨-, rfl⟩ := Region.reach_eq_ok.mp reached
    rw [Except.map, Nat.max_eq_right (Region.size_le_furthest m regions)]

section

variable {policy : MemoryPolicy} {regions : List Region} {extra : Nat} {memory : Memory}
  {gas : GasMeter}

theorem run_pay (settled : s.frame.settle policy regions extra = .ok (memory, gas)) :
    (pay policy regions extra).run s = .ok () (s.withGas gas) := by
  obtain ⟨size, reached, h⟩ := bind_eq_ok.mp settled
  obtain ⟨paid, charged, same⟩ := bind_eq_ok.mp h
  cases same
  rw [pay, run_frame_bind, run_bind_ok (run_given ((grown_size _ _).trans reached)),
    run_charge charged]

theorem run_pay_error {error : VmError}
    (refused : s.frame.settle policy regions extra = .error error) :
    (pay policy regions extra).run s = .error error s := by
  rcases bind_eq_error.mp refused with outside | ⟨size, reached, h⟩
  · rw [pay, run_frame_bind, run_bind_error (run_given_error ((grown_size _ _).trans outside))]
  · rcases bind_eq_error.mp h with unpaid | ⟨_, _, same⟩
    · rw [pay, run_frame_bind, run_bind_ok (run_given ((grown_size _ _).trans reached)),
        run_charge_error unpaid]
    · cases same

theorem run_expand (within : ∀ r ∈ regions, r.len = 0 ∨ r.offset + r.len ≤ s.frame.memory.limit) :
    (expand regions).run s = .ok ()
      (s.withMemory (s.frame.memory.growTo (Region.furthest s.frame.memory regions))) := by
  induction regions generalizing s with
  | nil =>
    rw [Region.furthest_nil, Memory.growTo_of_le _ (Nat.le_refl _)]
    rfl
  | cons r rest ih =>
    obtain ⟨first, others⟩ := List.forall_mem_cons.mp within
    rw [expand, run_bind_ok (run_onMemory (Memory.expand_ok first)), ih]
    · simp only [Stepped.frame_withMemory, Region.furthest_growTo, Region.furthest_cons,
        Memory.growTo_growTo _ (Nat.le_max_left _ _)]
      rfl
    · simpa only [Stepped.frame_withMemory, Memory.limit_growTo] using others

/-- Once memory is paid for, the operands are there to be dropped and the regions can be touched. -/
theorem run_touch (settled : s.frame.settle policy regions extra = .ok (memory, gas))
    {taken rest : List Word} (items : s.frame.stack.items = taken ++ rest) (count : Nat)
    (all : taken.length = count) (k : Routine σ β) :
    (do drop count; expand regions; k).run (s.withGas gas)
      = k.run (((s.withGas gas).withStack ⟨rest⟩).withMemory memory) := by
  subst all
  obtain ⟨within, -, rfl, -⟩ := Frame.settle_eq_ok.mp settled
  let dropped := (s.withGas gas).withStack ⟨rest⟩
  have drops : (drop taken.length).run (s.withGas gas) = .ok () dropped := run_drop items
  have expands : (expand regions).run dropped = .ok () (dropped.withMemory _) := run_expand within
  rw [run_bind_ok drops, run_bind_ok expands]
  rfl

end

theorem run_read {region : Option Region}
    (within : ∀ r ∈ region.toList, r.len = 0 ∨ r.offset + r.len ≤ s.frame.memory.limit) :
    (read region).run s = .ok (Region.bytes s.frame.memory region) s := by
  cases region with
  | none => rfl
  | some r =>
    rw [read, run_frame_bind, run_given (Memory.read_ok (within r (by simp)))]
    rfl

/-- The output of a nested call fits into a region that was touched before. -/
theorem run_deliver {output : Bytes} {region : Option Region}
    (within : ∀ r ∈ region.toList, r.len ≠ 0 ∧ r.offset + r.len ≤ s.frame.memory.size ∧
      r.offset + r.len ≤ s.frame.memory.limit) :
    (deliver output region).run s = .ok ()
      (s.withMemory (writeOutput s.frame.memory region output)) := by
  cases region with
  | none => rfl
  | some r =>
    obtain ⟨some, size, limit⟩ := within r (by simp)
    have shorter : (output.take r.len).length ≤ r.len := List.length_take_le _ _
    rw [deliver]
    refine run_onMemory ?_
    by_cases none : output.take r.len = []
    · have start : r.offset ≤ s.frame.memory.size := Nat.le_of_add_right_le size
      rw [Memory.write, if_pos none, writeOutput, none, Memory.put_nil start]
    · rw [Memory.write_ok none (by omega), Memory.growTo_of_le _ (by omega)]
      rfl

/-! ## Operands -/

theorem run_peek_bind (depth : Nat) (k : Word → Routine σ β) :
    (peek depth >>= k).run s = match s.frame.stack.items[depth]? with
      | some w => (k w).run s
      | none => .error .stackUnderflow s := by
  cases item : s.frame.stack.items[depth]? with
  | none => exact run_bind_error (run_peek_error item)
  | some w => exact run_bind_ok (run_peek item)

theorem run_peek_one (k : Word → Routine σ β) :
    (do let a ← peek 0; k a).run s = match s.frame.stack.items with
      | a :: _ => (k a).run s
      | _ => .error .stackUnderflow s := by
  rw [run_peek_bind]
  cases s.frame.stack.items <;> rfl

theorem run_peek_two (k : Word → Word → Routine σ β) :
    (do let a ← peek 0; let b ← peek 1; k a b).run s = match s.frame.stack.items with
      | a :: b :: _ => (k a b).run s
      | _ => .error .stackUnderflow s := by
  simp only [run_peek_bind]
  match s.frame.stack.items with
  | [] | [_] | _ :: _ :: _ => rfl

theorem run_peek_seven (k : Word → Word → Word → Word → Word → Word → Word → Routine σ β) :
    (do
      let a ← peek 0
      let b ← peek 1
      let c ← peek 2
      let d ← peek 3
      let e ← peek 4
      let f ← peek 5
      let g ← peek 6
      k a b c d e f g).run s = match s.frame.stack.items with
      | a :: b :: c :: d :: e :: f :: g :: _ => (k a b c d e f g).run s
      | _ => .error .stackUnderflow s := by
  simp only [run_peek_bind]
  match s.frame.stack.items with
  | [] | [_] | [_, _] | [_, _, _] | [_, _, _, _] | [_, _, _, _, _] | [_, _, _, _, _, _]
  | _ :: _ :: _ :: _ :: _ :: _ :: _ :: _ => rfl

/-- An operation that is over leaves what it has changed, and no event. -/
theorem run_return {control : Control} {stack : Stack} {memory : Memory} {gas : GasMeter}
    {host : σ} :
    (return control : Routine σ Control).run
        { ((s.withGas gas).withMemory memory).withStack stack with host }
      = Performed.after s (.ok ⟨control, stack, memory, gas, host, []⟩) :=
  (EStateM.run_pure _ _).trans (s.after_quiet _ _ _ _ _).symm

/-- A stack within the limit has room again once words are taken off. -/
theorem room_of_items (fits : s.frame.stack.size ≤ stackLimit) {taken rest : List Word}
    (items : s.frame.stack.items = taken ++ rest) (some : taken ≠ []) :
    rest.length < stackLimit := by
  have positive := List.length_pos_iff.mpr some
  rw [Stack.size, items, List.length_append] at fits
  omega

/-- A result can be pushed in place of the operands that were taken off. -/
theorem run_push_result (fits : s.frame.stack.size ≤ stackLimit) {taken rest : List Word}
    (items : s.frame.stack.items = taken ++ rest) (some : taken ≠ []) {w : Word} {memory : Memory}
    {gas : GasMeter} {host : σ} :
    (push w).run { ((s.withGas gas).withMemory memory).withStack ⟨rest⟩ with host }
      = Performed.after s (.ok ⟨.next, ⟨w :: rest⟩, memory, gas, host, []⟩) :=
  (run_push (room_of_items fits items some)).trans (s.after_quiet _ _ _ _ _).symm

/-! ## Operations on memory -/

/-- Reading operands as positions and regions changes nothing, whether it fails or not. -/
theorem run_naming {x : Except VmError α} {k : α → Routine σ Control}
    {k' : α → Except VmError (Effect σ)}
    (goes : ∀ a, x = .ok a → (k a).run s = (Performed.keepingStack s.frame (k' a)).after s) :
    (ofExcept x >>= k).run s = (Performed.keepingStack s.frame (x >>= k')).after s := by
  cases x with
  | error error => exact run_bind_error (run_given_error rfl)
  | ok a => exact (run_bind_ok (run_given rfl)).trans (goes a rfl)

/-- What memory costs is charged in one amount: all of it or, on a fault, none. -/
theorem run_paying {policy : MemoryPolicy} {regions : List Region} {extra : Nat}
    {k : Routine σ Control} {k' : Memory × GasMeter → Except VmError (Effect σ)}
    (goes : ∀ memory gas, s.frame.settle policy regions extra = .ok (memory, gas) →
      k.run (s.withGas gas) = (Performed.keepingStack s.frame (k' (memory, gas))).after s) :
    (do pay policy regions extra; k).run s
      = (Performed.keepingStack s.frame (s.frame.settle policy regions extra >>= k')).after s := by
  cases settled : s.frame.settle policy regions extra with
  | error error => exact run_bind_error (run_pay_error settled)
  | ok paid => exact (run_bind_ok (run_pay settled)).trans (goes paid.1 paid.2 settled)

section

variable {c : Context} (fits : s.frame.stack.size ≤ stackLimit)

include fits in
theorem run_keccak :
    (keccak c).run s
      = (Performed.keepingStack s.frame (performKeccak c s.frame s.host)).after s := by
  rw [keccak, run_peek_two, performKeccak]
  rcases items : s.frame.stack.items with _ | ⟨offset, _ | ⟨len, rest⟩⟩
  · rfl
  · rfl
  · have operands : s.frame.stack.items = [offset, len] ++ rest := items
    refine run_naming fun region _ => run_paying fun memory gas settled => ?_
    rw [run_touch settled operands 2 rfl, run_bind_ok (run_read (Frame.within_of_settle settled))]
    exact run_push_result fits operands (List.cons_ne_nil _ _)

include fits in
theorem run_load :
    (load c).run s = (Performed.keepingStack s.frame (performLoad c s.frame s.host)).after s := by
  rw [load, run_peek_one, performLoad]
  cases items : s.frame.stack.items with
  | nil => rfl
  | cons top rest =>
    have operands : s.frame.stack.items = [top] ++ rest := items
    refine run_naming fun offset _ => run_paying fun memory gas settled => ?_
    have within : offset + 32 ≤ memory.limit := by simpa using Frame.within_of_settle settled
    rw [run_touch settled operands 1 rfl]
    refine (run_bind_ok (run_given (Memory.readWord_ok within))).trans ?_
    exact run_push_result fits operands (List.cons_ne_nil _ _)

theorem run_store {len : Nat} {write : Memory → Nat → Word → Except VmError Memory}
    {bytes : Word → Bytes} (writes : ∀ m offset w, write m offset w = m.write offset (bytes w))
    (length : ∀ w, (bytes w).length = len) (some : len ≠ 0) :
    (store c len write).run s
      = (Performed.keepingStack s.frame (performStore c s.frame s.host bytes)).after s := by
  rw [store, run_peek_two, performStore]
  rcases items : s.frame.stack.items with _ | ⟨top, _ | ⟨value, rest⟩⟩
  · rfl
  · rfl
  · have operands : s.frame.stack.items = [top, value] ++ rest := items
    refine run_naming fun offset _ => ?_
    dsimp only
    rw [length]
    refine run_paying fun memory gas settled => ?_
    obtain ⟨within, -, rfl, -⟩ := Frame.settle_eq_ok.mp settled
    let dropped := (s.withGas gas).withStack ⟨rest⟩
    have drops : (drop 2).run (s.withGas gas) = .ok () dropped :=
      run_drop (s := s.withGas gas) operands
    -- Nothing was touched yet: it is the write that grows memory.
    have written : write dropped.frame.memory offset value = .ok
        ((s.frame.memory.growTo (Region.furthest s.frame.memory [⟨offset, len⟩])).put offset
          (bytes value)) := by
      have limit : offset + (bytes value).length ≤ s.frame.memory.limit := by
        simpa [length, some] using within
      have nonempty : bytes value ≠ [] := by
        rw [← List.length_pos_iff, length]
        exact Nat.pos_of_ne_zero some
      rw [writes, Region.furthest_cons, Region.furthest_nil, Memory.growTo_max, Region.stop_eq some,
        ← length value]
      exact Memory.write_ok nonempty limit
    rw [run_bind_ok drops, run_bind_ok (run_onMemory written)]
    exact run_return

theorem run_halt {status : Status} :
    (halt c status).run s
      = (Performed.keepingStack s.frame (performHalt c s.frame s.host status)).after s := by
  rw [halt, run_peek_two, performHalt]
  rcases items : s.frame.stack.items with _ | ⟨offset, _ | ⟨len, rest⟩⟩
  · rfl
  · rfl
  · have operands : s.frame.stack.items = [offset, len] ++ rest := items
    refine run_naming fun region _ => run_paying fun memory gas settled => ?_
    rw [run_touch settled operands 2 rfl, run_bind_ok (run_read (Frame.within_of_settle settled))]
    exact run_return

include fits in
theorem run_call [Host σ] :
    (call c).run s = (Performed.keepingStack s.frame (performCall c s.frame s.host)).after s := by
  rw [call, run_peek_seven, performCall]
  rcases items : s.frame.stack.items with _ | ⟨forwarded, _ | ⟨target, _ | ⟨value,
    _ | ⟨inOffset, _ | ⟨inLen, _ | ⟨outOffset, _ | ⟨outLen, rest⟩⟩⟩⟩⟩⟩⟩
  -- With fewer than seven operands, peeking fails on both sides.
  iterate 7 rfl
  · have operands : s.frame.stack.items =
      [forwarded, target, value, inOffset, inLen, outOffset, outLen] ++ rest := items
    have some : [forwarded, target, value, inOffset, inLen, outOffset, outLen] ≠ [] :=
      List.cons_ne_nil _ _
    refine run_naming fun input _ => run_naming fun output named => ?_
    by_cases transfers : c.message.isStatic ∧ value ≠ 0
    · rw [if_pos transfers, if_pos transfers]
      rfl
    · rw [if_neg transfers, if_neg transfers]
      refine run_paying fun memory gas settled => ?_
      rw [run_touch settled operands 7 rfl]
      dsimp only
      by_cases deep : c.config.maxCallDepth ≤ c.message.depth
      · rw [if_pos deep, if_pos deep]
        refine (run_bind_ok rfl).trans ?_
        exact (run_push (room_of_items fits operands some)).trans rfl
      · rw [if_neg deep, if_neg deep]
        have limits := Frame.within_of_settle settled
        have input_within : ∀ r ∈ input.toList, r.len = 0 ∨ r.offset + r.len ≤ memory.limit :=
          fun r hr => limits r (List.mem_append_left _ hr)
        rw [run_bind_ok (run_read input_within)]
        refine (run_bind_ok rfl).trans ?_
        -- The region of the output was touched, so writing to it neither fails nor grows memory.
        refine (run_bind_ok (run_deliver fun r hr => ?_)).trans ?_
        · have region : r ∈ input.toList ++ output.toList := List.mem_append_right _ hr
          have nonempty : r.len ≠ 0 := by
            rw [Option.mem_toList.mp hr] at named
            exact Region.len_ne_zero_of_ofOperands named
          have stop := Frame.stop_le_of_settle settled r region
          rw [Region.stop_eq nonempty] at stop
          exact ⟨nonempty, stop, (limits r region).resolve_left nonempty⟩
        · exact run_push_result fits operands some

end

/-! ## Operations on the stack -/

theorem run_pop_error_after (items : s.frame.stack.items = []) :
    pop.run s = .error .stackUnderflow (s.withStack .empty) := by
  have same : s.frame.stack = .empty := congrArg Stack.mk items
  rw [run_pop_error items, ← same]
  rfl

theorem run_pop_one {k : Word → Routine σ Control} {k' : Word → List Word → Performed σ}
    (goes : ∀ a rest, s.frame.stack.items = a :: rest →
      (k a).run (s.withStack ⟨rest⟩) = (k' a rest).after s) :
    (pop >>= k).run s = Performed.after s (match s.frame.stack.items with
      | a :: rest => k' a rest
      | _ => .drained) := by
  match items : s.frame.stack.items with
  | [] => exact run_bind_error (run_pop_error_after items)
  | a :: rest => exact (run_bind_ok (run_pop items)).trans (goes a rest items)

theorem run_pop_two {k : Word → Word → Routine σ Control}
    {k' : Word → Word → List Word → Performed σ}
    (goes : ∀ a b rest, s.frame.stack.items = a :: b :: rest →
      (k a b).run (s.withStack ⟨rest⟩) = (k' a b rest).after s) :
    (do let a ← pop; let b ← pop; k a b).run s = Performed.after s (match s.frame.stack.items with
      | a :: b :: rest => k' a b rest
      | _ => .drained) := by
  match items : s.frame.stack.items with
  | [] => exact run_bind_error (run_pop_error_after items)
  | [a] => exact (run_bind_ok (run_pop items)).trans (run_bind_error (run_pop_error_after rfl))
  | a :: b :: rest =>
    refine (run_bind_ok (run_pop items)).trans ?_
    exact (run_bind_ok (run_pop rfl)).trans (goes a b rest items)

theorem run_stacked (call : Stack → Except VmError Stack) :
    (do onStack call; return .next : Routine σ Control).run s
      = (Performed.ofStack s.frame s.host (call s.frame.stack)).after s := by
  cases made : call s.frame.stack with
  | error error => exact run_bind_error (run_onStack_error made)
  | ok stack => exact (run_bind_ok (run_onStack made)).trans run_return

/-! ## All operations -/

/-- On a stack within the limit the routine of an operation comes to what is said of the operation
as a whole. -/
theorem run_ofOperation [Host σ] {c : Context} (fits : s.frame.stack.size ≤ stackLimit)
    (op : Operation) :
    (ofOperation c op).run s = (op.perform c s.frame s.host).after s := by
  cases op with
  | stop | jumpDest => exact run_return
  | unary op | callDataLoad | sload =>
    refine run_pop_one fun a rest items => ?_
    have operands : s.frame.stack.items = [a] ++ rest := items
    exact run_push_result fits operands (List.cons_ne_nil _ _)
  | binary op =>
    refine run_pop_two fun a b rest items => ?_
    have operands : s.frame.stack.items = [a, b] ++ rest := items
    exact run_push_result fits operands (List.cons_ne_nil _ _)
  | keccak256 => exact run_keccak fits
  | observe quantity => exact run_stacked _
  | pop =>
    exact run_pop_one fun _ _ _ => run_return
  | mload => exact run_load fits
  | mstore => exact run_store (fun _ _ _ => rfl) Word.length_toBytes (by decide)
  | mstore8 => exact run_store (fun _ _ _ => rfl) (fun _ => rfl) (by decide)
  | sstore =>
    rw [ofOperation, Operation.perform]
    by_cases static : c.message.isStatic
    · rw [if_pos static, if_pos static]
      rfl
    · rw [if_neg static, if_neg static]
      exact run_pop_two fun key value rest items => run_return
  | jump =>
    refine run_pop_one fun target rest items => ?_
    cases c.code.jumpTarget target with
    | error error => rfl
    | ok position => exact run_return
  | jumpi =>
    refine run_pop_two fun target condition rest items => ?_
    by_cases falls : condition = 0
    · rw [if_pos falls, if_pos falls]
      exact run_return
    · rw [if_neg falls, if_neg falls]
      cases c.code.jumpTarget target with
      | error error => rfl
      | ok position => exact run_return
  | push n => exact run_stacked _
  | dup n => exact run_stacked _
  | swap n => exact run_stacked _
  | call => exact run_call fits
  | ret => exact run_halt
  | revert => exact run_halt

end Routine

end StackMachine
