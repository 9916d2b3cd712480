import StackMachine.Proofs.Arithmetic
import StackMachine.Proofs.Padding
import StackMachine.Proofs.Results

/-!
# Windows

Call data, code and memory are byte strings that are read as if endless zeros followed them: a byte
string begins a tape (`Bytes.tape`), and whatever is read of it is a window of that tape. There is
no other case for windows that end past the string, begin there, or have no bytes:
`Execution.reads_windows` says so of the operations that read.
-/

namespace StackMachine

namespace Bytes

/-- The tape that a byte string begins. The rest of it is zeros. -/
def tape (bs : Bytes) : Tape :=
  fun a => bs.getD a 0

theorem window_eq_read (bs : Bytes) (offset len : Nat) :
    bs.window offset len = bs.tape.read offset len := by
  refine List.ext_getElem? fun i => ?_
  by_cases hi : i < len
  · rw [getElem?_window bs offset len hi]
    simp [Tape.read, tape, hi]
  · rw [List.getElem?_eq_none (by rw [length_window]; omega)]
    simp [Tape.read, hi]

end Bytes

/-- The bytes of the number that a short byte string denotes are the string behind zeros. -/
theorem Word.toBytes_ofNat_short (bs : Bytes) (short : bs.length ≤ 32) :
    (ofNat (Bytes.toNat bs)).toBytes = List.replicate (32 - bs.length) 0 ++ bs := by
  rw [← Bytes.toNat_zeros_append (32 - bs.length) bs]
  apply toBytes_ofNat
  rw [List.length_append, List.length_replicate]
  omega

/-- Memory has the bytes of the tape that its own bytes begin. -/
theorem Memory.shows_tape (m : Memory) : m.Shows (Bytes.tape m.data.data.toList) := by
  intro a
  rw [byte, Bytes.tape, Array.getD_eq_getD_getElem?, List.getD_eq_getElem?_getD,
    Array.getElem?_toList]

theorem Tape.length_read (t : Tape) (offset len : Nat) : (t.read offset len).length = len := by
  simp [read]

/-- An operation gives back its region with one status only. -/
theorem Operation.GivesBack.unique {op : Operation} {status other : Status}
    (h : op.GivesBack status) (h' : op.GivesBack other) : status = other := by
  rcases h with ⟨rfl, rfl⟩ | ⟨rfl, rfl⟩ <;> rcases h' with ⟨same, rfl⟩ | ⟨same, rfl⟩
  · rfl
  · cases same
  · cases same
  · rfl

/-- An operation that gives back a region gives back a window of the memory before it. -/
theorem Performs.window_of_givesBack {σ : Type} [Host σ] {c : Context} {f : Frame} {host : σ}
    {e : Effect σ} {op : Operation} {status : Status} (h : Performs c f host op e)
    (gives : op.GivesBack status) :
    ∃ offset len rest, f.stack.items = offset :: len :: rest ∧
      e.control = .halt status
        ((Bytes.tape f.memory.data.data.toList).read offset.toNat len.toNat) := by
  cases h with
  | @returned _ _ offset len rest region memory gas halts items named settled =>
    -- What memory grows by is zeros, which the tape has anyway.
    have shows := (Frame.settle_tracks f.memory.shows_tape settled).shows
    refine ⟨offset, len, rest, items, ?_⟩
    rw [gives.unique halts, shows.bytes_eq named]
  | rearranged h => rcases gives with ⟨rfl, -⟩ | ⟨rfl, -⟩ <;> cases h
  | stored stores _ _ _ => rcases gives with ⟨rfl, -⟩ | ⟨rfl, -⟩ <;> simp at stores
  | stopped | jumped _ _ | branched _ _ _ | wrote _ _ | hashed _ _ _ | loaded _ _ _
  | refused _ _ _ _ _ _ | called _ _ _ _ _ _ _ _ =>
    rcases gives with ⟨other, -⟩ | ⟨other, -⟩ <;> cases other

/-! ## Steps -/

/-- The opcodes from `0x60` on push as many bytes as their distance from `0x5f`, under every
revision. -/
theorem Operation.at?_push (r : Revision) {n : Nat} (one : 1 ≤ n) (last : n ≤ 32) :
    at? r (UInt8.ofNat (0x5f + n)) = some (push n) := by
  have opcode : (UInt8.ofNat (0x5f + n)).toNat = 0x5f + n := by
    rw [UInt8.toNat_ofNat']
    omega
  have decodes : ofByte? (UInt8.ofNat (0x5f + n)) = some (push n) := by
    have pushes : (0x5f : UInt8) ≤ UInt8.ofNat (0x5f + n) ∧ UInt8.ofNat (0x5f + n) ≤ 0x7f := by
      simp only [UInt8.le_iff_toNat_le, UInt8.reduceToNat]
      omega
    rw [ofByte?, if_pos pushes, opcode, Nat.add_sub_cancel_left]
  have first : (push n).since = .frontier := if_neg (Nat.ne_of_gt one)
  rw [at?_eq_some, first]
  exact ⟨decodes, by cases r <;> decide⟩

namespace Execution

variable {σ : Type} [Host σ]

theorem step_of_callDataLoad {e : Execution σ} {price : Nat} {offset : Word} {rest : List Word}
    (decoded : e.operation? = some .callDataLoad)
    (priced : price = e.context.config.gasSchedule.instructionCost (some .callDataLoad))
    (paid : (price : Int) ≤ e.frame.gas.remaining) (items : e.frame.stack.items = offset :: rest) :
    ∃ w : Word, w.toBytes = e.context.message.input.tape.read offset.toNat 32 ∧
      e.step.frame = { e.frame with
        pc := e.frame.pc + 1
        stack := ⟨w :: rest⟩
        gas := e.frame.gas.less price } ∧
      e.step.host = e.host := by
  have enough : 1 ≤ e.frame.stack.size := by simp [Stack.size, items]
  have room := Stack.require_of_le enough (Nat.le_refl 1)
  refine ⟨_, ?_, step_of_rearranges decoded priced paid room (.callDataLoad items)⟩
  rw [Word.toBytes_ofNat (Bytes.length_window _ _ 32), Bytes.window_eq_read]

theorem step_of_push {e : Execution σ} {n price : Nat} (decoded : e.operation? = some (.push n))
    (priced : price = e.context.config.gasSchedule.instructionCost (some (.push n)))
    (paid : (price : Int) ≤ e.frame.gas.remaining) (room : e.frame.stack.size < stackLimit)
    (short : n ≤ 32) :
    let read := (Bytes.tape e.context.code.bytes.toList).read (e.frame.pc + 1) n
    ∃ w : Word, w.value = Bytes.toNat read ∧ w.toBytes = List.replicate (32 - n) 0 ++ read ∧
      e.step.frame = { e.frame with
        pc := e.frame.pc + 1 + n
        stack := ⟨w :: e.frame.stack.items⟩
        gas := e.frame.gas.less price } ∧
      e.step.host = e.host := by
  intro read
  have length : read.length = n := Tape.length_read _ _ _
  have pushed : e.context.code.immediateAt (e.frame.pc + 1) n = Word.ofNat (Bytes.toNat read) := by
    rw [Code.immediateAt_eq_window, Bytes.window_eq_read]
  have bytes := Word.toBytes_ofNat_short read (by omega)
  rw [length, ← pushed] at bytes
  have takes :
      e.frame.stack.require (Operation.push n).inputs (Operation.push n).outputs = .ok () := by
    have fits : ¬ stackLimit < e.frame.stack.size - 0 + 1 := by omega
    exact (if_neg (Nat.not_lt_zero _)).trans (if_neg fun full => fits full.2)
  refine ⟨_, ?_, bytes, step_of_rearranges decoded priced paid takes (.push room)⟩
  rw [Word.value, bytes, Bytes.toNat_zeros_append]

/-- What is read of call data, code or memory is a window of the tape that it begins, wherever the
window lies. A load of call data pushes the word of thirty-two bytes; a push pushes the number that
its bytes denote, zeros in front of them; and the operations that give back a region give back the
bytes that memory had before them. -/
theorem reads_windows :
    (∀ (e : Execution σ) (offset : Word) (rest : List Word),
        let price := e.context.config.gasSchedule.instructionCost (some .callDataLoad)
        e.operation? = some .callDataLoad → (price : Int) ≤ e.frame.gas.remaining →
        e.frame.stack.items = offset :: rest →
        ∃ w : Word, w.toBytes = e.context.message.input.tape.read offset.toNat 32 ∧
          e.step.frame = { e.frame with
            pc := e.frame.pc + 1, stack := ⟨w :: rest⟩, gas := e.frame.gas.less price } ∧
          e.step.host = e.host) ∧
      (∀ (e : Execution σ) (n : Nat), 1 ≤ n → n ≤ 32 →
        let price := e.context.config.gasSchedule.instructionCost (some (.push n))
        let read := (Bytes.tape e.context.code.bytes.toList).read (e.frame.pc + 1) n
        e.opcode? = some (UInt8.ofNat (0x5f + n)) → (price : Int) ≤ e.frame.gas.remaining →
        e.frame.stack.size < stackLimit →
        ∃ w : Word, w.value = Bytes.toNat read ∧ w.toBytes = List.replicate (32 - n) 0 ++ read ∧
          e.step.frame = { e.frame with
            pc := e.frame.pc + 1 + n
            stack := ⟨w :: e.frame.stack.items⟩
            gas := e.frame.gas.less price } ∧
          e.step.host = e.host) ∧
      ∀ (e : Execution σ) (op : Operation) (status : Status),
        op = .ret ∧ status = .success ∨ op = .revert ∧ status = .revert → e.completes op = true →
        ∃ offset len rest gasLeft, e.frame.stack.items = offset :: len :: rest ∧
          e.step.frame.state = .halted ⟨status, gasLeft,
            (Bytes.tape e.frame.memory.data.data.toList).read offset.toNat len.toNat⟩ := by
  refine ⟨?_, ?_, ?_⟩
  · intro e offset rest price decoded paid items
    exact step_of_callDataLoad decoded rfl paid items
  · intro e n one last price read fetched paid room
    have decoded : e.operation? = some (.push n) := by
      rw [operation?, fetched, Option.bind_some, Operation.at?_push _ one last]
    exact step_of_push decoded rfl paid room last
  · intro e op status gives completes
    obtain ⟨opcode, effect, -, performs, frame, -⟩ := performs_of_completes completes
    obtain ⟨offset, len, rest, items, control⟩ := performs.window_of_givesBack gives
    have state : e.step.frame.state = .halted (.ofStatus status effect.gas.remaining
        ((Bytes.tape e.frame.memory.data.data.toList).read offset.toNat len.toNat)) := by
      rw [frame, Frame.proceed, control]
      rfl
    exact ⟨offset, len, rest, _, items, state⟩

/-- Two of thirty-two bytes of call data are there; one of two bytes of code; and two of three bytes
of memory. -/
theorem reads_windows_cut :
    let load := steps 1 (start ⟨.default, .latest, (Message.call 0 0 9).withInput [1, 2, 3],
      .ofBytes [0x60, 1, 0x35]⟩ RecordingHost.empty)
    let push := start ⟨.default, .frontier, .call 0 0 9, .ofBytes [0x61, 0xab]⟩ RecordingHost.empty
    let give := steps 5 (start ⟨.default, .latest, .call 0 0 9,
      .ofBytes [0x60, 0x2a, 0x60, 7, 0x53, 0x60, 3, 0x60, 6, 0xf3]⟩ RecordingHost.empty)
    ((load.operation? = some .callDataLoad ∧ (1 : Int) ≤ load.frame.gas.remaining ∧
          load.frame.stack.items = [1]) ∧
        (1 ≤ 2 ∧ 2 ≤ 32 ∧ push.opcode? = some (UInt8.ofNat (0x5f + 2)) ∧
          (1 : Int) ≤ push.frame.gas.remaining ∧ push.frame.stack.size < stackLimit) ∧
        (Operation.ret = .ret ∧ Status.success = .success) ∧ give.completes .ret = true) ∧
      (∃ w : Word, load.step.frame.stack.items = [w] ∧ w.toBytes = [2, 3] ++ List.replicate 30 0) ∧
      (∃ w : Word, push.step.frame.stack.items = [w] ∧ w.value = 0xab00) ∧
      ∃ gasLeft, give.step.frame.state = .halted ⟨.success, gasLeft, [0, 0x2a, 0]⟩ := by
  intro load push give
  have decoded : load.operation? = some .callDataLoad := by decide +kernel
  have paid : (1 : Int) ≤ load.frame.gas.remaining := by decide +kernel
  have items : load.frame.stack.items = [1] := by decide +kernel
  have fetched : push.opcode? = some (UInt8.ofNat (0x5f + 2)) := by decide +kernel
  have paid' : (1 : Int) ≤ push.frame.gas.remaining := by decide +kernel
  have room : push.frame.stack.size < stackLimit := by decide +kernel
  have completes : give.completes .ret = true := by decide +kernel
  have operands : give.frame.stack.items = [6, 3] := by decide +kernel
  have memory : give.frame.memory.data.data.toList = [0, 0, 0, 0, 0, 0, 0, 0x2a] := by
    decide +kernel
  obtain ⟨loads, pushes, gives⟩ := @reads_windows RecordingHost _
  obtain ⟨w, bytes, frame, -⟩ := loads load 1 [] decoded paid items
  obtain ⟨v, value, -, frame', -⟩ := pushes push 2 (by decide) (by decide) fetched paid' room
  obtain ⟨offset, len, rest, gasLeft, items', state⟩ :=
    gives give .ret .success (.inl ⟨rfl, rfl⟩) completes
  rw [operands] at items'
  cases items'
  rw [memory] at state
  refine ⟨⟨⟨decoded, paid, items⟩, ⟨by decide, by decide, fetched, paid', room⟩, ⟨rfl, rfl⟩,
    completes⟩, ⟨w, by rw [frame], bytes.trans (by decide +kernel)⟩,
    ⟨v, by rw [frame']; rfl, value.trans (by decide +kernel)⟩, gasLeft, state⟩

end Execution

end StackMachine
