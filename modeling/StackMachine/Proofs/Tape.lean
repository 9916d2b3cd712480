import StackMachine.Host.Recording
import StackMachine.Proofs.Settlement
import StackMachine.Proofs.Steps

/-!
# Memory as a tape

A tape has a byte at every address, zero until it is written. Memory shows the tape up to the
furthest end of the regions that were touched, and past that end the tape is blank. What is written
and what is touched is read off the operands of each instruction, not off the memory:
`Performs.tracks` ties the two together for one operation, `Execution.steps_track` for a whole run.
-/

namespace StackMachine

/-! ## Bytes of words -/

/-- The bytes of a number from the most significant one on, each on its own. -/
theorem Bytes.ofNat_eq_map (len n : Nat) :
    ofNat len n = (List.range len).map fun i => UInt8.ofNat (n >>> (8 * (len - 1 - i))) := by
  induction len generalizing n with
  | zero => rfl
  | succ len ih =>
    rw [ofNat, ih, List.range_succ, List.map_append]
    congr 1
    · refine List.map_congr_left fun i hi => ?_
      have place : 8 * (len + 1 - 1 - i) = 8 + 8 * (len - 1 - i) := by
        have := List.mem_range.mp hi
        omega
      rw [place, Nat.shiftRight_add, Nat.shiftRight_eq_div_pow n 8]
    · simp

theorem Word.toBytes_eq_map (w : Word) :
    w.toBytes = (List.range 32).map fun i => UInt8.ofNat (w.toNat >>> (8 * (31 - i))) :=
  Bytes.ofNat_eq_map 32 w.toNat

theorem Word.byte_last (w : Word) : w.byte 31 = UInt8.ofNat w.toNat := by
  simp [byte, toBytes_eq_map]

/-! ## Tapes -/

/-- A byte for every address. -/
abbrev Tape := Nat → UInt8

namespace Tape

/-- The tape that nothing was written to. -/
def blank : Tape :=
  fun _ => 0

/-- The tape with bytes written from a position on. -/
def write (t : Tape) (offset : Nat) (bs : Bytes) : Tape :=
  fun a => if offset ≤ a then bs.getD (a - offset) (t a) else t a

/-- So many bytes from a position on. -/
def read (t : Tape) (offset len : Nat) : Bytes :=
  (List.range len).map fun i => t (offset + i)

theorem write_nil (t : Tape) (offset : Nat) : t.write offset [] = t := by
  funext a
  simp [write]

end Tape

/-- The memory has the bytes of the tape, zeros past its size included. -/
def Memory.Shows (m : Memory) (t : Tape) : Prop :=
  ∀ a, m.byte a = t a

namespace Memory.Shows

variable {m : Memory} {t : Tape}

theorem slice_eq (h : m.Shows t) (offset len : Nat) : m.slice offset len = t.read offset len := by
  refine List.ext_getElem? fun i => ?_
  by_cases hi : i < len
  · rw [getElem?_slice m offset len i hi, h]
    simp [Tape.read, hi]
  · rw [List.getElem?_eq_none (by rw [length_slice]; omega)]
    simp [Tape.read, hi]

theorem bytes_eq (h : m.Shows t) {offset len : Word} {region : Option Region}
    (named : Region.ofOperands offset len = .ok region) :
    Region.bytes m region = t.read offset.toNat len.toNat := by
  rcases Region.ofOperands_eq_ok.mp named with ⟨rfl, rfl⟩ | ⟨-, -, -, rfl⟩
  · rfl
  · exact h.slice_eq _ _

theorem getElem?_eq (h : m.Shows t) {a : Nat} (within : a < m.size) :
    m.data.data[a]? = some (t a) := by
  have byte : m.data.data.getD a 0 = t a := h a
  rw [Array.getD_eq_getD_getElem?, Array.getElem?_eq_getElem within] at byte
  rw [Array.getElem?_eq_getElem within, ← byte]
  rfl

theorem eq_zero (h : m.Shows t) {a : Nat} (past : m.size ≤ a) : t a = 0 := by
  have byte : m.data.data.getD a 0 = t a := h a
  rw [← byte, Array.getD_eq_getD_getElem?, Array.getElem?_eq_none past]
  rfl

end Memory.Shows

/-! ## The furthest end -/

namespace Region

/-- The region that two operands name, if it has bytes. -/
def named (offset len : Word) : List Region :=
  if len = 0 then [] else [⟨offset.toNat, len.toNat⟩]

theorem toList_of_ofOperands {offset len : Word} {region : Option Region}
    (h : ofOperands offset len = .ok region) : region.toList = named offset len := by
  rcases ofOperands_eq_ok.mp h with ⟨rfl, rfl⟩ | ⟨nonempty, -, -, rfl⟩
  · rfl
  · rw [named, if_neg nonempty]
    rfl

/-- The furthest end of some regions, zero if there are none with bytes. -/
def highest (regions : List Region) : Nat :=
  regions.foldr (fun r high => max r.stop high) 0

theorem highest_append (regions further : List Region) :
    highest (regions ++ further) = max (highest regions) (highest further) := by
  induction regions with
  | nil => exact (Nat.zero_max _).symm
  | cons r rest ih =>
    show max r.stop (highest (rest ++ further)) = max (max r.stop (highest rest)) _
    rw [ih, Nat.max_assoc]

theorem furthest_eq (m : Memory) (regions : List Region) :
    furthest m regions = max m.size (highest regions) := by
  induction regions with
  | nil => exact (Nat.max_zero _).symm
  | cons r rest ih =>
    show max r.stop (furthest m rest) = max m.size (max r.stop (highest rest))
    rw [ih]
    omega

theorem highest_le {regions : List Region} {limit : Nat}
    (h : ∀ r ∈ regions, r.len = 0 ∨ r.offset + r.len ≤ limit) : highest regions ≤ limit := by
  induction regions with
  | nil => exact Nat.zero_le _
  | cons r rest ih =>
    refine Nat.max_le.mpr ⟨?_, ih fun s hs => h s (List.mem_cons_of_mem r hs)⟩
    rcases h r List.mem_cons_self with empty | within
    · simp [stop, empty]
    · unfold stop
      split <;> omega

end Region

/-! ## Memory under operations -/

/-- What becomes of memory when regions are touched. A tape shows it afterwards. -/
structure Memory.Tracks (m : Memory) (regions : List Region) (m' : Memory) (t : Tape) : Prop where
  shows : m'.Shows t
  size : m'.size = max m.size (Region.highest regions)
  limit : m'.limit = m.limit
  bounded : m.size ≤ m.limit → m'.size ≤ m'.limit

namespace Memory.Tracks

variable {m m' m'' : Memory} {regions further : List Region} {t t' : Tape}

theorem refl (h : m.Shows t) : m.Tracks [] m t :=
  ⟨h, (Nat.max_zero _).symm, rfl, id⟩

theorem trans (h : m.Tracks regions m' t) (h' : m'.Tracks further m'' t') :
    m.Tracks (regions ++ further) m'' t' where
  shows := h'.shows
  size := by rw [h'.size, h.size, Region.highest_append, Nat.max_assoc]
  limit := h'.limit.trans h.limit
  bounded := fun fits => h'.bounded (h.bounded fits)

theorem size_le (h : m.Tracks regions m' t) : m.size ≤ m'.size := by
  rw [h.size]
  exact Nat.le_max_left _ _

/-- Bytes are written to a region that was touched. -/
theorem put (h : m.Tracks regions m' t) (r : Region) {bs : Bytes} (nonempty : r.len ≠ 0)
    (fits : bs.length ≤ r.len) (within : r.stop ≤ m'.size) :
    m.Tracks regions (m'.put r.offset bs) (t.write r.offset bs) where
  shows := by
    intro a
    rw [Region.stop_eq nonempty] at within
    rw [byte_put m' r.offset bs (by omega), h.shows]
    rfl
  size := (size_put_of_stop_le r nonempty fits within).trans h.size
  limit := h.limit
  bounded := fun bounded => by
    rw [size_put_of_stop_le r nonempty fits within]
    exact h.bounded bounded

end Memory.Tracks

theorem Frame.settle_tracks {f : Frame} {policy : MemoryPolicy} {regions : List Region}
    {extra : Nat} {memory : Memory} {gas : GasMeter} {t : Tape} (h : f.memory.Shows t)
    (settled : f.settle policy regions extra = .ok (memory, gas)) :
    f.memory.Tracks regions memory t := by
  have size := (size_of_settle settled).trans (Region.furthest_eq f.memory regions)
  obtain ⟨allowed, -, rfl, -⟩ := settle_eq_ok.mp settled
  refine ⟨fun a => ?_, size, Memory.limit_growTo _ _, fun bounded => ?_⟩
  · rw [Memory.byte_growTo, h]
  · rw [size, Memory.limit_growTo]
    exact Nat.max_le.mpr ⟨bounded, Region.highest_le allowed⟩

namespace Operation

/-- The regions that an operation touches when its operands are on the stack. -/
def touched (s : Stack) : Operation → List Region
  | mload | mstore => match s.items with
    | offset :: _ => [⟨offset.toNat, 32⟩]
    | _ => []
  | mstore8 => match s.items with
    | offset :: _ => [⟨offset.toNat, 1⟩]
    | _ => []
  | keccak256 | ret | revert => match s.items with
    | offset :: len :: _ => Region.named offset len
    | _ => []
  | call => match s.items with
    | _ :: _ :: _ :: inOffset :: inLen :: outOffset :: outLen :: _ =>
      Region.named inOffset inLen ++ Region.named outOffset outLen
    | _ => []
  | _ => []

/-- The tape once an operation has written to it: the bytes of a word, its last byte, or what the
host gives back for a nested call, as far as there is room for it. -/
def inscribe {σ : Type} [Host σ] (c : Context) (s : Stack) (host : σ) (t : Tape) :
    Operation → Tape
  | mstore => match s.items with
    | offset :: value :: _ =>
      t.write offset.toNat ((List.range 32).map fun i => .ofNat (value.toNat >>> (8 * (31 - i))))
    | _ => t
  | mstore8 => match s.items with
    | offset :: value :: _ => t.write offset.toNat [.ofNat value.toNat]
    | _ => t
  | call => match s.items with
    | gas :: target :: value :: inOffset :: inLen :: outOffset :: outLen :: _ =>
      if c.config.maxCallDepth ≤ c.message.depth then t
      else
        let input := t.read inOffset.toNat inLen.toNat
        let output := (Host.call host (nestedMessage c gas target value input)).1.output
        t.write outOffset.toNat (output.take outLen.toNat)
    | _ => t
  | _ => t

end Operation

section

variable {σ : Type} [Host σ] {c : Context} {f : Frame} {host : σ} {op : Operation} {e : Effect σ}
  {t : Tape}

theorem Rearranges.tracks {items : List Word} (h : Rearranges c f host op items)
    (shows : f.memory.Shows t) :
    f.memory.Tracks (op.touched f.stack) f.memory (op.inscribe c f.stack host t) := by
  cases h <;> exact .refl shows

/-- Memory follows the tape through the writing of a nested call's output. -/
theorem Memory.Tracks.writeOutput {m m' : Memory} {regions : List Region} {offset len : Word}
    {region : Option Region} (h : m.Tracks regions m' t)
    (named : Region.ofOperands offset len = .ok region)
    (within : ∀ r ∈ region.toList, r.stop ≤ m'.size) (output : Bytes) :
    m.Tracks regions (StackMachine.writeOutput m' region output)
      (t.write offset.toNat (output.take len.toNat)) := by
  rcases Region.ofOperands_eq_ok.mp named with ⟨rfl, rfl⟩ | ⟨-, -, -, rfl⟩
  · show m.Tracks regions m' (t.write offset.toNat [])
    rw [Tape.write_nil]
    exact h
  · have nonempty := Region.len_ne_zero_of_ofOperands named
    exact h.put ⟨offset.toNat, len.toNat⟩ nonempty (List.length_take_le _ _) (within _ (by simp))

/-- Memory follows the tape through every operation. -/
theorem Performs.tracks (h : Performs c f host op e) (shows : f.memory.Shows t) :
    f.memory.Tracks (op.touched f.stack) e.memory (op.inscribe c f.stack host t) := by
  cases h with
  | rearranged h => exact h.tracks shows
  | stopped | jumped _ _ | branched _ _ _ | wrote _ _ => exact .refl shows
  | hashed items named settled =>
    have tracks := Frame.settle_tracks shows settled
    rw [Region.toList_of_ofOperands named] at tracks
    simpa only [Operation.touched, Operation.inscribe, items] using tracks
  | loaded items named settled =>
    have tracks := Frame.settle_tracks shows settled
    simpa only [Operation.touched, Operation.inscribe, items] using tracks
  | @stored _ _ offset value _ memory _ stores items named settled =>
    have tracks := Frame.settle_tracks shows settled
    have within := Frame.stop_le_of_settle settled _ (List.mem_singleton.mpr rfl)
    rcases stores with ⟨rfl, rfl⟩ | ⟨rfl, rfl⟩
    · rw [Word.length_toBytes] at tracks within
      simp only [Operation.touched, Operation.inscribe, items]
      rw [← Word.toBytes_eq_map]
      exact tracks.put ⟨offset.toNat, 32⟩ (by simp) (by simp) within
    · simp only [Operation.touched, Operation.inscribe, items]
      rw [← Word.byte_last]
      exact tracks.put ⟨offset.toNat, 1⟩ (by simp) (by simp) within
  | returned halts items named settled =>
    have tracks := Frame.settle_tracks shows settled
    rw [Region.toList_of_ofOperands named] at tracks
    rcases halts with ⟨rfl, -⟩ | ⟨rfl, -⟩ <;>
      simpa only [Operation.touched, Operation.inscribe, items] using tracks
  | refused items namedInput namedOutput allowed settled deep =>
    have tracks := Frame.settle_tracks shows settled
    rw [Region.toList_of_ofOperands namedInput, Region.toList_of_ofOperands namedOutput] at tracks
    simpa only [Operation.touched, Operation.inscribe, items, if_pos deep] using tracks
  | called items namedInput namedOutput allowed settled shallow request answer =>
    rename_i result after
    have tracks := Frame.settle_tracks shows settled
    have within := Frame.stop_le_of_settle settled
    -- The host is asked with what memory has once both regions are settled.
    rw [tracks.shows.bytes_eq namedInput] at request
    have written := tracks.writeOutput namedOutput
      (fun r hr => within r (List.mem_append_right _ hr)) result.output
    rw [Region.toList_of_ofOperands namedInput, Region.toList_of_ofOperands namedOutput] at written
    simpa only [Operation.touched, Operation.inscribe, items, if_neg shallow, ← request, answer]
      using written

end

/-! ## Memory along executions -/

namespace Execution

variable {σ : Type} [Host σ]

/-- The regions that the next step touches. -/
def touched (e : Execution σ) : List Region :=
  match e.completed? with
  | some op => op.touched e.frame.stack
  | none => []

/-- The tape after the next step. -/
def inscribe (e : Execution σ) (t : Tape) : Tape :=
  match e.completed? with
  | some op => op.inscribe e.context e.frame.stack e.host t
  | none => t

/-- The tape after so many steps of an execution that begins with a blank one. -/
def tape (e : Execution σ) : (count : Nat) → Tape
  | 0 => .blank
  | count + 1 => (steps count e).inscribe (e.tape count)

/-- The regions that so many steps touch. -/
def touchedIn (e : Execution σ) (count : Nat) : List Region :=
  (List.range count).flatMap fun i => (steps i e).touched

theorem step_tracks {e : Execution σ} {t : Tape} (shows : e.frame.memory.Shows t) :
    e.frame.memory.Tracks e.touched e.step.frame.memory (e.inscribe t) := by
  rcases e.step_carries_out with ⟨op, opcode, effect, done, performs, frame, -⟩ | ⟨idle, kept, -⟩
  · simp only [touched, inscribe, done]
    rw [frame, Frame.proceed_memory]
    exact performs.tracks shows
  · simp only [touched, inscribe, idle, kept]
    exact .refl shows

/-- After any number of steps memory shows the tape, up to the furthest end of what was touched. -/
theorem steps_track (c : Context) (host : σ) (k : Nat) :
    let e := start c host
    e.frame.memory.Tracks (e.touchedIn k) (steps k e).frame.memory (e.tape k) := by
  intro e
  induction k with
  | zero => exact .refl fun _ => rfl
  | succ k ih =>
    have further := ih.trans (step_tracks ih.shows)
    rw [steps_succ, touchedIn, List.range_succ, List.flatMap_append, List.flatMap_singleton]
    exact further

theorem memory_size_mono (c : Context) (host : σ) {j k : Nat} (h : j ≤ k) :
    (steps j (start c host)).frame.memory.size ≤ (steps k (start c host)).frame.memory.size := by
  induction h with
  | refl => exact Nat.le_refl _
  | @step k _ ih =>
    rw [Nat.succ_eq_add_one, steps_succ]
    exact Nat.le_trans ih (step_tracks (steps_track c host k).shows).size_le

/-- Memory is the tape up to its size, and the tape is blank from there on. The size is the furthest
end of the regions that were touched; it never falls and stays within the limit. -/
theorem memory_shows_tape (c : Context) (host : σ) (k : Nat) :
    let e := start c host
    let memory := (steps k e).frame.memory
    (∀ a < memory.size, memory.data.data[a]? = some (e.tape k a)) ∧
      (∀ a, memory.size ≤ a → e.tape k a = 0) ∧
      memory.size = Region.highest (e.touchedIn k) ∧
      (∀ j ≤ k, (steps j e).frame.memory.size ≤ memory.size) ∧
      memory.size ≤ c.config.maxMemorySize.toNat := by
  intro e memory
  have tracks : e.frame.memory.Tracks (e.touchedIn k) memory (e.tape k) := steps_track c host k
  refine ⟨fun a within => tracks.shows.getElem?_eq within, fun a past => tracks.shows.eq_zero past,
    ?_, fun j hj => memory_size_mono c host hj, ?_⟩
  · rw [tracks.size]
    exact Nat.zero_max _
  · have bounded := tracks.bounded (Nat.zero_le _)
    rwa [tracks.limit] at bounded

/-- One byte is written, and a nested call that is asked with a region further on gives back more
than there is room for before that byte. -/
theorem memory_shows_tape_call :
    let c : Context := ⟨.default, .latest, .call 0 0 100,
      .ofBytes [0x60, 0xff, 0x60, 2, 0x53, 0x60, 1, 0x60, 1, 0x60, 1, 0x60, 8, 0x60, 0, 0x60, 1,
        0x60, 0, 0xf1]⟩
    let host := { RecordingHost.empty with callResult := .success 0 [0xaa, 0xbb, 0xcc] }
    (1 < (steps 11 (start c host)).frame.memory.size ∧
        (steps 11 (start c host)).frame.memory.size ≤ 9 ∧ 3 ≤ 11) ∧
      (steps 11 (start c host)).frame.memory.data.data[1]? = some ((start c host).tape 11 1) ∧
      (start c host).tape 11 1 = 0xaa ∧ (start c host).tape 11 2 = 0xff ∧
      (start c host).tape 11 9 = 0 ∧ (steps 11 (start c host)).frame.memory.size = 9 ∧
      (steps 3 (start c host)).frame.memory.size ≤ (steps 11 (start c host)).frame.memory.size := by
  intro c host
  obtain ⟨shown, blank, size, grows, -⟩ := memory_shows_tape c host 11
  have touched : Region.highest ((start c host).touchedIn 11) = 9 := by decide +kernel
  have inside : 1 < (steps 11 (start c host)).frame.memory.size := by omega
  have outside : (steps 11 (start c host)).frame.memory.size ≤ 9 := by omega
  exact ⟨⟨inside, outside, by decide⟩, shown 1 inside, by decide +kernel, by decide +kernel,
    blank 9 outside, size.trans touched, grows 3 (by decide)⟩

end Execution

end StackMachine
