import Mathlib.Data.List.Induction
import StackMachine.Proofs.Windows

/-!
# Calls on memory

Memory by itself, under any calls in any order. What it holds is said of the history of calls alone:
which of them had a region within the limit, what was last written to an address, how far the calls
that write or expand have reached. `Access.apply_eq` says what one call does,
`Access.run_tracks` what a history of calls leaves, and `Access.run_answers` how the next call is
answered then.
-/

namespace StackMachine

/-- A call on memory. -/
inductive Access where
  | growth (offset len : Nat)
  | expand (offset len : Nat)
  | read (offset len : Nat)
  | readWord (offset : Nat)
  | write (offset : Nat) (bs : Bytes)
  | writeWord (offset : Nat) (w : Word)
  | writeByte (offset : Nat) (b : UInt8)
  deriving DecidableEq, Repr

/-- What a call gives back. -/
inductive Answer where
  | done
  | size (new : Option Nat)
  | bytes (bs : Bytes)
  | word (w : Word)
  deriving DecidableEq, Repr

namespace Access

/-- Carries out a call. -/
def apply (m : Memory) : Access → Except VmError (Answer × Memory)
  | growth offset len => (m.growth offset len).map fun new => (.size new, m)
  | expand offset len => (m.expand offset len).map fun m => (.done, m)
  | read offset len => (m.read offset len).map fun bs => (.bytes bs, m)
  | readWord offset => (m.readWord offset).map fun w => (.word w, m)
  | write offset bs => (m.write offset bs).map fun m => (.done, m)
  | writeWord offset w => (m.writeWord offset w).map fun m => (.done, m)
  | writeByte offset b => (m.writeByte offset b).map fun m => (.done, m)

/-- The memory after a call. A call that fails leaves it as it was. -/
def after (m : Memory) (a : Access) : Memory :=
  match a.apply m with
  | .ok (_, m) => m
  | .error _ => m

/-- The memory after a history of calls on an empty one. -/
def run (limit : Nat) (history : List Access) : Memory :=
  history.foldl after (.ofLimit limit)

/-! ## What a call asks for -/

/-- The region that a call is about. -/
def region : Access → Region
  | growth offset len | expand offset len | read offset len => ⟨offset, len⟩
  | readWord offset | writeWord offset _ => ⟨offset, 32⟩
  | write offset bs => ⟨offset, bs.length⟩
  | writeByte offset _ => ⟨offset, 1⟩

/-- Whether the region of a call lies within a limit, as one without bytes always does. -/
def fits (limit : Nat) (a : Access) : Bool :=
  a.region.len = 0 ∨ a.region.offset + a.region.len ≤ limit

/-- The bytes that a call writes from the start of its region on. -/
def written : Access → Bytes
  | write _ bs => bs
  | writeWord _ w => w.toBytes
  | writeByte _ b => [b]
  | growth _ _ | expand _ _ | read _ _ | readWord _ => []

/-- The byte that a call writes to an address. -/
def written? (address : Nat) (a : Access) : Option UInt8 :=
  if a.region.offset ≤ address then a.written[address - a.region.offset]? else none

/-- The region that memory reaches the end of because of a call. -/
def touched : Access → List Region
  | a@(expand _ _) | a@(write _ _) | a@(writeWord _ _) | a@(writeByte _ _) => [a.region]
  | growth _ _ | read _ _ | readWord _ => []

/-- The answer to a call on memory that shows a tape and has a size. -/
def answer (t : Tape) (size : Nat) : Access → Answer
  | growth offset len =>
    let stop := Region.stop ⟨offset, len⟩
    .size (if size < stop then some stop else none)
  | read offset len => .bytes (t.read offset len)
  | readWord offset => .word (.ofNat (Bytes.toNat (t.read offset 32)))
  | expand _ _ | write _ _ | writeWord _ _ | writeByte _ _ => .done

/-! ## Histories -/

/-- The calls of a history that a limit lets succeed. -/
def granted (limit : Nat) (history : List Access) : List Access :=
  history.filter (fits limit)

/-- The byte that some calls wrote to an address last, none if they wrote nothing there. -/
def lastWritten? (calls : List Access) (address : Nat) : Option UInt8 :=
  calls.reverse.findSome? (written? address)

/-- The furthest end of the regions that some calls wrote or expanded. -/
def furthest (calls : List Access) : Nat :=
  Region.highest (calls.flatMap touched)

/-- The tape that some calls leave: what was written last, and zeros where nothing was. -/
def tape (calls : List Access) : Tape :=
  fun address => (lastWritten? calls address).getD 0

theorem lastWritten?_append (calls : List Access) (a : Access) (address : Nat) :
    lastWritten? (calls ++ [a]) address = (a.written? address).or (lastWritten? calls address) := by
  rw [lastWritten?, List.reverse_append, List.findSome?_append]
  simp [lastWritten?]

theorem tape_append (calls : List Access) (a : Access) :
    tape (calls ++ [a]) = (tape calls).write a.region.offset a.written := by
  funext address
  rw [tape, lastWritten?_append, Tape.write, tape, written?]
  split
  · rw [List.getD_eq_getElem?_getD]
    cases a.written[address - a.region.offset]? <;> rfl
  · rfl

end Access

/-! ## One call -/

theorem map_ite_ok {ε α β : Type} {p : Prop} [Decidable p] (f : α → β) (a : α) (e : ε) :
    (if p then .ok a else .error e : Except ε α).map f = if p then .ok (f a) else .error e := by
  split <;> rfl

namespace Memory

variable (m : Memory)

theorem regionEnd_eq (offset len : Nat) :
    m.regionEnd offset len
      = if len = 0 ∨ offset + len ≤ m.limit then .ok (Region.stop ⟨offset, len⟩)
        else .error .memoryBoundsExceeded := by
  by_cases none : len = 0
  · simp [regionEnd, Region.stop, none]
  · by_cases within : offset + len ≤ m.limit <;> simp [regionEnd, Region.stop, none, within]

/-- The end of a region as sixty-four bits compute it, a sum that wraps around refused. -/
def checkedEnd (limit offset len : UInt64) : Except VmError UInt64 :=
  if len = 0 then .ok 0
  else if offset + len < offset then .error .memoryBoundsExceeded
  else if limit < offset + len then .error .memoryBoundsExceeded
  else .ok (offset + len)

variable {m} in
theorem regionEnd_eq_checkedEnd {limit : UInt64} (same : m.limit = limit.toNat)
    (offset len : UInt64) :
    m.regionEnd offset.toNat len.toNat = (checkedEnd limit offset len).map UInt64.toNat := by
  have first := offset.toNat_lt
  have count := len.toNat_lt
  have last := limit.toNat_lt
  have sum := UInt64.toNat_add offset len
  have empty : len = 0 ↔ len.toNat = 0 := UInt64.toNat_inj.symm
  simp only [regionEnd, checkedEnd, same, empty, UInt64.lt_iff_toNat_lt]
  split
  · rfl
  · by_cases within : offset.toNat + len.toNat ≤ limit.toNat
    · have exact : (offset + len).toNat = offset.toNat + len.toNat := by omega
      rw [if_pos within, if_neg (by omega), if_neg (by omega), Except.map, exact]
    · rw [if_neg within]
      by_cases wraps : (offset + len).toNat < offset.toNat
      · rw [if_pos wraps]
        rfl
      · rw [if_neg wraps, if_pos (by omega)]
        rfl

/-- The memory with bytes written to it, grown as needed. -/
def filled (offset : Nat) (bs : Bytes) : Memory :=
  if bs = [] then m else (m.growTo (offset + bs.length)).put offset bs

theorem write_eq (offset : Nat) (bs : Bytes) :
    m.write offset bs
      = if bs.length = 0 ∨ offset + bs.length ≤ m.limit then .ok (m.filled offset bs)
        else .error .memoryBoundsExceeded := by
  by_cases none : bs = []
  · simp [write, filled, none]
  · let r : Region := ⟨offset, bs.length⟩
    have some : r.len ≠ 0 := fun empty => none (List.length_eq_zero_iff.mp empty)
    rw [write, if_neg none, filled, if_neg none, regionEnd_eq, map_ite_ok, Region.stop_eq some]

/-- Growth is the size that memory has when the region is touched, if that is another one. -/
theorem growth_eq_some {offset len stop : Nat} :
    m.growth offset len = .ok (some stop) ↔
      ∃ m', m.expand offset len = .ok m' ∧ m'.size ≠ m.size ∧ m'.size = stop := by
  rw [growth, expand, m.regionEnd_eq, map_ite_ok, map_ite_ok]
  split
  · simp only [Except.ok.injEq, exists_eq_left', size_growTo]
    split <;> simp <;> omega
  · simp

theorem tracks_self : m.Tracks [] m m.byte :=
  .refl fun _ => rfl

variable {m}

/-- Memory that grows to the end of a region within the limit. -/
theorem growTo_tracks {r : Region} (fits : r.len = 0 ∨ r.offset + r.len ≤ m.limit) :
    m.Tracks [r] (m.growTo r.stop) m.byte where
  shows := m.byte_growTo _
  size := by simp [size_growTo, Region.highest]
  limit := m.limit_growTo _
  bounded := fun bounded => by
    have stop : Region.highest [r] ≤ m.limit := Region.highest_le (by simpa using fits)
    rw [size_growTo, limit_growTo]
    exact Nat.max_le.mpr ⟨bounded, Nat.le_trans (Nat.le_max_left _ _) stop⟩

/-- Memory that has bytes written to a region within the limit. -/
theorem filled_tracks (offset : Nat) (bs : Bytes)
    (fits : bs.length = 0 ∨ offset + bs.length ≤ m.limit) :
    m.Tracks [⟨offset, bs.length⟩] (m.filled offset bs) (Tape.write m.byte offset bs) := by
  by_cases none : bs = []
  · subst none
    rw [Tape.write_nil]
    exact ⟨fun _ => rfl, (Nat.max_zero _).symm, rfl, id⟩
  · let r : Region := ⟨offset, bs.length⟩
    have some : r.len ≠ 0 := fun empty => none (List.length_eq_zero_iff.mp empty)
    have grown := growTo_tracks (r := r) fits
    rw [Region.stop_eq some] at grown
    rw [filled, if_neg none]
    refine grown.put r some (Nat.le_refl _) ?_
    rw [Region.stop_eq some, size_growTo]
    exact Nat.le_max_right _ _

end Memory

namespace Access

/-- The memory that a call leaves if it succeeds. -/
def leaves (m : Memory) : Access → Memory
  | growth _ _ | read _ _ | readWord _ => m
  | expand offset len => m.growTo (Region.stop ⟨offset, len⟩)
  | write offset bs => m.filled offset bs
  | writeWord offset w => m.filled offset w.toBytes
  | writeByte offset b => m.filled offset [b]

/-- All calls succeed on one condition, and fail with one error. -/
theorem apply_eq (m : Memory) (a : Access) :
    a.apply m = if a.region.len = 0 ∨ a.region.offset + a.region.len ≤ m.limit
      then .ok (a.answer m.byte m.size, a.leaves m) else .error .memoryBoundsExceeded := by
  have slice : ∀ offset len, m.slice offset len = Tape.read m.byte offset len :=
    Memory.Shows.slice_eq fun _ => rfl
  cases a with
  | growth offset len =>
    rw [apply, Memory.growth, m.regionEnd_eq, map_ite_ok, map_ite_ok]
    rfl
  | expand offset len =>
    rw [apply, Memory.expand, m.regionEnd_eq, map_ite_ok, map_ite_ok]
    rfl
  | read offset len =>
    rw [apply, Memory.read, m.regionEnd_eq, map_ite_ok, map_ite_ok, slice]
    rfl
  | readWord offset =>
    rw [apply, Memory.readWord, Memory.read, m.regionEnd_eq, map_ite_ok, map_ite_ok, map_ite_ok,
      slice]
    rfl
  | write offset bs =>
    rw [apply, m.write_eq, map_ite_ok]
    rfl
  | writeWord offset w =>
    rw [apply, Memory.writeWord, m.write_eq, w.length_toBytes, map_ite_ok]
    rfl
  | writeByte offset b =>
    rw [apply, Memory.writeByte, m.write_eq, map_ite_ok]
    rfl

/-- A call that succeeds writes its bytes and makes memory reach as far as it says. -/
theorem leaves_tracks {m : Memory} {a : Access}
    (fits : a.region.len = 0 ∨ a.region.offset + a.region.len ≤ m.limit) :
    m.Tracks a.touched (a.leaves m) (Tape.write m.byte a.region.offset a.written) := by
  cases a with
  | growth _ _ | read _ _ | readWord _ =>
    rw [written, Tape.write_nil]
    exact m.tracks_self
  | expand offset len =>
    rw [written, Tape.write_nil]
    exact Memory.growTo_tracks fits
  | write offset bs => exact Memory.filled_tracks offset bs fits
  | writeWord offset w =>
    have fits' : w.toBytes.length = 0 ∨ offset + w.toBytes.length ≤ m.limit := by
      rwa [w.length_toBytes]
    have tracks := Memory.filled_tracks offset w.toBytes fits'
    rwa [w.length_toBytes] at tracks
  | writeByte offset b => exact Memory.filled_tracks offset [b] fits

theorem after_of_fits {m : Memory} {a : Access}
    (fits : a.region.len = 0 ∨ a.region.offset + a.region.len ≤ m.limit) :
    a.after m = a.leaves m := by
  rw [after, apply_eq, if_pos fits]

theorem after_of_not_fits {m : Memory} {a : Access}
    (outside : ¬ (a.region.len = 0 ∨ a.region.offset + a.region.len ≤ m.limit)) :
    a.after m = m := by
  rw [after, apply_eq, if_neg outside]

/-! ## Any number of calls -/

theorem run_append (limit : Nat) (history : List Access) (a : Access) :
    run limit (history ++ [a]) = a.after (run limit history) := by
  rw [run, List.foldl_append]
  rfl

theorem granted_append (limit : Nat) (history : List Access) (a : Access) :
    granted limit (history ++ [a])
      = granted limit history ++ if a.fits limit then [a] else [] := by
  rw [granted, List.filter_append]
  cases h : a.fits limit <;> simp [granted, h]

/-- A history leaves the memory that shows what its calls wrote, grown to where they reached. -/
theorem run_tracks (limit : Nat) (history : List Access) :
    (Memory.ofLimit limit).Tracks ((granted limit history).flatMap touched) (run limit history)
      (tape (granted limit history)) := by
  induction history using List.reverseRecOn with
  | nil => exact .refl fun _ => rfl
  | append_singleton history a ih =>
    rw [run_append, granted_append]
    have same : (run limit history).limit = limit := ih.limit
    by_cases fits : a.region.len = 0 ∨ a.region.offset + a.region.len ≤ limit
    · have succeeds : a.fits limit = true := decide_eq_true fits
      have fits' := same.symm ▸ fits
      have step := leaves_tracks fits'
      rw [if_pos succeeds, List.flatMap_append, List.flatMap_singleton, tape_append,
        after_of_fits fits', ← funext ih.shows]
      exact ih.trans step
    · have refused : ¬ a.fits limit = true := by simpa [Access.fits] using fits
      rw [if_neg refused, List.append_nil, after_of_not_fits (same.symm ▸ fits)]
      exact ih

/-- Calls fail on one condition, with one error. -/
theorem apply_eq_error {m : Memory} {a : Access} {error : VmError} :
    a.apply m = .error error ↔
      (0 < a.region.len ∧ m.limit < a.region.offset + a.region.len) ∧
        error = .memoryBoundsExceeded := by
  rw [apply_eq]
  split
  · simp only [reduceCtorEq, false_iff]
    omega
  · rename_i outside
    have outside : 0 < a.region.len ∧ m.limit < a.region.offset + a.region.len := by omega
    simp [outside, eq_comm]

/-- A call that fails leaves memory as it was. -/
theorem after_of_apply_eq_error {m : Memory} {a : Access} {error : VmError}
    (fails : a.apply m = .error error) : a.after m = m := by
  rw [after, fails]

/-- Memory answers like a byte array of so many bytes at most that is zero until written. A call
fails on the same condition whichever it is, and then memory is as before; a read has what was
written last and leaves memory as it is; the size is where the writes and expansions have reached;
and growth is what an expansion would do to it. -/
theorem run_answers (limit : UInt64) (history : List Access) :
    let m := run limit.toNat history
    let calls := granted limit.toNat history
    let last := fun address => (lastWritten? calls address).getD 0
    (∀ (a : Access) (error : VmError),
        a.apply m = .error error ↔
          (0 < a.region.len ∧ limit.toNat < a.region.offset + a.region.len) ∧
            error = .memoryBoundsExceeded) ∧
      (∀ (a : Access) (error : VmError), a.apply m = .error error → a.after m = m) ∧
      (∀ (offset len : Nat) (bs : Bytes), m.read offset len = .ok bs →
        bs = (List.range len).map (fun i => last (offset + i)) ∧ (read offset len).after m = m) ∧
      (∀ (offset : Nat) (w : Word), m.readWord offset = .ok w →
        w.toBytes = (List.range 32).map (fun i => last (offset + i)) ∧
          (readWord offset).after m = m) ∧
      m.size = furthest calls ∧
      (∀ offset len stop : Nat, m.growth offset len = .ok (some stop) ↔
        ∃ m', m.expand offset len = .ok m' ∧ m'.size ≠ m.size ∧ m'.size = stop) ∧
      m.size ≤ limit.toNat ∧
      ∀ offset len : UInt64,
        m.regionEnd offset.toNat len.toNat
          = (Memory.checkedEnd limit offset len).map UInt64.toNat := by
  intro m calls last
  have tracks := run_tracks limit.toNat history
  have same : m.limit = limit.toNat := tracks.limit
  have size : m.size = furthest calls := tracks.size.trans (Nat.zero_max _)
  have shown : ∀ {offset len bs}, m.read offset len = .ok bs →
      bs = (tape calls).read offset len := by
    intro offset len bs answered
    rw [Memory.read, m.regionEnd_eq, map_ite_ok, tracks.shows.slice_eq] at answered
    split at answered <;> cases answered
    rfl
  refine ⟨?_, ?_, ?_, ?_, size, ?_, ?_, ?_⟩
  · intro a error
    rw [← same]
    exact apply_eq_error
  · intro a error fails
    exact after_of_apply_eq_error fails
  · intro offset len bs answered
    refine ⟨shown answered, ?_⟩
    rw [after, apply, answered]
    rfl
  · intro offset w answered
    refine ⟨?_, ?_⟩
    · cases answered' : m.read offset 32 with
      | error _ => simp [Memory.readWord, answered', Except.map] at answered
      | ok bs =>
        have word : Word.ofNat (Bytes.toNat bs) = w := by
          simpa [Memory.readWord, answered', Except.map] using answered
        have bytes := shown answered'
        rw [← word, Word.toBytes_ofNat (by rw [bytes, Tape.length_read]), bytes]
        rfl
    · rw [after, apply, answered]
      rfl
  · intro offset len stop
    exact m.growth_eq_some
  · have bounded := tracks.bounded (Nat.zero_le _)
    exact same ▸ bounded
  · exact fun offset len => Memory.regionEnd_eq_checkedEnd same offset len

/-- Bytes written over others, a gap after them, and calls in between that end past the limit or
past all addresses. -/
theorem run_answers_overlap :
    let history := [write 4 [1, 2, 3], write 0xffffffffffffffff [7, 8], write 5 [9], expand 40 8,
      growth 64 1, writeByte 0xffffffffffffffff 7, write 0xffffffffffffffff []]
    let m := run 64 history
    let past := writeWord 33 7
    (past.apply m = .error .memoryBoundsExceeded ∧ m.read 3 5 = .ok [0, 1, 9, 3, 0] ∧
        m.readWord 6 = .ok (.ofNat (3 * 256 ^ 31))) ∧
      past.after m = m ∧ (read 3 5).after m = m ∧ (readWord 6).after m = m ∧ m.size = 48 := by
  intro history m past
  have refused : past.apply m = .error .memoryBoundsExceeded := rfl
  have bytes : m.read 3 5 = .ok [0, 1, 9, 3, 0] := by decide +kernel
  have word : m.readWord 6 = .ok (.ofNat (3 * 256 ^ 31)) := by decide +kernel
  obtain ⟨-, failed, reads, readsWord, size, -⟩ := run_answers 64 history
  exact ⟨⟨refused, bytes, word⟩, failed past _ refused, (reads 3 5 _ bytes).2,
    (readsWord 6 _ word).2, size.trans (by decide)⟩

end Access

end StackMachine
