import StackMachine.Status
import StackMachine.Word

/-!
# Memory

Byte-addressed memory that is zero until it is written, with a limit. Its size is the end of the
furthest region that was touched and never shrinks. A region without bytes is valid wherever it
lies; any other is valid if it ends within the limit.
-/

namespace StackMachine

/-- The memory of one execution. -/
structure Memory where
  /-- The bytes below the size. -/
  data : ByteArray
  /-- The limit of the size. -/
  limit : Nat

namespace Memory

/-- The memory without bytes. -/
def ofLimit (limit : Nat) : Memory :=
  ⟨ByteArray.empty, limit⟩

instance : Inhabited Memory := ⟨ofLimit 0⟩

/-- The end of the furthest region that was touched. -/
def size (m : Memory) : Nat :=
  m.data.size

private theorem size_eq (m : Memory) : m.size = m.data.data.size := rfl

/-- The byte at an address. -/
def byte (m : Memory) (address : Nat) : UInt8 :=
  m.data.data.getD address 0

/-! ## Regions -/

/-- The end of a region, zero if it has no bytes. -/
def regionEnd (m : Memory) (offset len : Nat) : Except VmError Nat :=
  if len = 0 then .ok 0
  else if offset + len ≤ m.limit then .ok (offset + len)
  else .error .memoryBoundsExceeded

/-- The size after a region is touched, if that is another size. -/
def growth (m : Memory) (offset len : Nat) : Except VmError (Option Nat) :=
  (m.regionEnd offset len).map fun stop => if m.size < stop then some stop else none

/-- The memory with at least the given size, zeros added. -/
def growTo (m : Memory) (size : Nat) : Memory :=
  if m.size < size then { m with data := m.data ++ ⟨Array.replicate (size - m.size) 0⟩ } else m

theorem size_growTo (m : Memory) (size : Nat) : (m.growTo size).size = max m.size size := by
  unfold growTo
  split <;>
    simp only [size_eq, ByteArray.data_append, Array.size_append, Array.size_replicate] at * <;> omega

/-- Growth changes no byte: what is added was zero before. -/
theorem byte_growTo (m : Memory) (size address : Nat) :
    (m.growTo size).byte address = m.byte address := by
  unfold growTo
  split
  · simp only [byte, ByteArray.data_append, Array.getD_eq_getD_getElem?, Array.getElem?_append,
      Array.getElem?_replicate]
    split
    · rfl
    · rename_i h
      rw [Array.getElem?_eq_none (Nat.le_of_not_lt h)]
      split <;> rfl
  · rfl

/-- Touches a region. -/
def expand (m : Memory) (offset len : Nat) : Except VmError Memory :=
  (m.regionEnd offset len).map m.growTo

/-! ## Reading -/

/-- The bytes of a region, zeros past the size. -/
def slice (m : Memory) (offset len : Nat) : Bytes :=
  Bytes.padRight len (m.data.extract offset (min (offset + len) m.size)).data.toList

theorem length_slice (m : Memory) (offset len : Nat) : (m.slice offset len).length = len := by
  simp only [slice, Bytes.length_padRight, size_eq, ByteArray.data_extract, Array.length_toList,
    Array.size_extract]
  omega

theorem getElem?_slice (m : Memory) (offset len i : Nat) (h : i < len) :
    (m.slice offset len)[i]? = some (m.byte (offset + i)) := by
  simp only [slice, Bytes.padRight, size_eq, byte, Array.getD_eq_getD_getElem?,
    ByteArray.data_extract, List.getElem?_append, List.getElem?_replicate, Array.length_toList,
    Array.getElem?_toList, Array.getElem?_extract, Array.size_extract]
  by_cases hi : offset + i < m.data.data.size
  · rw [if_pos (by omega), if_pos (by omega), Array.getElem?_eq_getElem hi]
    rfl
  · rw [if_neg (by omega), if_pos (by omega), Array.getElem?_eq_none (by omega)]
    rfl

/-- Reads a region. -/
def read (m : Memory) (offset len : Nat) : Except VmError Bytes :=
  (m.regionEnd offset len).map fun _ => m.slice offset len

/-- Reads the thirty-two bytes of a word. -/
def readWord (m : Memory) (offset : Nat) : Except VmError Word :=
  (m.read offset 32).map fun bs => Word.ofNat bs.toNat

/-! ## Writing -/

/-- Replaces bytes that lie within the size. -/
def put (m : Memory) (offset : Nat) (bs : Bytes) : Memory :=
  { m with
    data := m.data.extract 0 offset ++ bs.toByteArray ++ m.data.extract (offset + bs.length) m.size }

theorem size_put (m : Memory) (offset : Nat) (bs : Bytes) (h : offset + bs.length ≤ m.size) :
    (m.put offset bs).size = m.size := by
  simp only [put, size_eq, ByteArray.data_append, ByteArray.data_extract, Array.size_append,
    Array.size_extract, List.data_toByteArray, List.size_toArray] at *
  omega

/-- The bytes of the region are the ones that were put there; all others stay. -/
theorem byte_put (m : Memory) (offset : Nat) (bs : Bytes) (h : offset + bs.length ≤ m.size)
    (address : Nat) :
    (m.put offset bs).byte address =
      if offset ≤ address then bs.getD (address - offset) (m.byte address) else m.byte address := by
  simp only [put, size_eq, byte, Array.getD_eq_getD_getElem?, ByteArray.data_append,
    ByteArray.data_extract, Array.getElem?_append, Array.getElem?_extract, Array.size_append,
    Array.size_extract, List.data_toByteArray, List.size_toArray, List.getElem?_toArray,
    List.getD_eq_getElem?_getD] at *
  by_cases ho : offset ≤ address
  · by_cases hb : address - offset < bs.length
    · have hi : address - (min offset m.data.data.size - 0) = address - offset := by omega
      rw [if_pos (by omega), if_neg (by omega), if_pos ho, hi, List.getElem?_eq_getElem hb]
      rfl
    · rw [if_neg (by omega), if_pos ho, List.getElem?_eq_none (l := bs) (by omega)]
      by_cases ha : address < m.data.data.size
      · rw [if_pos (by omega), Option.getD_none]
        congr 2
        omega
      · rw [if_neg (by omega), Array.getElem?_eq_none (by omega)]
        rfl
  · rw [if_pos (by omega), if_pos (by omega), if_pos (by omega), if_neg ho]
    congr 2
    omega

/-- Writes bytes, growing as needed. -/
def write (m : Memory) (offset : Nat) (bs : Bytes) : Except VmError Memory :=
  if bs = [] then .ok m
  else (m.regionEnd offset bs.length).map fun stop => (m.growTo stop).put offset bs

/-- Writes the thirty-two bytes of a word. -/
def writeWord (m : Memory) (offset : Nat) (w : Word) : Except VmError Memory :=
  m.write offset w.toBytes

/-- Writes one byte. -/
def writeByte (m : Memory) (offset : Nat) (b : UInt8) : Except VmError Memory :=
  m.write offset [b]

end Memory

end StackMachine
