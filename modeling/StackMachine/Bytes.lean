/-!
# Byte strings

Byte strings, the number a byte string denotes most significant byte first, and windows into a
byte string that is read as if endless zeros followed it.
-/

namespace StackMachine

/-- A string of bytes, first byte first. -/
abbrev Bytes := List UInt8

namespace Bytes

/-- The number that a byte string denotes in base 256, most significant byte first. -/
def toNat (bs : Bytes) : Nat :=
  bs.foldl (fun n b => n * 256 + b.toNat) 0

/-- The `len` lowest base-256 digits of a number, most significant first. -/
def ofNat : (len n : Nat) → Bytes
  | 0, _ => []
  | len + 1, n => ofNat len (n / 256) ++ [UInt8.ofNat n]

@[simp] theorem length_ofNat (len n : Nat) : (ofNat len n).length = len := by
  induction len generalizing n with
  | zero => rfl
  | succ len ih => simp [ofNat, ih]

/-- Zeros appended up to a length; a string that is long enough stays as it is. -/
def padRight (len : Nat) (bs : Bytes) : Bytes :=
  bs ++ List.replicate (len - bs.length) 0

@[simp] theorem length_padRight (len : Nat) (bs : Bytes) :
    (bs.padRight len).length = max len bs.length := by
  simp only [padRight, List.length_append, List.length_replicate]
  omega

/-- The `len` bytes from `offset` on of a string that is followed by endless zeros. -/
def window (bs : Bytes) (offset len : Nat) : Bytes :=
  padRight len ((bs.drop offset).take len)

@[simp] theorem length_window (bs : Bytes) (offset len : Nat) :
    (bs.window offset len).length = len := by
  simp only [window, length_padRight, List.length_take]
  omega

/-- The bytes of a text in UTF-8. -/
def ofText (s : String) : Bytes :=
  s.toUTF8.data.toList

end Bytes

end StackMachine
