import StackMachine.Bytes

/-!
# Keccak-256

The hash of byte strings with thirty-two bytes of output: the sponge over the permutation of 1600
bits, with a rate of 136 bytes and the padding that begins with `0x01`.
-/

namespace StackMachine.Keccak

/-- The twenty-five lanes of the sponge; lane `x + 5 * y` is the one in column `x` and row `y`. -/
abbrev Lanes := Array UInt64

/-- The lane in a column and a row. -/
@[inline] def lane (s : Lanes) (x y : Nat) : UInt64 :=
  s.getD (x % 5 + 5 * (y % 5)) 0

/-- The lanes given by column and row. -/
@[specialize] def build (f : (x y : Nat) → UInt64) : Lanes :=
  Array.ofFn fun i : Fin 25 => f (i.val % 5) (i.val / 5)

/-! ## The permutation -/

/-- Turns the bits of a lane to the left. -/
@[inline] def rotate (w : UInt64) (n : UInt64) : UInt64 :=
  if n = 0 then w else (w <<< n) ||| (w >>> (64 - n))

/-- How far each lane is turned, row by row. -/
def turns : Array UInt64 :=
  #[0, 1, 62, 28, 27, 36, 44, 6, 55, 20, 3, 10, 43, 25, 39, 41, 45, 15, 21, 8, 18, 2, 61, 56, 14]

/-- The constants of the twenty-four rounds. -/
def roundConstants : List UInt64 :=
  [0x0000000000000001, 0x0000000000008082, 0x800000000000808a, 0x8000000080008000,
    0x000000000000808b, 0x0000000080000001, 0x8000000080008081, 0x8000000000008009,
    0x000000000000008a, 0x0000000000000088, 0x0000000080008009, 0x000000008000000a,
    0x000000008000808b, 0x800000000000008b, 0x8000000000008089, 0x8000000000008003,
    0x8000000000008002, 0x8000000000000080, 0x000000000000800a, 0x800000008000000a,
    0x8000000080008081, 0x8000000000008080, 0x0000000080000001, 0x8000000080008008]

/-- Adds to every lane the parities of two columns beside it. -/
def mixColumns (s : Lanes) : Lanes :=
  let parity := Array.ofFn fun x : Fin 5 =>
    lane s x 0 ^^^ lane s x 1 ^^^ lane s x 2 ^^^ lane s x 3 ^^^ lane s x 4
  build fun x y =>
    lane s x y ^^^ parity.getD ((x + 4) % 5) 0 ^^^ rotate (parity.getD ((x + 1) % 5) 0) 1

/-- Turns every lane and moves it to its new place. -/
def moveLanes (s : Lanes) : Lanes :=
  build fun x y =>
    let column := (x + 3 * y) % 5
    rotate (lane s column x) (turns.getD (column + 5 * x) 0)

/-- Combines every lane with the two beside it in its row. -/
def mixRows (s : Lanes) : Lanes :=
  build fun x y => lane s x y ^^^ (~~~ lane s (x + 1) y &&& lane s (x + 2) y)

/-- One round. -/
def round (s : Lanes) (constant : UInt64) : Lanes :=
  (mixRows (moveLanes (mixColumns s))).modify 0 (· ^^^ constant)

/-- All rounds. -/
def permute (s : Lanes) : Lanes :=
  roundConstants.foldl round s

/-! ## The sponge -/

/-- How many bytes are taken in at a time. -/
def rate : Nat := 136

/-- The number that bytes denote, least significant first. -/
def littleEndian (bs : Bytes) : UInt64 :=
  bs.foldr (fun b n => n * 256 + b.toUInt64) 0

/-- Takes in one block. -/
def absorb (s : Lanes) (block : Bytes) : Lanes :=
  let taken := build fun x y =>
    lane s x y ^^^ littleEndian ((block.drop (8 * (x + 5 * y))).take 8)
  permute taken

/-- Takes in so many blocks. -/
def absorbAll : (blocks : Nat) → Lanes → Bytes → Lanes
  | 0, s, _ => s
  | blocks + 1, s, bs => absorbAll blocks (absorb s (bs.take rate)) (bs.drop rate)

/-- The bytes that fill the last block. -/
def padding (len : Nat) : Bytes :=
  let missing := rate - len % rate
  if missing = 1 then [0x81] else 0x01 :: List.replicate (missing - 2) 0 ++ [0x80]

/-- The eight bytes of a lane, least significant first. -/
def laneBytes (w : UInt64) : Bytes :=
  (Bytes.ofNat 8 w.toNat).reverse

/-- The hash of a byte string. -/
def hash (bs : Bytes) : Bytes :=
  let s := absorbAll (bs.length / rate + 1) (build fun _ _ => 0) (bs ++ padding bs.length)
  laneBytes (lane s 0 0) ++ laneBytes (lane s 1 0) ++ laneBytes (lane s 2 0) ++ laneBytes (lane s 3 0)

end StackMachine.Keccak
