import Mathlib.Data.Nat.Digits.Defs

/-!
# The POSIX checksum

`crc` is the number the `cksum` utility prints first: a cyclic redundancy check over the
bytes and then over their count, lowest byte first, with its bits inverted.
-/

namespace Cksum

/-- One bit of the remainder modulo the polynomial `0x04C11DB7`. -/
def shift (remainder : UInt32) : UInt32 :=
  if remainder &&& 0x80000000 = 0 then remainder <<< 1 else (remainder <<< 1) ^^^ 0x04C11DB7

/-- `n` bits of the remainder. -/
def shifts : Nat → UInt32 → UInt32
  | 0, remainder => remainder
  | n + 1, remainder => shifts n (shift remainder)

/-- One more byte. -/
def step (remainder : UInt32) (byte : UInt8) : UInt32 :=
  shifts 8 (remainder ^^^ (byte.toUInt32 <<< 24))

/-- The check of a list of bytes. -/
def crc (bytes : List UInt8) : UInt32 :=
  let count := (Nat.digits 256 bytes.length).map UInt8.ofNat
  ~~~(count.foldl step (bytes.foldl step 0))

example : crc [0x2f, 0x61] = 1968893034 := by decide +kernel

end Cksum
