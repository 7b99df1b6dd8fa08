import Handheld.Cpu.Flags
import Handheld.Word

/-!
# Arithmetic with flags

Each operation takes its operands, and the flags it reads, and answers the
result together with the new flags.  Carry and half carry are stated on the
numbers that the operands stand for: a carry is a sum that does not fit the
byte, a half carry a sum of low digits that does not fit the digit, and in a
subtraction both are borrows.
-/

namespace Handheld.Alu

/-! ## Eight-bit addition and subtraction -/

/-- Sum of two bytes and a carry. -/
def addWithCarry (a b : UInt8) (carry : Bool) : UInt8 × Flags :=
  let result := a + b + carry.toUInt8
  (result,
    { zero := result == 0
      half := 16 ≤ a.toNat % 16 + b.toNat % 16 + carry.toNat
      carry := 256 ≤ a.toNat + b.toNat + carry.toNat })

/-- Sum of two bytes. -/
def add (a b : UInt8) : UInt8 × Flags :=
  addWithCarry a b false

/-- Difference of two bytes and a borrow. -/
def subtractWithCarry (a b : UInt8) (carry : Bool) : UInt8 × Flags :=
  let result := a - b - carry.toUInt8
  (result,
    { zero := result == 0
      subtract := true
      half := a.toNat % 16 < b.toNat % 16 + carry.toNat
      carry := a.toNat < b.toNat + carry.toNat })

/-- Difference of two bytes. -/
def subtract (a b : UInt8) : UInt8 × Flags :=
  subtractWithCarry a b false

/-- A comparison has the flags of a difference and keeps its first operand. -/
def compare (a b : UInt8) : UInt8 × Flags :=
  (a, (subtract a b).2)

/-- Increment.  The carry flag stays as it was. -/
def increment (value : UInt8) (f : Flags) : UInt8 × Flags :=
  let result := value + 1
  (result,
    { zero := result == 0
      half := value.toNat % 16 == 15
      carry := f.carry })

/-- Decrement.  The carry flag stays as it was. -/
def decrement (value : UInt8) (f : Flags) : UInt8 × Flags :=
  let result := value - 1
  (result,
    { zero := result == 0
      subtract := true
      half := value.toNat % 16 == 0
      carry := f.carry })

/-- Decimal adjustment of the result of an addition or a subtraction.  Six
is the distance between a hexadecimal and a decimal digit; it is added to,
or after a subtraction taken from, each digit that left the decimal range. -/
def decimalAdjust (a : UInt8) (f : Flags) : UInt8 × Flags :=
  let adjustLow := f.half || (!f.subtract && 9 < a.toNat % 16)
  let adjustHigh := f.carry || (!f.subtract && 0x99 < a.toNat)
  let amount : UInt8 := (if adjustLow then 0x06 else 0) + (if adjustHigh then 0x60 else 0)
  let result := if f.subtract then a - amount else a + amount
  (result, { zero := result == 0, subtract := f.subtract, carry := adjustHigh })

/-! ## Logic -/

/-- Bitwise conjunction sets the half carry. -/
def and (a b : UInt8) : UInt8 × Flags :=
  let result := a &&& b
  (result, { zero := result == 0, half := true })

/-- Bitwise exclusive disjunction. -/
def xor (a b : UInt8) : UInt8 × Flags :=
  let result := a ^^^ b
  (result, { zero := result == 0 })

/-- Bitwise disjunction. -/
def or (a b : UInt8) : UInt8 × Flags :=
  let result := a ||| b
  (result, { zero := result == 0 })

/-! ## Sixteen-bit addition -/

/-- Sum of two words.  The zero flag stays, and the half carry is the carry
out of bit 11. -/
def addWords (a b : UInt16) (f : Flags) : UInt16 × Flags :=
  (a + b,
    { zero := f.zero
      half := 4096 ≤ a.toNat % 4096 + b.toNat % 4096
      carry := 65536 ≤ a.toNat + b.toNat })

/-- Sum of a word and a signed byte.  Both carries are those of adding the
byte, read as unsigned, to the low byte of the word. -/
def addSigned (a : UInt16) (offset : UInt8) : UInt16 × Flags :=
  (a + signExtend offset,
    { half := 16 ≤ a.toNat % 16 + offset.toNat % 16
      carry := 256 ≤ a.toNat % 256 + offset.toNat })

/-! ## Rotations and shifts -/

/-- Rotation to the left; bit 7 moves to bit 0 and to the carry. -/
def rotateLeftCircular (value : UInt8) : UInt8 × Flags :=
  let result := (value <<< 1) ||| (value >>> 7)
  (result, { zero := result == 0, carry := value &&& 0x80 != 0 })

/-- Rotation to the right; bit 0 moves to bit 7 and to the carry. -/
def rotateRightCircular (value : UInt8) : UInt8 × Flags :=
  let result := (value >>> 1) ||| (value <<< 7)
  (result, { zero := result == 0, carry := value &&& 0x01 != 0 })

/-- Rotation to the left through the carry. -/
def rotateLeft (value : UInt8) (carry : Bool) : UInt8 × Flags :=
  let result := (value <<< 1) ||| carry.toUInt8
  (result, { zero := result == 0, carry := value &&& 0x80 != 0 })

/-- Rotation to the right through the carry. -/
def rotateRight (value : UInt8) (carry : Bool) : UInt8 × Flags :=
  let result := (value >>> 1) ||| (carry.toUInt8 <<< 7)
  (result, { zero := result == 0, carry := value &&& 0x01 != 0 })

/-- Shift to the left; bit 0 becomes zero. -/
def shiftLeft (value : UInt8) : UInt8 × Flags :=
  let result := value <<< 1
  (result, { zero := result == 0, carry := value &&& 0x80 != 0 })

/-- Arithmetic shift to the right; bit 7 stays. -/
def shiftRightArithmetic (value : UInt8) : UInt8 × Flags :=
  let result := (value >>> 1) ||| (value &&& 0x80)
  (result, { zero := result == 0, carry := value &&& 0x01 != 0 })

/-- Logical shift to the right; bit 7 becomes zero. -/
def shiftRight (value : UInt8) : UInt8 × Flags :=
  let result := value >>> 1
  (result, { zero := result == 0, carry := value &&& 0x01 != 0 })

/-- Exchange of the two digits. -/
def swapDigits (value : UInt8) : UInt8 × Flags :=
  let result := (value <<< 4) ||| (value >>> 4)
  (result, { zero := result == 0 })

/-! ## Single bits -/

/-- The byte with only bit `n` set. -/
@[inline] def bitMask (n : Fin 8) : UInt8 :=
  1 <<< n.val.toUInt8

/-- Test of bit `n`: the zero flag is set when the bit is clear, and the
carry flag stays. -/
def testBit (n : Fin 8) (value : UInt8) (f : Flags) : Flags :=
  { zero := value &&& bitMask n == 0, half := true, carry := f.carry }

end Handheld.Alu
