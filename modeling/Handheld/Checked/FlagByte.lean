import Handheld.Cpu.Alu
import Handheld.Instruction.Basic

/-!
# Arithmetic with the flags as one byte

Here the flag register is the byte F, put together from masks, and the carries
are read off bits.  A carry into bit 4 shows in that bit of the exclusive
disjunction of the operands and the result.  A carry out of a byte shows as a
result below an operand, as a set bit in the upper byte of a wider sum, or, in a
word, as the carry into bit 8.
-/

namespace Handheld.Checked.FlagByte

/-! ## The flags -/

/-- The zero flag of a result. -/
def zero (result : UInt8) : UInt8 :=
  if result == 0 then 0x80 else 0

/-- The half carry of a sum or a difference of bytes. -/
def half (a b result : UInt8) : UInt8 :=
  if (a ^^^ b ^^^ result) &&& 0x10 != 0 then 0x20 else 0

/-- The carry flag. -/
def carry (set : Bool) : UInt8 :=
  if set then 0x10 else 0

/-- Whether the carry flag is set. -/
def carrySet (flags : UInt8) : Bool :=
  flags &&& 0x10 != 0

/-! ## Sums and differences -/

/-- Sum of two bytes.  It carries if it is below its first operand. -/
def add (a b : UInt8) : UInt8 × UInt8 :=
  let result := a + b
  (result, zero result ||| half a b result ||| carry (result < a))

/-- Sum of two bytes and a carry, formed as a word. -/
def addWithCarry (a b : UInt8) (carried : Bool) : UInt8 × UInt8 :=
  let sum := a.toUInt16 + b.toUInt16 + carried.toUInt16
  let result := sum.toUInt8
  (result, zero result ||| half a b result ||| carry (sum &&& 0xFF00 != 0))

/-- Difference of two bytes.  It borrows if it is above its first operand. -/
def subtract (a b : UInt8) : UInt8 × UInt8 :=
  let result := a - b
  (result, 0x40 ||| zero result ||| half a b result ||| carry (a < result))

/-- Difference of two bytes and a borrow, formed as a word. -/
def subtractWithCarry (a b : UInt8) (carried : Bool) : UInt8 × UInt8 :=
  let difference := a.toUInt16 - b.toUInt16 - carried.toUInt16
  let result := difference.toUInt8
  (result,
    0x40 ||| zero result ||| half a b result ||| carry (difference &&& 0xFF00 != 0))

/-- Increment.  The carry flag stays as it was. -/
def increment (value flags : UInt8) : UInt8 × UInt8 :=
  let result := value + 1
  (result, (flags &&& 0x10) ||| zero result ||| half value 1 result)

/-- Decrement.  The carry flag stays as it was. -/
def decrement (value flags : UInt8) : UInt8 × UInt8 :=
  let result := value - 1
  (result, (flags &&& 0x10) ||| 0x40 ||| zero result ||| half value 1 result)

/-- Sum of two words. -/
def addWords (a b : UInt16) (flags : UInt8) : UInt16 × UInt8 :=
  let result := a + b
  let half : UInt8 := if (a ^^^ b ^^^ result) &&& 0x1000 != 0 then 0x20 else 0
  (result, (flags &&& 0x80) ||| half ||| carry (result < a))

/-- Sum of a word and a signed byte.  Both carries are those into bits of the
sum. -/
def addSigned (a : UInt16) (offset : UInt8) : UInt16 × UInt8 :=
  let value := offset.toInt8.toInt16.toUInt16
  let result := a + value
  let bits := a ^^^ value ^^^ result
  let half : UInt8 := if bits &&& 0x10 != 0 then 0x20 else 0
  (result, half ||| carry (bits &&& 0x100 != 0))

/-- Decimal adjustment. -/
def decimalAdjust (a flags : UInt8) : UInt8 × UInt8 :=
  let (result, carried) :=
    if flags &&& 0x40 == 0 then
      let low : UInt8 := if flags &&& 0x20 != 0 || 0x09 < a &&& 0x0F then 0x06 else 0
      let carried := carrySet flags || 0x99 < a
      (a + (low ||| if carried then 0x60 else 0), carried)
    else
      let low : UInt8 := if flags &&& 0x20 != 0 then 0x06 else 0
      (a - (low ||| if carrySet flags then 0x60 else 0), carrySet flags)
  (result, zero result ||| (flags &&& 0x40) ||| carry carried)

/-! ## Families of operations -/

/-- An operation on the accumulator. -/
def compute (a value flags : UInt8) : Arithmetic → UInt8 × UInt8
  | .add => add a value
  | .addCarry => addWithCarry a value (carrySet flags)
  | .subtract => subtract a value
  | .subtractCarry => subtractWithCarry a value (carrySet flags)
  | .and => (a &&& value, zero (a &&& value) ||| 0x20)
  | .xor => (a ^^^ value, zero (a ^^^ value))
  | .or => (a ||| value, zero (a ||| value))
  | .compare => (a, (subtract a value).2)

/-- What a rotation or a shift answers, given the bit that it moves out. -/
def shifted (result : UInt8) (out : Bool) : UInt8 × UInt8 :=
  (result, zero result ||| carry out)

/-- A rotation or a shift. -/
def rotate (value flags : UInt8) : Rotation → UInt8 × UInt8
  | .leftCircular => shifted ((value <<< 1) ||| (value >>> 7)) (value &&& 0x80 != 0)
  | .rightCircular => shifted ((value >>> 1) ||| (value <<< 7)) (value &&& 0x01 != 0)
  | .left => shifted ((value <<< 1) ||| (carrySet flags).toUInt8) (value &&& 0x80 != 0)
  | .right => shifted ((value >>> 1) ||| ((carrySet flags).toUInt8 <<< 7)) (value &&& 0x01 != 0)
  | .shiftLeft => shifted (value <<< 1) (value &&& 0x80 != 0)
  | .shiftRightArithmetic => shifted ((value >>> 1) ||| (value &&& 0x80)) (value &&& 0x01 != 0)
  | .swapDigits => shifted ((value <<< 4) ||| (value >>> 4)) false
  | .shiftRight => shifted (value >>> 1) (value &&& 0x01 != 0)

/-- Test of bit `n`. -/
def testBit (n : Fin 8) (value flags : UInt8) : UInt8 :=
  (flags &&& 0x10) ||| 0x20 ||| zero (value &&& Alu.bitMask n)

end Handheld.Checked.FlagByte
