import Handheld.Instruction.Basic

/-!
# Decoding

An opcode falls into three fields: `x`, its two high bits, `y`, the three
bits below them, and `z`, the three low bits.  `x` picks one of four blocks;
within a block `y` and `z` pick the instruction and number its operands.  The
opcode CB stands before a second opcode with fields of its own.

`Instruction.ofBytes` is the whole decoder, a function of the opcode and the
two bytes behind it.  `Instruction.decode` reads those bytes from memory.
-/

namespace Handheld.Instruction

/-! ## The fields of an opcode -/

/-- Bits 7 and 6. -/
@[inline] def fieldX (opcode : UInt8) : Fin 4 := .ofNat 4 (opcode.toNat / 64)

/-- Bits 5 to 3. -/
@[inline] def fieldY (opcode : UInt8) : Fin 8 := .ofNat 8 (opcode.toNat / 8)

/-- Bits 2 to 0. -/
@[inline] def fieldZ (opcode : UInt8) : Fin 8 := .ofNat 8 opcode.toNat

/-- The two low bits of a field: the number of a condition. -/
@[inline] def lowPart (y : Fin 8) : Fin 4 := .ofNat 4 y.val

/-- The two high bits of a field: the number of a pair. -/
@[inline] def highPart (y : Fin 8) : Fin 4 := .ofNat 4 (y.val / 2)

/-- Whether the lowest bit of a field is clear. -/
@[inline] def isEven (y : Fin 8) : Bool := y.val % 2 == 0

/-! ## The blocks -/

/-- Opcodes 00 to 3F: loads, sixteen-bit arithmetic, relative jumps. -/
def ofFirstBlock (y z : Fin 8) (low high : UInt8) : Instruction :=
  match z with
  | 0 =>
    match y with
    | 0 => nop
    | 1 => storeSp (word high low)
    | 2 => stop
    | 3 => jumpRelative none low
    | _ => jumpRelative (some (.ofIndex (lowPart y))) low
  | 1 =>
    if isEven y then loadPair (.ofIndex (highPart y)) (word high low)
    else addPair (.ofIndex (highPart y))
  | 2 =>
    if isEven y then storeThrough (.ofIndex (highPart y))
    else loadThrough (.ofIndex (highPart y))
  | 3 =>
    if isEven y then incrementPair (.ofIndex (highPart y))
    else decrementPair (.ofIndex (highPart y))
  | 4 => increment (.ofIndex y)
  | 5 => decrement (.ofIndex y)
  | 6 => loadImmediate (.ofIndex y) low
  | 7 => adjust (.ofIndex y)

/-- Opcodes 40 to 7F: loads between eight-bit operands.  The place of the
load from memory to memory is taken by HALT. -/
def ofSecondBlock (y z : Fin 8) : Instruction :=
  if y = 6 ∧ z = 6 then halt else load (.ofIndex y) (.ofIndex z)

/-- Opcodes C0 to FF without CB: control, stack and immediate operands. -/
def ofFourthBlock (y z : Fin 8) (opcode low high : UInt8) : Instruction :=
  match z with
  | 0 =>
    match y with
    | 4 => storeHigh low
    | 5 => addSp low
    | 6 => loadHigh low
    | 7 => loadHLFromSp low
    | _ => ret (some (.ofIndex (lowPart y)))
  | 1 =>
    if isEven y then pop (.ofIndex (highPart y))
    else
      match highPart y with
      | 0 => ret none
      | 1 => reti
      | 2 => jumpHL
      | 3 => loadSpFromHL
  | 2 =>
    match y with
    | 4 => storeHighC
    | 5 => storeAt (word high low)
    | 6 => loadHighC
    | 7 => loadAt (word high low)
    | _ => jump (some (.ofIndex (lowPart y))) (word high low)
  | 3 =>
    match y with
    | 0 => jump none (word high low)
    | 6 => disableInterrupts
    | 7 => enableInterrupts
    | _ => unassigned opcode
  | 4 =>
    if y.val < 4 then call (some (.ofIndex (lowPart y))) (word high low)
    else unassigned opcode
  | 5 =>
    if isEven y then push (.ofIndex (highPart y))
    else if y = 1 then call none (word high low)
    else unassigned opcode
  | 6 => arithmeticImmediate (.ofIndex y) low
  | 7 => restart y

/-- The instruction behind the opcode CB. -/
def ofExtended (opcode : UInt8) : Instruction :=
  let y := fieldY opcode
  let operand := Operand.ofIndex (fieldZ opcode)
  match fieldX opcode with
  | 0 => rotate (.ofIndex y) operand
  | 1 => testBit y operand
  | 2 => resetBit y operand
  | 3 => setBit y operand

/-- The instruction with the given opcode and the two bytes behind it. -/
def ofBytes (opcode low high : UInt8) : Instruction :=
  let y := fieldY opcode
  let z := fieldZ opcode
  match fieldX opcode with
  | 0 => ofFirstBlock y z low high
  | 1 => ofSecondBlock y z
  | 2 => arithmetic (.ofIndex y) (.ofIndex z)
  | 3 => if opcode = 0xCB then ofExtended low else ofFourthBlock y z opcode low high

/-- The instruction that stands in memory at `start`. -/
def decode (read : UInt16 → UInt8) (start : UInt16) : Instruction :=
  ofBytes (read start) (read (start + 1)) (read (start + 2))

/-! ## Lengths -/

/-- How many bytes the instruction takes, the opcode CB included.  STOP
carries a padding byte. -/
def length : Instruction → Nat
  | loadPair .. | storeSp _ | jump .. | call .. | storeAt _ | loadAt _ => 3
  | stop | loadImmediate .. | arithmeticImmediate .. | jumpRelative .. => 2
  | storeHigh _ | loadHigh _ | addSp _ | loadHLFromSp _ => 2
  | rotate .. | testBit .. | resetBit .. | setBit .. => 2
  | _ => 1

/-- How many of its bytes the instruction depends on: all but the padding
byte of STOP. -/
def significantLength : Instruction → Nat
  | stop => 1
  | i => i.length

end Handheld.Instruction
