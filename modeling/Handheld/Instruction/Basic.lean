import Handheld.Word

/-!
# Instructions

The instruction set as a data type.  An instruction holds what its bytes say:
the operands it names and its immediate values.  A relative jump holds its
displacement, not its target, so an instruction does not depend on where it
stands.
-/

namespace Handheld

/-- An eight-bit operand: a register, or the byte that HL points to. -/
inductive Operand where
  | b | c | d | e | h | l | atHL | a
  deriving DecidableEq, Repr, Inhabited

/-- A sixteen-bit operand. -/
inductive Pair where
  | bc | de | hl | sp
  deriving DecidableEq, Repr, Inhabited

/-- A sixteen-bit operand of the stack instructions. -/
inductive StackPair where
  | bc | de | hl | af
  deriving DecidableEq, Repr, Inhabited

/-- A pair used as an address; HL may move by one afterwards. -/
inductive Pointer where
  | bc | de | hlUp | hlDown
  deriving DecidableEq, Repr, Inhabited

/-- The condition of a conditional transfer of control. -/
inductive Condition where
  | notZero | zero | notCarry | carry
  deriving DecidableEq, Repr, Inhabited

/-- An operation on the accumulator and one more operand. -/
inductive Arithmetic where
  | add | addCarry | subtract | subtractCarry | and | xor | or | compare
  deriving DecidableEq, Repr, Inhabited

/-- A rotation or shift of one operand. -/
inductive Rotation where
  | leftCircular | rightCircular | left | right
  | shiftLeft | shiftRightArithmetic | swapDigits | shiftRight
  deriving DecidableEq, Repr, Inhabited

/-- An operation on the accumulator and the flags alone. -/
inductive Adjustment where
  | leftCircular | rightCircular | left | right
  | decimal | complement | setCarry | flipCarry
  deriving DecidableEq, Repr, Inhabited

/-- One instruction. -/
inductive Instruction where
  | nop
  | stop
  | halt
  | disableInterrupts
  | enableInterrupts
  | loadPair (target : Pair) (value : UInt16)
  | storeSp (address : UInt16)
  | addPair (source : Pair)
  | incrementPair (pair : Pair)
  | decrementPair (pair : Pair)
  | storeThrough (pointer : Pointer)
  | loadThrough (pointer : Pointer)
  | increment (operand : Operand)
  | decrement (operand : Operand)
  | loadImmediate (target : Operand) (value : UInt8)
  | load (target source : Operand)
  | adjust (operation : Adjustment)
  | arithmetic (operation : Arithmetic) (source : Operand)
  | arithmeticImmediate (operation : Arithmetic) (value : UInt8)
  | jumpRelative (condition : Option Condition) (offset : UInt8)
  | jump (condition : Option Condition) (target : UInt16)
  | jumpHL
  | call (condition : Option Condition) (target : UInt16)
  | ret (condition : Option Condition)
  | reti
  | restart (slot : Fin 8)
  | push (pair : StackPair)
  | pop (pair : StackPair)
  | storeHigh (offset : UInt8)
  | loadHigh (offset : UInt8)
  | storeHighC
  | loadHighC
  | storeAt (address : UInt16)
  | loadAt (address : UInt16)
  | addSp (offset : UInt8)
  | loadHLFromSp (offset : UInt8)
  | loadSpFromHL
  | rotate (operation : Rotation) (operand : Operand)
  | testBit (bit : Fin 8) (operand : Operand)
  | resetBit (bit : Fin 8) (operand : Operand)
  | setBit (bit : Fin 8) (operand : Operand)
  | unassigned (opcode : UInt8)
  deriving DecidableEq, Repr, Inhabited

/-- Where restart slot `slot` begins: the slots are eight bytes apart. -/
def restartAddress (slot : Fin 8) : UInt16 :=
  8 * slot.val.toUInt16

/-- The page that the high-memory loads and stores address. -/
@[inline] def highAddress (offset : UInt8) : UInt16 :=
  word 0xFF offset

/-! ## Operands by their number in an opcode -/

/-- The eight-bit operand with number `i`. -/
def Operand.ofIndex (i : Fin 8) : Operand :=
  match i with
  | 0 => .b | 1 => .c | 2 => .d | 3 => .e
  | 4 => .h | 5 => .l | 6 => .atHL | 7 => .a

/-- The pair with number `i`. -/
def Pair.ofIndex (i : Fin 4) : Pair :=
  match i with
  | 0 => .bc | 1 => .de | 2 => .hl | 3 => .sp

/-- The stack pair with number `i`. -/
def StackPair.ofIndex (i : Fin 4) : StackPair :=
  match i with
  | 0 => .bc | 1 => .de | 2 => .hl | 3 => .af

/-- The pointer with number `i`. -/
def Pointer.ofIndex (i : Fin 4) : Pointer :=
  match i with
  | 0 => .bc | 1 => .de | 2 => .hlUp | 3 => .hlDown

/-- The condition with number `i`. -/
def Condition.ofIndex (i : Fin 4) : Condition :=
  match i with
  | 0 => .notZero | 1 => .zero | 2 => .notCarry | 3 => .carry

/-- The accumulator operation with number `i`. -/
def Arithmetic.ofIndex (i : Fin 8) : Arithmetic :=
  match i with
  | 0 => .add | 1 => .addCarry | 2 => .subtract | 3 => .subtractCarry
  | 4 => .and | 5 => .xor | 6 => .or | 7 => .compare

/-- The rotation with number `i`. -/
def Rotation.ofIndex (i : Fin 8) : Rotation :=
  match i with
  | 0 => .leftCircular | 1 => .rightCircular | 2 => .left | 3 => .right
  | 4 => .shiftLeft | 5 => .shiftRightArithmetic | 6 => .swapDigits | 7 => .shiftRight

/-- The accumulator adjustment with number `i`. -/
def Adjustment.ofIndex (i : Fin 8) : Adjustment :=
  match i with
  | 0 => .leftCircular | 1 => .rightCircular | 2 => .left | 3 => .right
  | 4 => .decimal | 5 => .complement | 6 => .setCarry | 7 => .flipCarry

end Handheld
