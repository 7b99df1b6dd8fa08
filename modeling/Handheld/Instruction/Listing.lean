import Handheld.Instruction.Decode
import Handheld.Text.Hex

/-!
# Listings

The text of an instruction in assembler notation.  Numbers are hexadecimal
behind a dollar sign; a displacement of the stack pointer is a signed decimal;
a relative jump shows its target, so the text depends on where the
instruction stands.
-/

namespace Handheld

open Text (hexByte hexWord)

/-- The operand's name. -/
def Operand.text : Operand → String
  | .b => "B" | .c => "C" | .d => "D" | .e => "E"
  | .h => "H" | .l => "L" | .atHL => "(HL)" | .a => "A"

/-- The pair's name. -/
def Pair.text : Pair → String
  | .bc => "BC" | .de => "DE" | .hl => "HL" | .sp => "SP"

/-- The pair's name. -/
def StackPair.text : StackPair → String
  | .bc => "BC" | .de => "DE" | .hl => "HL" | .af => "AF"

/-- The pointer in parentheses, with the sign of its movement. -/
def Pointer.text : Pointer → String
  | .bc => "(BC)" | .de => "(DE)" | .hlUp => "(HL+)" | .hlDown => "(HL-)"

/-- The condition's name. -/
def Condition.text : Condition → String
  | .notZero => "NZ" | .zero => "Z" | .notCarry => "NC" | .carry => "C"

/-- The operation's name up to its operand.  Four of the operations name the
accumulator, four do not. -/
def Arithmetic.text : Arithmetic → String
  | .add => "ADD A," | .addCarry => "ADC A,"
  | .subtract => "SUB " | .subtractCarry => "SBC A,"
  | .and => "AND " | .xor => "XOR " | .or => "OR " | .compare => "CP "

/-- The operation's name. -/
def Rotation.text : Rotation → String
  | .leftCircular => "RLC" | .rightCircular => "RRC" | .left => "RL" | .right => "RR"
  | .shiftLeft => "SLA" | .shiftRightArithmetic => "SRA"
  | .swapDigits => "SWAP" | .shiftRight => "SRL"

/-- The operation's name. -/
def Adjustment.text : Adjustment → String
  | .leftCircular => "RLCA" | .rightCircular => "RRCA" | .left => "RLA" | .right => "RRA"
  | .decimal => "DAA" | .complement => "CPL" | .setCarry => "SCF" | .flipCarry => "CCF"

namespace Instruction

/-- A byte as a number. -/
def byteText (value : UInt8) : String := "$" ++ hexByte value

/-- A word as a number. -/
def wordText (value : UInt16) : String := "$" ++ hexWord value

/-- The number a byte stands for, with a minus sign if it is negative. -/
def signedText (value : UInt8) : String :=
  if value < 0x80 then toString value.toNat else "-" ++ toString (256 - value.toNat)

/-- The number a byte stands for, with a sign also if it is not negative. -/
def signText (value : UInt8) : String :=
  if value < 0x80 then "+" ++ signedText value else signedText value

/-- The operand list of a conditional transfer, up to its target. -/
def conditionText : Option Condition → String
  | none => ""
  | some c => c.text ++ ","

/-- The target of a relative jump that stands at `start`: the displacement
counts from the instruction behind it. -/
def relativeTarget (start : UInt16) (offset : UInt8) : UInt16 :=
  start + 2 + signExtend offset

/-- The text of the instruction that stands at `start`. -/
def text (start : UInt16) : Instruction → String
  | nop => "NOP"
  | stop => "STOP"
  | halt => "HALT"
  | disableInterrupts => "DI"
  | enableInterrupts => "EI"
  | loadPair p n => "LD " ++ p.text ++ "," ++ wordText n
  | storeSp n => "LD (" ++ wordText n ++ "),SP"
  | addPair p => "ADD HL," ++ p.text
  | incrementPair p => "INC " ++ p.text
  | decrementPair p => "DEC " ++ p.text
  | storeThrough p => "LD " ++ p.text ++ ",A"
  | loadThrough p => "LD A," ++ p.text
  | increment o => "INC " ++ o.text
  | decrement o => "DEC " ++ o.text
  | loadImmediate o n => "LD " ++ o.text ++ "," ++ byteText n
  | load target source => "LD " ++ target.text ++ "," ++ source.text
  | adjust operation => operation.text
  | arithmetic operation o => operation.text ++ o.text
  | arithmeticImmediate operation n => operation.text ++ byteText n
  | jumpRelative c offset => "JR " ++ conditionText c ++ wordText (relativeTarget start offset)
  | jump c target => "JP " ++ conditionText c ++ wordText target
  | jumpHL => "JP HL"
  | call c target => "CALL " ++ conditionText c ++ wordText target
  | ret none => "RET"
  | ret (some c) => "RET " ++ c.text
  | reti => "RETI"
  | restart slot => "RST $" ++ hexByte (8 * slot.val).toUInt8
  | push p => "PUSH " ++ p.text
  | pop p => "POP " ++ p.text
  | storeHigh n => "LDH ($FF" ++ hexByte n ++ "),A"
  | loadHigh n => "LDH A,($FF" ++ hexByte n ++ ")"
  | storeHighC => "LD ($FF00+C),A"
  | loadHighC => "LD A,($FF00+C)"
  | storeAt n => "LD (" ++ wordText n ++ "),A"
  | loadAt n => "LD A,(" ++ wordText n ++ ")"
  | addSp e => "ADD SP," ++ signedText e
  | loadHLFromSp e => "LD HL,SP" ++ signText e
  | loadSpFromHL => "LD SP,HL"
  | rotate operation o => operation.text ++ " " ++ o.text
  | testBit n o => "BIT " ++ toString n.val ++ "," ++ o.text
  | resetBit n o => "RES " ++ toString n.val ++ "," ++ o.text
  | setBit n o => "SET " ++ toString n.val ++ "," ++ o.text
  | unassigned opcode => "DB " ++ byteText opcode

/-- The addresses whose bytes the text of the instruction at `start` depends
on, in order. -/
def listedAddresses (start : UInt16) (i : Instruction) : List UInt16 :=
  (List.range i.significantLength).map fun k => start + k.toUInt16

end Instruction

/-- One line of a listing. -/
structure ListingLine where
  address : UInt16
  instruction : Instruction
  deriving Repr

namespace ListingLine

/-- The text of the line. -/
def text (line : ListingLine) : String :=
  line.instruction.text line.address

/-- The bytes the line's instruction takes. -/
def length (line : ListingLine) : Nat :=
  line.instruction.length

/-- The address behind the line. -/
def next (line : ListingLine) : UInt16 :=
  line.address + line.length.toUInt16

/-- The addresses whose bytes the line shows. -/
def listed (line : ListingLine) : List UInt16 :=
  line.instruction.listedAddresses line.address

end ListingLine

/-- The line at `start`. -/
def listLine (read : UInt16 → UInt8) (start : UInt16) : ListingLine where
  address := start
  instruction := .decode read start

/-- The `count` lines from `start` on, each behind the line before it. -/
def listing (read : UInt16 → UInt8) : (count : Nat) → (start : UInt16) → List ListingLine
  | 0, _ => []
  | count + 1, start =>
    let line := listLine read start
    line :: listing read count line.next

end Handheld
