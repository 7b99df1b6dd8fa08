import Handheld.Instruction.Listing

/-!
# Disassembly by tables

A disassembler that knows nothing of instructions as data: it picks a wording
by the opcode, and the names in it out of tables that the bits of the opcode
number.  It answers the text of an instruction and its length in bytes.
-/

namespace Handheld

/-- The text of an instruction in memory, and the bytes it takes. -/
structure Disassembly where
  text : String
  length : UInt16
  deriving DecidableEq, Repr

namespace Disassembly

open Instruction (byteText wordText signedText signText)

/-! ## The tables -/

/-- The eight-bit operands. -/
def operandNames : List String := ["B", "C", "D", "E", "H", "L", "(HL)", "A"]

/-- The pairs. -/
def pairNames : List String := ["BC", "DE", "HL", "SP"]

/-- The pairs of the stack instructions. -/
def stackPairNames : List String := ["BC", "DE", "HL", "AF"]

/-- The conditions. -/
def conditionNames : List String := ["NZ", "Z", "NC", "C"]

/-- The operations on the accumulator, up to their operand. -/
def arithmeticNames : List String :=
  ["ADD A,", "ADC A,", "SUB ", "SBC A,", "AND ", "XOR ", "OR ", "CP "]

/-- The rotations and shifts. -/
def rotationNames : List String := ["RLC", "RRC", "RL", "RR", "SLA", "SRA", "SWAP", "SRL"]

/-- The operations on the accumulator alone. -/
def adjustmentNames : List String :=
  ["RLCA", "RRCA", "RLA", "RRA", "DAA", "CPL", "SCF", "CCF"]

/-- The pointers that the accumulator is loaded and stored through. -/
def pointerNames : List String := ["(BC)", "(DE)", "(HL+)", "(HL-)"]

/-- The opcodes that no instruction has. -/
def unassigned : List UInt8 :=
  [0xD3, 0xDB, 0xDD, 0xE3, 0xE4, 0xEB, 0xEC, 0xED, 0xF4, 0xFC, 0xFD]

/-- The name with a number in a table. -/
def name (table : List String) (number : UInt8) : String :=
  table.getD number.toNat ""

/-! ## The cases -/

/-- The instruction behind the opcode CB. -/
def ofExtended (opcode : UInt8) : Disassembly :=
  let y := (opcode >>> 3) &&& 7
  let target := name operandNames (opcode &&& 7)
  let text :=
    match opcode >>> 6 with
    | 0 => name rotationNames y ++ " " ++ target
    | 1 => "BIT " ++ toString y.toNat ++ "," ++ target
    | 2 => "RES " ++ toString y.toNat ++ "," ++ target
    | _ => "SET " ++ toString y.toNat ++ "," ++ target
  ⟨text, 2⟩

/-- The opcodes 00 to 3F. -/
def ofFirstQuarter (start : UInt16) (opcode n8 : UInt8) (n16 : UInt16) : Disassembly :=
  let y := (opcode >>> 3) &&& 7
  let z := opcode &&& 7
  let p := y >>> 1
  let target := start + 2 + signExtend n8
  match opcode with
  | 0x00 => ⟨"NOP", 1⟩
  | 0x08 => ⟨"LD (" ++ wordText n16 ++ "),SP", 3⟩
  | 0x10 => ⟨"STOP", 2⟩
  | 0x18 => ⟨"JR " ++ wordText target, 2⟩
  | 0x20 | 0x28 | 0x30 | 0x38 =>
    ⟨"JR " ++ name conditionNames (y &&& 3) ++ "," ++ wordText target, 2⟩
  | 0x01 | 0x11 | 0x21 | 0x31 => ⟨"LD " ++ name pairNames p ++ "," ++ wordText n16, 3⟩
  | 0x09 | 0x19 | 0x29 | 0x39 => ⟨"ADD HL," ++ name pairNames p, 1⟩
  | 0x02 | 0x12 | 0x22 | 0x32 => ⟨"LD " ++ name pointerNames p ++ ",A", 1⟩
  | 0x0A | 0x1A | 0x2A | 0x3A => ⟨"LD A," ++ name pointerNames p, 1⟩
  | 0x03 | 0x13 | 0x23 | 0x33 => ⟨"INC " ++ name pairNames p, 1⟩
  | 0x0B | 0x1B | 0x2B | 0x3B => ⟨"DEC " ++ name pairNames p, 1⟩
  | _ =>
    if z = 4 then ⟨"INC " ++ name operandNames y, 1⟩
    else if z = 5 then ⟨"DEC " ++ name operandNames y, 1⟩
    else if z = 6 then ⟨"LD " ++ name operandNames y ++ "," ++ byteText n8, 2⟩
    else ⟨name adjustmentNames y, 1⟩

/-- The opcodes C0 to FF that an instruction has, without CB. -/
def ofLastQuarter (opcode n8 : UInt8) (n16 : UInt16) : Disassembly :=
  let y := (opcode >>> 3) &&& 7
  let z := opcode &&& 7
  let p := y >>> 1
  let condition := name conditionNames (y &&& 3)
  match opcode with
  | 0xC0 | 0xC8 | 0xD0 | 0xD8 => ⟨"RET " ++ condition, 1⟩
  | 0xC2 | 0xCA | 0xD2 | 0xDA => ⟨"JP " ++ condition ++ "," ++ wordText n16, 3⟩
  | 0xC4 | 0xCC | 0xD4 | 0xDC => ⟨"CALL " ++ condition ++ "," ++ wordText n16, 3⟩
  | 0xC1 | 0xD1 | 0xE1 | 0xF1 => ⟨"POP " ++ name stackPairNames (p &&& 3), 1⟩
  | 0xC5 | 0xD5 | 0xE5 | 0xF5 => ⟨"PUSH " ++ name stackPairNames (p &&& 3), 1⟩
  | 0xC3 => ⟨"JP " ++ wordText n16, 3⟩
  | 0xC9 => ⟨"RET", 1⟩
  | 0xD9 => ⟨"RETI", 1⟩
  | 0xCD => ⟨"CALL " ++ wordText n16, 3⟩
  | 0xE0 => ⟨"LDH ($FF" ++ Text.hexByte n8 ++ "),A", 2⟩
  | 0xF0 => ⟨"LDH A,($FF" ++ Text.hexByte n8 ++ ")", 2⟩
  | 0xE2 => ⟨"LD ($FF00+C),A", 1⟩
  | 0xF2 => ⟨"LD A,($FF00+C)", 1⟩
  | 0xE8 => ⟨"ADD SP," ++ signedText n8, 2⟩
  | 0xF8 => ⟨"LD HL,SP" ++ signText n8, 2⟩
  | 0xE9 => ⟨"JP HL", 1⟩
  | 0xF9 => ⟨"LD SP,HL", 1⟩
  | 0xEA => ⟨"LD (" ++ wordText n16 ++ "),A", 3⟩
  | 0xFA => ⟨"LD A,(" ++ wordText n16 ++ ")", 3⟩
  | 0xF3 => ⟨"DI", 1⟩
  | 0xFB => ⟨"EI", 1⟩
  | _ =>
    if z = 6 then ⟨name arithmeticNames y ++ byteText n8, 2⟩
    else ⟨"RST " ++ byteText (8 * y), 1⟩

/-- The instruction with an opcode and the byte and the word behind it. -/
def ofOpcode (start : UInt16) (opcode n8 : UInt8) (n16 : UInt16) : Disassembly :=
  let y := (opcode >>> 3) &&& 7
  let z := opcode &&& 7
  if opcode = 0xCB then ofExtended n8
  else if unassigned.contains opcode then ⟨"DB " ++ byteText opcode, 1⟩
  else if opcode ≤ 0x3F then ofFirstQuarter start opcode n8 n16
  else if opcode = 0x76 then ⟨"HALT", 1⟩
  else if opcode ≤ 0x7F then ⟨"LD " ++ name operandNames y ++ "," ++ name operandNames z, 1⟩
  else if opcode ≤ 0xBF then ⟨name arithmeticNames y ++ name operandNames z, 1⟩
  else ofLastQuarter opcode n8 n16

end Disassembly

/-- Disassembles the instruction that stands in memory at `start`. -/
def disassemble (read : UInt16 → UInt8) (start : UInt16) : Disassembly :=
  .ofOpcode start (read start) (read (start + 1)) (word (read (start + 2)) (read (start + 1)))

end Handheld
