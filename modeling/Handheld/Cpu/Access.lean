import Handheld.Cpu.Execute
import Handheld.Instruction.Decode

/-!
# What an instruction reads

The addresses that executing an instruction reads, in order: first the bytes
of the instruction itself, then its operands.
-/

namespace Handheld.Registers

/-- The address of an operand, if it is in memory. -/
def operandAddress (r : Registers) : Operand → List UInt16
  | .atHL => [r.hl]
  | _ => []

/-- The addresses of the word on top of the stack. -/
def topAddresses (r : Registers) : List UInt16 :=
  [r.sp, r.sp + 1]

/-- The addresses of the operands that executing the instruction reads. -/
def operandReads (r : Registers) : Instruction → List UInt16
  | .loadThrough p => [r.pointer p]
  | .load _ o | .arithmetic _ o | .increment o | .decrement o => r.operandAddress o
  | .rotate _ o | .testBit _ o | .resetBit _ o | .setBit _ o => r.operandAddress o
  | .ret condition => if r.allows condition then r.topAddresses else []
  | .reti | .pop _ => r.topAddresses
  | .loadHigh offset => [highAddress offset]
  | .loadHighC => [highAddress r.c]
  | .loadAt address => [address]
  | _ => []

/-- The addresses of the bytes of an instruction at the program counter. -/
def fetchReads (r : Registers) (i : Instruction) : List UInt16 :=
  (List.range i.length).map fun k => r.pc + k.toUInt16

end Handheld.Registers
