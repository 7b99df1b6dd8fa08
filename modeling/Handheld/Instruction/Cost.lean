import Handheld.Instruction.Decode

/-!
# The cost of an instruction

Costs are counted in machine cycles.  A conditional transfer of control has
two costs, one for each outcome of its condition.
-/

namespace Handheld

/-- The operand's own cost: a memory access takes one more cycle. -/
def Operand.accesses : Operand → Nat
  | .atHL => 1
  | _ => 0

namespace Instruction

/-- The cost of the instruction, of a conditional transfer when its condition
fails. -/
def cycles : Instruction → Nat
  | nop | stop | halt | disableInterrupts | enableInterrupts => 1
  | loadPair .. => 3
  | storeSp _ => 5
  | addPair _ | incrementPair _ | decrementPair _ => 2
  | storeThrough _ | loadThrough _ => 2
  | increment o | decrement o => 1 + 2 * o.accesses
  | loadImmediate o _ => 2 + o.accesses
  | load target source => 1 + target.accesses + source.accesses
  | adjust _ => 1
  | arithmetic _ o => 1 + o.accesses
  | arithmeticImmediate .. => 2
  | jumpRelative none _ => 3
  | jumpRelative (some _) _ => 2
  | jump none _ => 4
  | jump (some _) _ => 3
  | jumpHL => 1
  | call none _ => 6
  | call (some _) _ => 3
  | ret none => 4
  | ret (some _) => 2
  | reti => 4
  | restart _ => 4
  | push _ | pop _ => 3
  | storeHigh _ => 2
  | loadHigh _ => 3
  | storeHighC | loadHighC => 2
  | storeAt _ | loadAt _ => 4
  | addSp _ => 4
  | loadHLFromSp _ => 3
  | loadSpFromHL => 2
  | rotate _ o | testBit _ o | resetBit _ o | setBit _ o => 2 + 2 * o.accesses
  | unassigned _ => 1

/-- The cost of a conditional transfer whose condition holds. -/
def takenCycles? : Instruction → Option Nat
  | jumpRelative (some _) _ => some 3
  | jump (some _) _ => some 4
  | call (some _) _ => some 6
  | ret (some _) => some 5
  | _ => none

/-- The cost of the instruction, given whether its condition held. -/
def cost (i : Instruction) (taken : Bool) : Nat :=
  if taken then i.takenCycles?.getD i.cycles else i.cycles

/-! ## Costs by opcode

A cost never depends on an immediate value, so an opcode alone has a cost. -/

/-- The cost of an opcode.  The opcode CB has no cost of its own, the opcode
behind it has the cost of both. -/
def opcodeCycles (opcode : UInt8) : Nat :=
  if opcode = 0xCB then 0 else (ofBytes opcode 0 0).cycles

/-- The cost of an opcode behind CB. -/
def extendedCycles (opcode : UInt8) : Nat :=
  (ofExtended opcode).cycles

/-- The cost of an opcode whose condition holds. -/
def opcodeTakenCycles? (opcode : UInt8) : Option Nat :=
  (ofBytes opcode 0 0).takenCycles?

/-- Whether no instruction has this opcode. -/
def isUnassigned (opcode : UInt8) : Bool :=
  match ofBytes opcode 0 0 with
  | unassigned _ => true
  | _ => false

end Instruction
end Handheld
