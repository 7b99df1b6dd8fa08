import Handheld.Cpu.Alu
import Handheld.Cpu.Basic
import Handheld.Instruction.Basic

/-!
# Executing an instruction

What an instruction does is a function of the CPU and of what the bus reads:
it answers the new CPU state and the bytes to be written to the bus.  No
instruction reads the bus after it has written to it, so all reads see the bus
as it was before.

`execute` expects the program counter behind the instruction.
-/

namespace Handheld

namespace Registers

/-! ## Operands -/

/-- The value of an operand. -/
def operand (r : Registers) (read : UInt16 → UInt8) : Operand → UInt8
  | .b => r.b
  | .c => r.c
  | .d => r.d
  | .e => r.e
  | .h => r.h
  | .l => r.l
  | .atHL => read r.hl
  | .a => r.a

/-- The value of a pair. -/
def pair (r : Registers) : Pair → UInt16
  | .bc => r.bc
  | .de => r.de
  | .hl => r.hl
  | .sp => r.sp

/-- Writes a pair. -/
def setPair (r : Registers) (value : UInt16) : Pair → Registers
  | .bc => r.setBC value
  | .de => r.setDE value
  | .hl => r.setHL value
  | .sp => { r with sp := value }

/-- The value of a stack pair. -/
def stackPair (r : Registers) : StackPair → UInt16
  | .bc => r.bc
  | .de => r.de
  | .hl => r.hl
  | .af => r.af

/-- Writes a stack pair. -/
def setStackPair (r : Registers) (value : UInt16) : StackPair → Registers
  | .bc => r.setBC value
  | .de => r.setDE value
  | .hl => r.setHL value
  | .af => r.setAF value

/-- The address of a pointer. -/
def pointer (r : Registers) : Pointer → UInt16
  | .bc => r.bc
  | .de => r.de
  | .hlUp | .hlDown => r.hl

/-- Moves HL as a pointer says. -/
def movePointer (r : Registers) : Pointer → Registers
  | .bc | .de => r
  | .hlUp => r.setHL (r.hl + 1)
  | .hlDown => r.setHL (r.hl - 1)

/-- Whether a condition holds. -/
def holds (r : Registers) : Condition → Bool
  | .notZero => !r.flags.zero
  | .zero => r.flags.zero
  | .notCarry => !r.flags.carry
  | .carry => r.flags.carry

/-- Whether a transfer of control happens: without a condition always. -/
def allows (r : Registers) : Option Condition → Bool
  | none => true
  | some c => r.holds c

/-! ## The stack -/

/-- Puts a word on the stack, which grows downwards: the high byte first, the
low byte below it. -/
def push (r : Registers) (value : UInt16) : Registers × List (UInt16 × UInt8) :=
  ({ r with sp := r.sp - 2 },
    [(r.sp - 1, highByte value), (r.sp - 2, lowByte value)])

/-- The word on top of the stack. -/
def top (r : Registers) (read : UInt16 → UInt8) : UInt16 :=
  word (read (r.sp + 1)) (read r.sp)

/-- Takes the word on top from the stack. -/
def drop (r : Registers) : Registers :=
  { r with sp := r.sp + 2 }

/-! ## Operations on the accumulator -/

/-- The result and the flags of an operation on the accumulator. -/
def compute (r : Registers) (value : UInt8) : Arithmetic → UInt8 × Flags
  | .add => Alu.add r.a value
  | .addCarry => Alu.addWithCarry r.a value r.flags.carry
  | .subtract => Alu.subtract r.a value
  | .subtractCarry => Alu.subtractWithCarry r.a value r.flags.carry
  | .and => Alu.and r.a value
  | .xor => Alu.xor r.a value
  | .or => Alu.or r.a value
  | .compare => Alu.compare r.a value

/-- Applies an operation to the accumulator. -/
def arithmetic (r : Registers) (operation : Arithmetic) (value : UInt8) : Registers :=
  let (a, flags) := r.compute value operation
  { r with a, flags }

/-- The result and the flags of a rotation. -/
def rotated (r : Registers) (value : UInt8) : Rotation → UInt8 × Flags
  | .leftCircular => Alu.rotateLeftCircular value
  | .rightCircular => Alu.rotateRightCircular value
  | .left => Alu.rotateLeft value r.flags.carry
  | .right => Alu.rotateRight value r.flags.carry
  | .shiftLeft => Alu.shiftLeft value
  | .shiftRightArithmetic => Alu.shiftRightArithmetic value
  | .swapDigits => Alu.swapDigits value
  | .shiftRight => Alu.shiftRight value

/-- Rotates the accumulator.  The short forms always clear the zero flag. -/
def rotateA (r : Registers) (rotation : Rotation) : Registers :=
  let (a, flags) := r.rotated r.a rotation
  { r with a, flags := { flags with zero := false } }

/-- Applies an adjustment to the accumulator and the flags. -/
def adjust (r : Registers) : Adjustment → Registers
  | .leftCircular => r.rotateA .leftCircular
  | .rightCircular => r.rotateA .rightCircular
  | .left => r.rotateA .left
  | .right => r.rotateA .right
  | .decimal =>
    let (a, flags) := Alu.decimalAdjust r.a r.flags
    { r with a, flags }
  | .complement =>
    { r with a := ~~~r.a, flags := { r.flags with subtract := true, half := true } }
  | .setCarry => { r with flags := { zero := r.flags.zero, carry := true } }
  | .flipCarry => { r with flags := { zero := r.flags.zero, carry := !r.flags.carry } }

end Registers

/-- What executing an instruction comes to. -/
structure Effect where
  cpu : Cpu
  /-- The bytes to be written to the bus, in order. -/
  writes : List (UInt16 × UInt8) := []
  /-- Whether a condition held and control was transferred. -/
  taken : Bool := false

namespace Cpu

/-- Changed registers and nothing else. -/
@[inline] def become (cpu : Cpu) (regs : Registers) : Effect :=
  { cpu := { cpu with regs } }

/-- Puts a byte into an operand. -/
def store (cpu : Cpu) (value : UInt8) : Operand → Effect
  | .b => cpu.become { cpu.regs with b := value }
  | .c => cpu.become { cpu.regs with c := value }
  | .d => cpu.become { cpu.regs with d := value }
  | .e => cpu.become { cpu.regs with e := value }
  | .h => cpu.become { cpu.regs with h := value }
  | .l => cpu.become { cpu.regs with l := value }
  | .atHL => { cpu, writes := [(cpu.regs.hl, value)] }
  | .a => cpu.become { cpu.regs with a := value }

/-- Puts a result into an operand and its flags into the flag register. -/
def storeResult (cpu : Cpu) (result : UInt8 × Flags) (target : Operand) : Effect :=
  store { cpu with regs.flags := result.2 } result.1 target

/-- Goes on at `target` if the condition holds. -/
def jump (cpu : Cpu) (condition : Option Condition) (target : UInt16) : Effect :=
  if cpu.regs.allows condition then
    { cpu := { cpu with regs.pc := target }, taken := condition.isSome }
  else { cpu }

/-- Goes on at `target`, with the program counter on the stack. -/
def enter (cpu : Cpu) (target : UInt16) : Effect :=
  let (regs, writes) := cpu.regs.push cpu.regs.pc
  { cpu := { cpu with regs := { regs with pc := target } }, writes }

/-- Goes on at the word on top of the stack. -/
def leave (read : UInt16 → UInt8) (cpu : Cpu) : Cpu :=
  let target := cpu.regs.top read
  { cpu with regs := { cpu.regs.drop with pc := target } }

/-- Executes an instruction that the program counter stands behind. -/
def execute (read : UInt16 → UInt8) (cpu : Cpu) (i : Instruction) : Effect :=
  let r := cpu.regs
  match i with
  | .nop | .stop | .unassigned _ => { cpu }
  | .halt => { cpu := { cpu with halted := true } }
  | .disableInterrupts => { cpu := { cpu with ime := false } }
  | .enableInterrupts => { cpu := { cpu with ime := true } }
  | .loadPair p value => cpu.become (r.setPair value p)
  | .storeSp address =>
    { cpu, writes := [(address, lowByte r.sp), (address + 1, highByte r.sp)] }
  | .addPair p =>
    let (value, flags) := Alu.addWords r.hl (r.pair p) r.flags
    cpu.become { r.setHL value with flags }
  | .incrementPair p => cpu.become (r.setPair (r.pair p + 1) p)
  | .decrementPair p => cpu.become (r.setPair (r.pair p - 1) p)
  | .storeThrough p =>
    { cpu := { cpu with regs := r.movePointer p }, writes := [(r.pointer p, r.a)] }
  | .loadThrough p => cpu.become { r.movePointer p with a := read (r.pointer p) }
  | .increment o => cpu.storeResult (Alu.increment (r.operand read o) r.flags) o
  | .decrement o => cpu.storeResult (Alu.decrement (r.operand read o) r.flags) o
  | .loadImmediate o value => cpu.store value o
  | .load target source => cpu.store (r.operand read source) target
  | .adjust operation => cpu.become (r.adjust operation)
  | .arithmetic operation o => cpu.become (r.arithmetic operation (r.operand read o))
  | .arithmeticImmediate operation value => cpu.become (r.arithmetic operation value)
  | .jumpRelative condition offset => cpu.jump condition (r.pc + signExtend offset)
  | .jump condition target => cpu.jump condition target
  | .jumpHL => cpu.become { r with pc := r.hl }
  | .call condition target =>
    if r.allows condition then { cpu.enter target with taken := condition.isSome }
    else { cpu }
  | .ret condition =>
    if r.allows condition then { cpu := cpu.leave read, taken := condition.isSome }
    else { cpu }
  | .reti => { cpu := { cpu.leave read with ime := true } }
  | .restart slot => cpu.enter (restartAddress slot)
  | .push p =>
    let (regs, writes) := r.push (r.stackPair p)
    { cpu := { cpu with regs }, writes }
  | .pop p => cpu.become (r.drop.setStackPair (r.top read) p)
  | .storeHigh offset => { cpu, writes := [(highAddress offset, r.a)] }
  | .loadHigh offset => cpu.become { r with a := read (highAddress offset) }
  | .storeHighC => { cpu, writes := [(highAddress r.c, r.a)] }
  | .loadHighC => cpu.become { r with a := read (highAddress r.c) }
  | .storeAt address => { cpu, writes := [(address, r.a)] }
  | .loadAt address => cpu.become { r with a := read address }
  | .addSp offset =>
    let (sp, flags) := Alu.addSigned r.sp offset
    cpu.become { r with sp, flags }
  | .loadHLFromSp offset =>
    let (value, flags) := Alu.addSigned r.sp offset
    cpu.become { r.setHL value with flags }
  | .loadSpFromHL => cpu.become { r with sp := r.hl }
  | .rotate operation o => cpu.storeResult (r.rotated (r.operand read o) operation) o
  | .testBit n o => cpu.become { r with flags := Alu.testBit n (r.operand read o) r.flags }
  | .resetBit n o => cpu.store (r.operand read o &&& ~~~Alu.bitMask n) o
  | .setBit n o => cpu.store (r.operand read o ||| Alu.bitMask n) o

end Cpu
end Handheld
