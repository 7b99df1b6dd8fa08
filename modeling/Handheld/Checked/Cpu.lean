import Handheld.Checked.Bus
import Handheld.Checked.Timing
import Handheld.Machine.Basic

/-!
# The machine with checked arithmetic

A CPU that works by the opcode alone: the opcode picks an arm of the execution,
and its bits number the operands there.  Bytes of an instruction are fetched
when the arm needs them, so the program counter moves while the instruction is
executed, and the bus is written as the arm goes along.

A run changes the machine step by step, and has no result where an operation
meets a fault.
-/

namespace Handheld.Checked

/-- A computation on the machine. -/
abbrev Run := StateT Machine Result

/-! ## Access to the machine -/

/-- The registers. -/
def registers : Run Registers := fun m => .ok (m.cpu.regs, m)

/-- Changes the CPU. -/
def changeCpu (f : Cpu → Cpu) : Run Unit := fun m => .ok ((), { m with cpu := f m.cpu })

/-- Changes the registers. -/
def change (f : Registers → Registers) : Run Unit :=
  changeCpu fun cpu => { cpu with regs := f cpu.regs }

/-- Changes the flags. -/
def setFlags (flags : Flags) : Run Unit :=
  change fun r => { r with flags }

/-- Changes the program counter. -/
def setPc (pc : UInt16) : Run Unit :=
  change fun r => { r with pc }

/-- Reads the byte at an address. -/
def readByte (address : UInt16) : Run UInt8 := fun m => do
  return (← read m.bus address, m)

/-- Writes the byte at an address. -/
def writeByte (address : UInt16) (value : UInt8) : Run Unit := fun m => do
  return ((), { m with bus := ← write m.bus address value })

/-- The byte at the program counter, which moves on. -/
def fetch : Run UInt8 := do
  let value ← readByte (← registers).pc
  change fun r => { r with pc := r.pc + 1 }
  return value

/-- The word at the program counter, which moves on. -/
def fetchWord : Run UInt16 := do
  let low ← fetch
  let high ← fetch
  return word high low

/-- Puts a word on the stack. -/
def push (value : UInt16) : Run Unit := do
  change fun r => { r with sp := r.sp - 1 }
  writeByte (← registers).sp (highByte value)
  change fun r => { r with sp := r.sp - 1 }
  writeByte (← registers).sp (lowByte value)

/-- Takes a word from the stack. -/
def pop : Run UInt16 := do
  let low ← readByte (← registers).sp
  change fun r => { r with sp := r.sp + 1 }
  let high ← readByte (← registers).sp
  change fun r => { r with sp := r.sp + 1 }
  return word high low

/-! ## Operands by their number -/

/-- Reads the eight-bit operand with a number. -/
def readOperand (index : UInt8) : Run UInt8 := do
  let r ← registers
  match (index &&& 7).toNat with
  | 0 => return r.b
  | 1 => return r.c
  | 2 => return r.d
  | 3 => return r.e
  | 4 => return r.h
  | 5 => return r.l
  | 6 => readByte r.hl
  | _ => return r.a

/-- Writes the eight-bit operand with a number. -/
def writeOperand (index value : UInt8) : Run Unit := do
  match (index &&& 7).toNat with
  | 0 => change fun r => { r with b := value }
  | 1 => change fun r => { r with c := value }
  | 2 => change fun r => { r with d := value }
  | 3 => change fun r => { r with e := value }
  | 4 => change fun r => { r with h := value }
  | 5 => change fun r => { r with l := value }
  | 6 => writeByte (← registers).hl value
  | _ => change fun r => { r with a := value }

/-- The pair with a number. -/
def readPair (r : Registers) (index : UInt8) : UInt16 :=
  match (index &&& 3).toNat with
  | 0 => r.bc
  | 1 => r.de
  | 2 => r.hl
  | _ => r.sp

/-- Writes the pair with a number. -/
def writePair (r : Registers) (index : UInt8) (value : UInt16) : Registers :=
  match (index &&& 3).toNat with
  | 0 => r.setBC value
  | 1 => r.setDE value
  | 2 => r.setHL value
  | _ => { r with sp := value }

/-- The stack pair with a number. -/
def readStackPair (r : Registers) (index : UInt8) : UInt16 :=
  if index &&& 3 = 3 then r.af else readPair r index

/-- Writes the stack pair with a number. -/
def writeStackPair (r : Registers) (index : UInt8) (value : UInt16) : Registers :=
  if index &&& 3 = 3 then r.setAF value else writePair r index value

/-- Whether the condition with a number holds. -/
def condition (r : Registers) (index : UInt8) : Bool :=
  match (index &&& 3).toNat with
  | 0 => !r.flags.zero
  | 1 => r.flags.zero
  | 2 => !r.flags.carry
  | _ => r.flags.carry

/-! ## Operations by their number -/

/-- Sum of two bytes and a carry, added up as words. -/
def addWithCarry (a b : UInt8) (carry : Bool) : Result (UInt8 × Flags) := do
  let sum ← add .word (← add .word a.toNat b.toNat) carry.toNat
  return (sum.toUInt8, (Alu.addWithCarry a b carry).2)

/-- The operation on the accumulator with a number. -/
def arithmetic (index value : UInt8) : Run Unit := do
  let r ← registers
  let (a, flags) ←
    match (index &&& 7).toNat with
    | 0 => pure (Alu.add r.a value)
    | 1 => addWithCarry r.a value r.flags.carry
    | 2 => pure (Alu.subtract r.a value)
    | 3 => pure (Alu.subtractWithCarry r.a value r.flags.carry)
    | 4 => pure (Alu.and r.a value)
    | 5 => pure (Alu.xor r.a value)
    | 6 => pure (Alu.or r.a value)
    | _ => pure (Alu.compare r.a value)
  change fun r => { r with a, flags }

/-- The rotation with a number. -/
def rotated (index value : UInt8) (carry : Bool) : UInt8 × Flags :=
  match (index &&& 7).toNat with
  | 0 => Alu.rotateLeftCircular value
  | 1 => Alu.rotateRightCircular value
  | 2 => Alu.rotateLeft value carry
  | 3 => Alu.rotateRight value carry
  | 4 => Alu.shiftLeft value
  | 5 => Alu.shiftRightArithmetic value
  | 6 => Alu.swapDigits value
  | _ => Alu.shiftRight value

/-- The byte with only one bit set. -/
def bitMask (bit : UInt8) : Result UInt8 := do
  return (← shiftLeft .byte 1 bit.toNat).toUInt8

/-! ## Arms of the execution -/

/-- The arms, each with the opcodes that take it. -/
inductive Arm where
  | nop | loadPair | storeA | storeAMoving | loadA | loadAMoving
  | incrementPair | decrementPair | increment | decrement | loadByte | rotateA
  | storeSp | addHL | stop | jumpRelative | jumpRelativeIf
  | decimal | complement | setCarry | flipCarry | halt | load
  | arithmetic | arithmeticByte | returnIf | return | returnEnabling
  | jumpIf | jump | jumpHL | callIf | call | pop | push | restart | extended
  | storeHigh | loadHigh | storeHighC | loadHighC | storeAt | loadAt
  | addSp | loadHLFromSp | loadSpFromHL | disable | enable | unassigned
  deriving DecidableEq, Repr

/-- The arm that an opcode takes. -/
def Arm.of (opcode : UInt8) : Arm :=
  match opcode with
  | 0x00 => nop
  | 0x01 | 0x11 | 0x21 | 0x31 => loadPair
  | 0x02 | 0x12 => storeA
  | 0x22 | 0x32 => storeAMoving
  | 0x0A | 0x1A => loadA
  | 0x2A | 0x3A => loadAMoving
  | 0x03 | 0x13 | 0x23 | 0x33 => incrementPair
  | 0x0B | 0x1B | 0x2B | 0x3B => decrementPair
  | 0x04 | 0x0C | 0x14 | 0x1C | 0x24 | 0x2C | 0x34 | 0x3C => increment
  | 0x05 | 0x0D | 0x15 | 0x1D | 0x25 | 0x2D | 0x35 | 0x3D => decrement
  | 0x06 | 0x0E | 0x16 | 0x1E | 0x26 | 0x2E | 0x36 | 0x3E => loadByte
  | 0x07 | 0x0F | 0x17 | 0x1F => rotateA
  | 0x08 => storeSp
  | 0x09 | 0x19 | 0x29 | 0x39 => addHL
  | 0x10 => stop
  | 0x18 => jumpRelative
  | 0x20 | 0x28 | 0x30 | 0x38 => jumpRelativeIf
  | 0x27 => decimal
  | 0x2F => complement
  | 0x37 => setCarry
  | 0x3F => flipCarry
  | 0x76 => halt
  | 0xC6 | 0xCE | 0xD6 | 0xDE | 0xE6 | 0xEE | 0xF6 | 0xFE => arithmeticByte
  | 0xC0 | 0xC8 | 0xD0 | 0xD8 => returnIf
  | 0xC9 => .return
  | 0xD9 => returnEnabling
  | 0xC2 | 0xCA | 0xD2 | 0xDA => jumpIf
  | 0xC3 => jump
  | 0xE9 => jumpHL
  | 0xC4 | 0xCC | 0xD4 | 0xDC => callIf
  | 0xCD => call
  | 0xC1 | 0xD1 | 0xE1 | 0xF1 => pop
  | 0xC5 | 0xD5 | 0xE5 | 0xF5 => push
  | 0xC7 | 0xCF | 0xD7 | 0xDF | 0xE7 | 0xEF | 0xF7 | 0xFF => restart
  | 0xCB => extended
  | 0xE0 => storeHigh
  | 0xF0 => loadHigh
  | 0xE2 => storeHighC
  | 0xF2 => loadHighC
  | 0xEA => storeAt
  | 0xFA => loadAt
  | 0xE8 => addSp
  | 0xF8 => loadHLFromSp
  | 0xF9 => loadSpFromHL
  | 0xF3 => disable
  | 0xFB => enable
  | _ =>
    if 0x40 ≤ opcode ∧ opcode ≤ 0x7F then load
    else if 0x80 ≤ opcode ∧ opcode ≤ 0xBF then arithmetic
    else unassigned

/-- HL moved on or back. -/
def moved (r : Registers) (up : Bool) : Registers :=
  r.setHL (if up then r.hl + 1 else r.hl - 1)

/-- Executes an opcode on an arm, the one behind CB excepted.  Answers whether
a condition held. -/
def Arm.run (arm : Arm) (opcode : UInt8) : Run Bool := do
  match arm with
  | nop | extended | unassigned => return false
  | loadPair =>
    let value ← fetchWord
    change fun r => writePair r (opcode >>> 4) value
    return false
  | storeA =>
    let r ← registers
    writeByte (readPair r (opcode >>> 4)) r.a
    return false
  | storeAMoving =>
    let r ← registers
    writeByte r.hl r.a
    change (moved · (opcode == 0x22))
    return false
  | loadA =>
    let a ← readByte (readPair (← registers) (opcode >>> 4))
    change fun r => { r with a }
    return false
  | loadAMoving =>
    let a ← readByte (← registers).hl
    change fun r => { moved r (opcode == 0x2A) with a }
    return false
  | incrementPair =>
    change fun r => writePair r (opcode >>> 4) (readPair r (opcode >>> 4) + 1)
    return false
  | decrementPair =>
    change fun r => writePair r (opcode >>> 4) (readPair r (opcode >>> 4) - 1)
    return false
  | increment =>
    let value ← readOperand (opcode >>> 3)
    let (result, flags) := Alu.increment value (← registers).flags
    writeOperand (opcode >>> 3) result
    setFlags flags
    return false
  | decrement =>
    let value ← readOperand (opcode >>> 3)
    let (result, flags) := Alu.decrement value (← registers).flags
    writeOperand (opcode >>> 3) result
    setFlags flags
    return false
  | loadByte =>
    let value ← fetch
    writeOperand (opcode >>> 3) value
    return false
  | rotateA =>
    change fun r =>
      let (a, flags) :=
        match opcode with
        | 0x07 => Alu.rotateLeftCircular r.a
        | 0x0F => Alu.rotateRightCircular r.a
        | 0x17 => Alu.rotateLeft r.a r.flags.carry
        | _ => Alu.rotateRight r.a r.flags.carry
      { r with a, flags := { flags with zero := false } }
    return false
  | storeSp =>
    let address ← fetchWord
    writeByte address (lowByte (← registers).sp)
    writeByte (address + 1) (highByte (← registers).sp)
    return false
  | addHL =>
    change fun r =>
      let (value, flags) := Alu.addWords r.hl (readPair r (opcode >>> 4)) r.flags
      { r.setHL value with flags }
    return false
  | stop =>
    let _ ← fetch
    return false
  | jumpRelative =>
    let offset ← fetch
    setPc ((← registers).pc + signExtend offset)
    return false
  | jumpRelativeIf =>
    let offset ← fetch
    if condition (← registers) (opcode >>> 3) then
      setPc ((← registers).pc + signExtend offset)
      return true
    else return false
  | decimal =>
    change fun r =>
      let (a, flags) := Alu.decimalAdjust r.a r.flags
      { r with a, flags }
    return false
  | complement =>
    change fun r =>
      { r with a := ~~~r.a, flags := { r.flags with subtract := true, half := true } }
    return false
  | setCarry =>
    change fun r => { r with flags := { zero := r.flags.zero, carry := true } }
    return false
  | flipCarry =>
    change fun r => { r with flags := { zero := r.flags.zero, carry := !r.flags.carry } }
    return false
  | halt =>
    changeCpu fun cpu => { cpu with halted := true }
    return false
  | load =>
    let value ← readOperand opcode
    writeOperand (opcode >>> 3) value
    return false
  | arithmetic =>
    let value ← readOperand opcode
    Checked.arithmetic (opcode >>> 3) value
    return false
  | arithmeticByte =>
    let value ← fetch
    Checked.arithmetic (opcode >>> 3) value
    return false
  | returnIf =>
    if condition (← registers) (opcode >>> 3) then
      let target ← Checked.pop
      setPc target
      return true
    else return false
  | .return =>
    let target ← Checked.pop
    setPc target
    return false
  | returnEnabling =>
    let target ← Checked.pop
    setPc target
    changeCpu fun cpu => { cpu with ime := true }
    return false
  | jumpIf =>
    let target ← fetchWord
    if condition (← registers) (opcode >>> 3) then
      setPc target
      return true
    else return false
  | jump =>
    let target ← fetchWord
    setPc target
    return false
  | jumpHL =>
    setPc (← registers).hl
    return false
  | callIf =>
    let target ← fetchWord
    if condition (← registers) (opcode >>> 3) then
      Checked.push (← registers).pc
      setPc target
      return true
    else return false
  | call =>
    let target ← fetchWord
    Checked.push (← registers).pc
    setPc target
    return false
  | pop =>
    let value ← Checked.pop
    change fun r => writeStackPair r (opcode >>> 4) value
    return false
  | push =>
    Checked.push (readStackPair (← registers) (opcode >>> 4))
    return false
  | restart =>
    Checked.push (← registers).pc
    setPc (opcode &&& 0x38).toUInt16
    return false
  | storeHigh =>
    let offset ← fetch
    writeByte (0xFF00 ||| offset.toUInt16) (← registers).a
    return false
  | loadHigh =>
    let offset ← fetch
    let a ← readByte (0xFF00 ||| offset.toUInt16)
    change fun r => { r with a }
    return false
  | storeHighC =>
    let r ← registers
    writeByte (0xFF00 ||| r.c.toUInt16) r.a
    return false
  | loadHighC =>
    let a ← readByte (0xFF00 ||| (← registers).c.toUInt16)
    change fun r => { r with a }
    return false
  | storeAt =>
    let address ← fetchWord
    writeByte address (← registers).a
    return false
  | loadAt =>
    let address ← fetchWord
    let a ← readByte address
    change fun r => { r with a }
    return false
  | addSp =>
    let offset ← fetch
    change fun r =>
      let (sp, flags) := Alu.addSigned r.sp offset
      { r with sp, flags }
    return false
  | loadHLFromSp =>
    let offset ← fetch
    change fun r =>
      let (value, flags) := Alu.addSigned r.sp offset
      { r.setHL value with flags }
    return false
  | loadSpFromHL =>
    change fun r => { r with sp := r.hl }
    return false
  | disable =>
    changeCpu fun cpu => { cpu with ime := false }
    return false
  | enable =>
    changeCpu fun cpu => { cpu with ime := true }
    return false

/-! ## Costs -/

/-- The costs of the opcodes, of conditional transfers when the condition
fails. -/
def baseCycles : Array Nat :=
  #[1, 3, 2, 2, 1, 1, 2, 1, 5, 2, 2, 2, 1, 1, 2, 1,
    1, 3, 2, 2, 1, 1, 2, 1, 3, 2, 2, 2, 1, 1, 2, 1,
    2, 3, 2, 2, 1, 1, 2, 1, 2, 2, 2, 2, 1, 1, 2, 1,
    2, 3, 2, 2, 3, 3, 3, 1, 2, 2, 2, 2, 1, 1, 2, 1,
    1, 1, 1, 1, 1, 1, 2, 1, 1, 1, 1, 1, 1, 1, 2, 1,
    1, 1, 1, 1, 1, 1, 2, 1, 1, 1, 1, 1, 1, 1, 2, 1,
    1, 1, 1, 1, 1, 1, 2, 1, 1, 1, 1, 1, 1, 1, 2, 1,
    2, 2, 2, 2, 2, 2, 1, 2, 1, 1, 1, 1, 1, 1, 2, 1,
    1, 1, 1, 1, 1, 1, 2, 1, 1, 1, 1, 1, 1, 1, 2, 1,
    1, 1, 1, 1, 1, 1, 2, 1, 1, 1, 1, 1, 1, 1, 2, 1,
    1, 1, 1, 1, 1, 1, 2, 1, 1, 1, 1, 1, 1, 1, 2, 1,
    1, 1, 1, 1, 1, 1, 2, 1, 1, 1, 1, 1, 1, 1, 2, 1,
    2, 3, 3, 4, 3, 3, 2, 4, 2, 4, 3, 0, 3, 6, 2, 4,
    2, 3, 3, 1, 3, 3, 2, 4, 2, 4, 3, 1, 3, 1, 2, 4,
    2, 3, 2, 1, 1, 3, 2, 4, 4, 1, 4, 1, 1, 1, 2, 4,
    3, 3, 2, 1, 1, 3, 2, 4, 3, 2, 4, 1, 1, 1, 2, 4]

/-- The costs of the opcodes behind CB: a memory operand costs two more. -/
def extendedCycles : Array Nat :=
  Array.ofFn (n := 256) fun opcode => if opcode.val % 8 = 6 then 4 else 2

/-- The costs of the opcodes whose condition held. -/
def takenCycles (opcode : UInt8) : Option Nat :=
  match opcode with
  | 0x20 | 0x28 | 0x30 | 0x38 => some 3
  | 0xC2 | 0xCA | 0xD2 | 0xDA => some 4
  | 0xC4 | 0xCC | 0xD4 | 0xDC => some 6
  | 0xC0 | 0xC8 | 0xD0 | 0xD8 => some 5
  | _ => none

/-! ## Steps -/

/-- Executes an opcode behind CB.  Answers its cost. -/
def executeExtended (opcode : UInt8) : Run Nat := do
  let target := opcode &&& 7
  let bit := (opcode >>> 3) &&& 7
  let value ← readOperand target
  let r ← registers
  if opcode ≤ 0x3F then
    let (result, flags) := rotated bit value r.flags.carry
    writeOperand target result
    setFlags flags
  else if opcode ≤ 0x7F then
    let mask ← bitMask bit
    setFlags { zero := value &&& mask == 0, half := true, carry := r.flags.carry }
  else if opcode ≤ 0xBF then
    let mask ← bitMask bit
    writeOperand target (value &&& ~~~mask)
  else
    let mask ← bitMask bit
    writeOperand target (value ||| mask)
  getArray extendedCycles opcode.toNat

/-- Executes an opcode that was fetched.  Answers its cost. -/
def execute (opcode : UInt8) : Run Nat := do
  let arm := Arm.of opcode
  if arm = .extended then executeExtended (← fetch)
  else
    let taken ← arm.run opcode
    let base ← getArray baseCycles opcode.toNat
    return if taken then (takenCycles opcode).getD base else base

/-- Executes the instruction at the program counter.  Answers its cost. -/
def executeNext : Run Nat := do
  execute (← fetch)

/-- Lets the timer run. -/
def runTimer (cycles : Nat) : Run Unit := fun m => do
  return ((), { m with bus := ← advanceBusTimer m.bus cycles })

/-- Turns to a pending interrupt.  Answers the cycles that serving it takes. -/
def serveInterrupts : Run Nat := fun m =>
  match m.pending with
  | none => return (0, m)
  | some i =>
    let woken := m.wake
    if m.cpu.ime then
      (do push m.cpu.regs.pc
          setPc i.vector
          return Machine.dispatchCycles : Run Nat)
        { woken with
          cpu.ime := false
          bus := { woken.bus with requests := i.clear woken.bus.requests } }
    else return (0, woken)

/-- Executes an instruction or lets a cycle pass.  Answers its cost. -/
def executeOrIdle : Run Nat := fun m =>
  if m.cpu.halted then return (Machine.idleCycles, m) else executeNext m

/-- Serves the interrupts, and lets the timer run for the cycles that this took.
Answers the cycles of the whole step, of which `cost` have passed before. -/
def serve (cost : Nat) : Run Nat := do
  let dispatch ← serveInterrupts
  if 0 < dispatch then
    runTimer dispatch
    add .double cost dispatch
  else return cost

/-- A step of CPU and timer.  Answers its cycles. -/
def stepCpu : Run Nat := do
  let cost ← executeOrIdle
  runTimer cost
  let cycles ← serve cost
  changeCpu fun cpu => { cpu with cycles := cpu.cycles + cycles.toUInt64 }
  return cycles

/-- Lets the screen run. -/
def runScreen (cycles : Nat) : Run Unit := fun m => do
  let (screen, raised, _) ← advance m.bus.screen cycles
  return ((), { m with bus := { m.bus with screen, requests := m.bus.requests ||| raised } })

/-- A step of the whole machine.  Answers its cycles. -/
def step : Run Nat := do
  let cycles ← stepCpu
  runScreen cycles
  return cycles

end Handheld.Checked
