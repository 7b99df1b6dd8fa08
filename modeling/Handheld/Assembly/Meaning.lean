import Handheld.Assembly.Statement
import Handheld.Cpu.Execute

/-!
# The meaning of statements

What a statement does to the CPU and to the bus, told by its text alone.  A
statement stands for nothing unless its mnemonic goes together with its terms.

As for an instruction, the program counter is expected behind the statement,
and all reads see the bus as it was before.

Pairs, the flag register and the stack are told by bytes here: the eight registers,
the four flags by their masks, and what lies at the stack pointer.
-/

namespace Handheld.Assembly

/-- What executing a statement comes to. -/
structure Outcome where
  cpu : Cpu
  /-- The bytes to be written to the bus, in order. -/
  writes : List (UInt16 × UInt8) := []

/-! ## Terms -/

namespace Term

/-- The address of a place in memory. -/
def address? (r : Registers) : Term → Option UInt16
  | atBC => some (Handheld.word r.b r.c)
  | atDE => some (Handheld.word r.d r.e)
  | atHL | atHLUp | atHLDown => some (Handheld.word r.h r.l)
  | atHighC => some (0xFF00 + r.c.toUInt16)
  | memory address => some address
  | _ => none

/-- The byte that a term stands for. -/
def byte? (read : UInt16 → UInt8) (r : Registers) : Term → Option UInt8
  | a => some r.a
  | b => some r.b
  | c => some r.c
  | d => some r.d
  | e => some r.e
  | h => some r.h
  | l => some r.l
  | byte value => some value
  | t => (t.address? r).map read

/-- The byte of F: the four flags in its upper half. -/
def flagByte (flags : Flags) : UInt8 :=
  (if flags.zero then 0x80 else 0) ||| (if flags.subtract then 0x40 else 0) |||
    (if flags.half then 0x20 else 0) ||| (if flags.carry then 0x10 else 0)

/-- The word that a term stands for. -/
def word? (r : Registers) : Term → Option UInt16
  | af => some (Handheld.word r.a (flagByte r.flags))
  | bc => some (Handheld.word r.b r.c)
  | de => some (Handheld.word r.d r.e)
  | hl => some (Handheld.word r.h r.l)
  | sp => some r.sp
  | word value => some value
  | _ => none

/-- Puts a byte where a term says. -/
def putByte? (cpu : Cpu) (value : UInt8) : Term → Option Outcome
  | a => some { cpu := { cpu with regs.a := value } }
  | b => some { cpu := { cpu with regs.b := value } }
  | c => some { cpu := { cpu with regs.c := value } }
  | d => some { cpu := { cpu with regs.d := value } }
  | e => some { cpu := { cpu with regs.e := value } }
  | h => some { cpu := { cpu with regs.h := value } }
  | l => some { cpu := { cpu with regs.l := value } }
  | t => (t.address? cpu.regs).map fun address => { cpu, writes := [(address, value)] }

/-- Puts a word in H and L. -/
def putHL (r : Registers) (value : UInt16) : Registers :=
  { r with h := highByte value, l := lowByte value }

/-- Puts a word where a term says.  Of the low byte for AF the upper half is kept, as
flags. -/
def putWord? (r : Registers) (value : UInt16) : Term → Option Registers
  | af => some { r with
      a := highByte value
      flags := {
        zero := lowByte value &&& 0x80 != 0
        subtract := lowByte value &&& 0x40 != 0
        half := lowByte value &&& 0x20 != 0
        carry := lowByte value &&& 0x10 != 0 } }
  | bc => some { r with b := highByte value, c := lowByte value }
  | de => some { r with d := highByte value, e := lowByte value }
  | hl => some (putHL r value)
  | sp => some { r with sp := value }
  | _ => none

/-- Moves HL by one behind a place that says so. -/
def move (r : Registers) : Term → Registers
  | atHLUp => putHL r (Handheld.word r.h r.l + 1)
  | atHLDown => putHL r (Handheld.word r.h r.l - 1)
  | _ => r

/-- The number of a bit. -/
def bit? : Term → Option (Fin 8)
  | number (.ofNat n) => if h : n < 8 then some ⟨n, h⟩ else none
  | _ => none

/-- Whether a condition holds. -/
def holds? (flags : Flags) : Term → Option Bool
  | nz => some !flags.zero
  | z => some flags.zero
  | nc => some !flags.carry
  | c => some flags.carry
  | _ => none

end Term

/-! ## Operations -/

namespace Outcome

variable (read : UInt16 → UInt8) (cpu : Cpu)

/-- Changed registers and nothing else. -/
def ofRegisters (regs : Registers) : Outcome :=
  { cpu := { cpu with regs } }

/-- A result in the accumulator. -/
def inA (result : UInt8 × Flags) : Outcome :=
  ofRegisters cpu { cpu.regs with a := result.1, flags := result.2 }

/-- A result in the accumulator, the zero flag cleared. -/
def inANonzero (result : UInt8 × Flags) : Outcome :=
  inA cpu (result.1, { result.2 with zero := false })

/-- A word is copied from the source to the target. -/
def copyWord? (target source : Term) : Option Outcome := do
  let value ← source.word? cpu.regs
  let regs ← target.putWord? cpu.regs value
  return ofRegisters cpu regs

/-- A byte is copied from the source to the target; then HL moves if one of the
two says so. -/
def copyByte? (target source : Term) : Option Outcome := do
  let value ← source.byte? read cpu.regs
  let o ← target.putByte? cpu value
  return { o with cpu.regs := source.move (target.move o.cpu.regs) }

/-- The source is copied to the target.  SP is copied to memory low byte first,
and to HL with a displacement. -/
def load? : (target source : Term) → Option Outcome
  | .memory address, .sp =>
    some { cpu, writes := [(address, lowByte cpu.regs.sp), (address + 1, highByte cpu.regs.sp)] }
  | .hl, .spPlus e =>
    let (value, flags) := Alu.addSigned cpu.regs.sp (.ofInt e)
    some (ofRegisters cpu { Term.putHL cpu.regs value with flags })
  | target, source => copyByte? read cpu target source <|> copyWord? cpu target source

/-- An operation on the accumulator and the byte that a term stands for. -/
def compute? (operation : UInt8 → UInt8 → UInt8 × Flags) (t : Term) : Option Outcome :=
  (t.byte? read cpu.regs).map fun value => inA cpu (operation cpu.regs.a value)

/-- An operation on a byte, put back where it was. -/
def changeByte? (operation : UInt8 → UInt8 × Flags) (t : Term) : Option Outcome := do
  let value ← t.byte? read cpu.regs
  t.putByte? { cpu with regs.flags := (operation value).2 } (operation value).1

/-- An operation on a word, put back where it was. -/
def changeWord? (operation : UInt16 → UInt16) (t : Term) : Option Outcome := do
  let value ← t.word? cpu.regs
  let regs ← t.putWord? cpu.regs (operation value)
  return ofRegisters cpu regs

/-- An operation on a byte and one bit of it, put back where it was. -/
def changeBit? (operation : UInt8 → Fin 8 → UInt8) (n t : Term) : Option Outcome := do
  let n ← n.bit?
  let value ← t.byte? read cpu.regs
  t.putByte? cpu (operation value n)

/-- The flags that a test of a bit leaves. -/
def testBit? (n t : Term) : Option Outcome := do
  let n ← n.bit?
  let value ← t.byte? read cpu.regs
  return ofRegisters cpu { cpu.regs with flags := Alu.testBit n value cpu.regs.flags }

/-- Execution goes on at an address. -/
def goTo (target : UInt16) : Outcome :=
  ofRegisters cpu { cpu.regs with pc := target }

/-- A word goes on the stack, which grows downwards: the high byte first, the low byte
below it. -/
def push (value : UInt16) : Outcome where
  cpu := { cpu with regs.sp := cpu.regs.sp - 2 }
  writes := [(cpu.regs.sp - 1, highByte value), (cpu.regs.sp - 2, lowByte value)]

/-- The word on top of the stack. -/
def top : UInt16 :=
  word (read (cpu.regs.sp + 1)) (read cpu.regs.sp)

/-- Execution goes on at an address, with the program counter on the stack. -/
def enter (target : UInt16) : Outcome :=
  { push cpu cpu.regs.pc with cpu.regs.pc := target }

/-- Execution goes on at the word on top of the stack. -/
def leave : Outcome :=
  ofRegisters cpu { cpu.regs with sp := cpu.regs.sp + 2, pc := top read cpu }

/-- Happens if a condition holds. -/
def onlyIf? (condition : Term) (o : Outcome) : Option Outcome :=
  (condition.holds? cpu.regs.flags).map fun holds => if holds then o else { cpu }

/-- A transfer of control to an address, with a condition before it or not. -/
def transfer? (go : UInt16 → Outcome) : List Term → Option Outcome
  | [.word target] => some (go target)
  | [condition, .word target] => onlyIf? cpu condition (go target)
  | _ => none

end Outcome

/-! ## Statements -/

namespace Statement

open Outcome

/-- What a statement comes to. -/
def outcome? (s : Statement) (read : UInt16 → UInt8) (cpu : Cpu) : Option Outcome :=
  let r := cpu.regs
  let carry := r.flags.carry
  match s.mnemonic, s.terms with
  | .nop, [] | .stop, [] | .db, [.byte _] => some { cpu }
  | .halt, [] => some { cpu := { cpu with halted := true } }
  | .di, [] => some { cpu := { cpu with ime := false } }
  | .ei, [] => some { cpu := { cpu with ime := true } }
  | .ld, [target, source] | .ldh, [target, source] => load? read cpu target source
  | .push, [t] => (t.word? r).map (push cpu)
  | .pop, [t] =>
    (t.putWord? { r with sp := r.sp + 2 } (top read cpu)).map (ofRegisters cpu)
  | .add, [.a, t] => compute? read cpu Alu.add t
  | .add, [.hl, t] => do
    let (value, flags) := Alu.addWords (word r.h r.l) (← t.word? r) r.flags
    return ofRegisters cpu { Term.putHL r value with flags }
  | .add, [.sp, .number n] =>
    let (sp, flags) := Alu.addSigned r.sp (.ofInt n)
    some (ofRegisters cpu { r with sp, flags })
  | .adc, [.a, t] => compute? read cpu (Alu.addWithCarry · · carry) t
  | .sub, [t] => compute? read cpu Alu.subtract t
  | .sbc, [.a, t] => compute? read cpu (Alu.subtractWithCarry · · carry) t
  | .and, [t] => compute? read cpu Alu.and t
  | .xor, [t] => compute? read cpu Alu.xor t
  | .or, [t] => compute? read cpu Alu.or t
  | .cp, [t] => compute? read cpu Alu.compare t
  | .inc, [t] =>
    changeByte? read cpu (Alu.increment · r.flags) t <|> changeWord? cpu (· + 1) t
  | .dec, [t] =>
    changeByte? read cpu (Alu.decrement · r.flags) t <|> changeWord? cpu (· - 1) t
  | .rlca, [] => some (inANonzero cpu (Alu.rotateLeftCircular r.a))
  | .rrca, [] => some (inANonzero cpu (Alu.rotateRightCircular r.a))
  | .rla, [] => some (inANonzero cpu (Alu.rotateLeft r.a carry))
  | .rra, [] => some (inANonzero cpu (Alu.rotateRight r.a carry))
  | .daa, [] => some (inA cpu (Alu.decimalAdjust r.a r.flags))
  | .cpl, [] => some (inA cpu (~~~r.a, { r.flags with subtract := true, half := true }))
  | .scf, [] => some (inA cpu (r.a, { zero := r.flags.zero, carry := true }))
  | .ccf, [] => some (inA cpu (r.a, { zero := r.flags.zero, carry := !carry }))
  | .rlc, [t] => changeByte? read cpu Alu.rotateLeftCircular t
  | .rrc, [t] => changeByte? read cpu Alu.rotateRightCircular t
  | .rl, [t] => changeByte? read cpu (Alu.rotateLeft · carry) t
  | .rr, [t] => changeByte? read cpu (Alu.rotateRight · carry) t
  | .sla, [t] => changeByte? read cpu Alu.shiftLeft t
  | .sra, [t] => changeByte? read cpu Alu.shiftRightArithmetic t
  | .swap, [t] => changeByte? read cpu Alu.swapDigits t
  | .srl, [t] => changeByte? read cpu Alu.shiftRight t
  | .bit, [n, t] => testBit? read cpu n t
  | .res, [n, t] => changeBit? read cpu (fun value n => value &&& ~~~Alu.bitMask n) n t
  | .set, [n, t] => changeBit? read cpu (fun value n => value ||| Alu.bitMask n) n t
  | .jp, [.hl] => some (goTo cpu (word r.h r.l))
  | .jr, terms | .jp, terms => transfer? cpu (goTo cpu) terms
  | .call, terms => transfer? cpu (enter cpu) terms
  | .ret, [] => some (leave read cpu)
  | .ret, [condition] => onlyIf? cpu condition (leave read cpu)
  | .reti, [] => some { leave read cpu with cpu.ime := true }
  | .rst, [.byte slot] => some (enter cpu slot.toUInt16)
  | _, _ => none

/-! ## Transfers of control -/

/-- Whether a statement may transfer control. -/
def transfers (s : Statement) : Bool :=
  s.mnemonic ∈ [.jr, .jp, .call, .ret, .reti, .rst]

/-- The condition of a conditional transfer. -/
def condition? (s : Statement) : Option Term :=
  match s.mnemonic, s.terms with
  | .jr, [condition, _] | .jp, [condition, _] | .call, [condition, _] | .ret, [condition] =>
    some condition
  | _, _ => none

/-- Whether a statement transfers control under some flags: always without a
condition. -/
def taken (s : Statement) (flags : Flags) : Bool :=
  s.transfers && s.condition?.all fun condition => condition.holds? flags == some true

/-- The address that a statement shows as its target. -/
def target? (s : Statement) : Option UInt16 :=
  match s.mnemonic, s.terms.getLast? with
  | .jr, some (.word target) | .jp, some (.word target) | .call, some (.word target) =>
    some target
  | .rst, some (.byte slot) => some slot.toUInt16
  | _, _ => none

end Statement
end Handheld.Assembly
