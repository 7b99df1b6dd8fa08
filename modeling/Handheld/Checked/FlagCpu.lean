import Handheld.Checked.FlagByte
import Handheld.Cpu.Execute

/-!
# The CPU with the flags as one byte

Here the register F is a byte like the others, and the flags are its bits.  Bits 3
to 0 do not exist, so whatever is written to F loses them.  An instruction that
neither looks at F nor changes it is executed as by a CPU with four flags.
-/

namespace Handheld.Checked

/-- A CPU with the register F as a byte.  The flags of `cpu` are not used. -/
structure FlagCpu where
  cpu : Cpu
  f : UInt8
  deriving DecidableEq

/-- What executing an instruction comes to. -/
structure FlagEffect where
  cpu : FlagCpu
  writes : List (UInt16 × UInt8) := []
  taken : Bool := false

namespace FlagCpu

/-! ## The register F -/

/-- Writes F; only the bits of the flags are kept. -/
def setF (c : FlagCpu) (value : UInt8) : FlagCpu :=
  { c with f := value &&& 0xF0 }

/-- The pair AF. -/
def af (c : FlagCpu) : UInt16 :=
  word c.cpu.regs.a c.f

/-- Writes the pair AF. -/
def setAF (c : FlagCpu) (value : UInt16) : FlagCpu :=
  setF { c with cpu.regs.a := highByte value } (lowByte value)

/-- Whether F and `mask` share a set bit. -/
def test (c : FlagCpu) (mask : UInt8) : Bool :=
  c.f &&& mask != 0

/-- Whether a condition holds. -/
def holds (c : FlagCpu) : Condition → Bool
  | .notZero => !c.test 0x80
  | .zero => c.test 0x80
  | .notCarry => !c.test 0x10
  | .carry => c.test 0x10

/-- Whether a transfer of control happens: without a condition always. -/
def allows (c : FlagCpu) : Option Condition → Bool
  | none => true
  | some condition => c.holds condition

/-! ## Instructions -/

/-- An effect on everything besides F. -/
def keepF (c : FlagCpu) (effect : Effect) : FlagEffect where
  cpu := { c with cpu := effect.cpu }
  writes := effect.writes
  taken := effect.taken

/-- Changed registers besides F and nothing else. -/
def become (c : FlagCpu) (regs : Registers) : FlagEffect :=
  c.keepF (c.cpu.become regs)

/-- Puts a result into an operand and its flags into F. -/
def storeResult (c : FlagCpu) (result : UInt8 × UInt8) (target : Operand) : FlagEffect :=
  (c.setF result.2).keepF (c.cpu.store result.1 target)

/-- Puts a result into the accumulator and its flags into F. -/
def setResult (c : FlagCpu) (result : UInt8 × UInt8) : FlagCpu :=
  setF { c with cpu.regs.a := result.1 } result.2

/-- Rotates the accumulator.  The short forms always clear the zero flag. -/
def rotateA (c : FlagCpu) (rotation : Rotation) : FlagCpu :=
  let (a, f) := FlagByte.rotate c.cpu.regs.a c.f rotation
  c.setResult (a, f &&& ~~~0x80)

/-- Applies an adjustment to the accumulator and F. -/
def adjust (c : FlagCpu) : Adjustment → FlagCpu
  | .leftCircular => c.rotateA .leftCircular
  | .rightCircular => c.rotateA .rightCircular
  | .left => c.rotateA .left
  | .right => c.rotateA .right
  | .decimal => c.setResult (FlagByte.decimalAdjust c.cpu.regs.a c.f)
  | .complement => c.setResult (~~~c.cpu.regs.a, c.f ||| 0x40 ||| 0x20)
  | .setCarry => c.setF ((c.f &&& 0x80) ||| 0x10)
  | .flipCarry => c.setF ((c.f &&& 0x80) ||| ((c.f ^^^ 0x10) &&& 0x10))

/-- Goes on at `target` if the condition holds. -/
def jump (c : FlagCpu) (condition : Option Condition) (target : UInt16) : FlagEffect :=
  if c.allows condition then
    { cpu := { c with cpu.regs.pc := target }, taken := condition.isSome }
  else { cpu := c }

/-- Executes an instruction that the program counter stands behind. -/
def execute (read : UInt16 → UInt8) (c : FlagCpu) (i : Instruction) : FlagEffect :=
  let r := c.cpu.regs
  match i with
  | .addPair p =>
    let (value, f) := FlagByte.addWords r.hl (r.pair p) c.f
    (c.setF f).become (r.setHL value)
  | .increment o => c.storeResult (FlagByte.increment (r.operand read o) c.f) o
  | .decrement o => c.storeResult (FlagByte.decrement (r.operand read o) c.f) o
  | .adjust operation => { cpu := c.adjust operation }
  | .arithmetic operation o =>
    { cpu := c.setResult (FlagByte.compute r.a (r.operand read o) c.f operation) }
  | .arithmeticImmediate operation value =>
    { cpu := c.setResult (FlagByte.compute r.a value c.f operation) }
  | .jumpRelative condition offset => c.jump condition (r.pc + signExtend offset)
  | .jump condition target => c.jump condition target
  | .call condition target =>
    if c.allows condition then c.keepF { c.cpu.enter target with taken := condition.isSome }
    else { cpu := c }
  | .ret condition =>
    if c.allows condition then
      c.keepF { cpu := c.cpu.leave read, taken := condition.isSome }
    else { cpu := c }
  | .push .af =>
    let (regs, writes) := r.push c.af
    { cpu := { c with cpu.regs := regs }, writes }
  | .pop .af => { cpu := setAF { c with cpu.regs := r.drop } (r.top read) }
  | .addSp offset =>
    let (sp, f) := FlagByte.addSigned r.sp offset
    (c.setF f).become { r with sp }
  | .loadHLFromSp offset =>
    let (value, f) := FlagByte.addSigned r.sp offset
    (c.setF f).become (r.setHL value)
  | .rotate operation o =>
    c.storeResult (FlagByte.rotate (r.operand read o) c.f operation) o
  | .testBit n o => { cpu := c.setF (FlagByte.testBit n (r.operand read o) c.f) }
  | i => c.keepF (c.cpu.execute read i)

/-- The CPU at power-on. -/
def powerOn : FlagCpu where
  cpu := .powerOn
  f := 0

/-- The CPU as a boot ROM leaves it: the pair AF is 01B0. -/
def postBoot : FlagCpu :=
  setAF { cpu := { regs := { Registers.postBoot with flags := {} } }, f := 0 } 0x01B0

end FlagCpu
end Handheld.Checked
