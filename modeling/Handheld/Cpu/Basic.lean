import Handheld.Cpu.Registers
import Handheld.Text.Hex

/-!
# The state of the CPU
-/

namespace Handheld

/-- The state of the CPU. -/
structure Cpu where
  regs : Registers := {}
  /-- The machine cycles executed so far; the count wraps. -/
  cycles : UInt64 := 0
  /-- Whether the CPU waits for an interrupt. -/
  halted : Bool := false
  /-- Whether the CPU serves interrupts. -/
  ime : Bool := false
  deriving DecidableEq, Repr, Inhabited

namespace Cpu

/-- The CPU at power-on: all zero, about to execute the boot ROM. -/
def powerOn : Cpu := {}

/-- The CPU as a boot ROM leaves it to the cartridge. -/
def postBoot : Cpu := { regs := .postBoot }

open Text (hexWord) in
/-- The registers and the cycle count in one line. -/
def summary (cpu : Cpu) : String :=
  "AF:" ++ hexWord cpu.regs.af ++ " BC:" ++ hexWord cpu.regs.bc ++
    " DE:" ++ hexWord cpu.regs.de ++ " HL:" ++ hexWord cpu.regs.hl ++
    " PC:" ++ hexWord cpu.regs.pc ++ " SP:" ++ hexWord cpu.regs.sp ++
    " CY:" ++ toString cpu.cycles.toNat

end Cpu
end Handheld
