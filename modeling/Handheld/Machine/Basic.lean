import Handheld.Bus.Basic
import Handheld.Cpu.Execute
import Handheld.Instruction.Cost

/-!
# The machine

The CPU and the bus together, and how they step.  A step executes one
instruction, or lets one cycle pass while the CPU is halted; the timer runs
along; then an interrupt may be served, which takes five more cycles.  The
screen runs for all the cycles of the step.
-/

namespace Handheld

/-- The machine. -/
structure Machine where
  cpu : Cpu
  bus : Bus
  /-- Whether the machine starts with a boot ROM when it is reset. -/
  startsAtPowerOn : Bool := false

namespace Machine

/-- The machine as a boot ROM leaves it. -/
def postBoot : Machine where
  cpu := .postBoot
  bus := .postBoot

/-- The machine at power-on. -/
def powerOn : Machine where
  cpu := .powerOn
  bus := .powerOn
  startsAtPowerOn := true

/-- The machine started again.  It keeps the cartridge with its RAM, the boot
ROM, and the state of the buttons. -/
def reset (m : Machine) : Machine :=
  let fresh := if m.startsAtPowerOn then powerOn else postBoot
  let bus := { fresh.bus with joypad := { buttons := m.bus.joypad.buttons } }
  let bus := match m.bus.bootRom with
    | some boot => bus.installBoot boot
    | none => bus
  let bus := match m.bus.cartridge with
    | some c => bus.insert c.reset
    | none => bus
  { fresh with bus }

/-! ## Steps -/

/-- Cycles that pass in a step while the CPU is halted. -/
def idleCycles : Nat := 1

/-- Cycles that serving an interrupt takes. -/
def dispatchCycles : Nat := 5

/-- The instruction at the program counter. -/
def nextInstruction (m : Machine) : Instruction :=
  .decode m.bus.read m.cpu.regs.pc

/-- The CPU with its program counter behind the instruction. -/
def skip (cpu : Cpu) (i : Instruction) : Cpu :=
  { cpu with regs.pc := cpu.regs.pc + i.length.toUInt16 }

/-- Executes the instruction at the program counter.  Answers its cost. -/
def executeNext (m : Machine) : Machine × Nat :=
  let i := m.nextInstruction
  let effect := (skip m.cpu i).execute m.bus.read i
  ({ m with cpu := effect.cpu, bus := m.bus.writeAll effect.writes }, i.cost effect.taken)

/-- Executes an instruction or lets a cycle pass. -/
def executeOrIdle (m : Machine) : Machine × Nat :=
  if m.cpu.halted then (m, idleCycles) else m.executeNext

/-- Serves an interrupt: its request is withdrawn, no other interrupt is
served meanwhile, and the CPU goes on at its vector. -/
def dispatch (m : Machine) (i : Interrupt) : Machine :=
  let bus := { m.bus with requests := i.clear m.bus.requests }
  let effect := { m.cpu with ime := false }.enter i.vector
  { m with cpu := effect.cpu, bus := bus.writeAll effect.writes }

/-- The interrupt that the CPU turns to, if it is awake for one: a halted CPU
notices interrupts even when it does not serve them. -/
def pending (m : Machine) : Option Interrupt :=
  if m.cpu.ime || m.cpu.halted then Interrupt.nextPending m.bus.requests m.bus.enables
  else none

/-- Lets the timer run. -/
def runTimer (m : Machine) (cycles : Nat) : Machine :=
  { m with bus := m.bus.advanceTimer cycles }

/-- Wakes the CPU. -/
def wake (m : Machine) : Machine :=
  { m with cpu.halted := false }

/-- Turns to a pending interrupt: wakes the CPU, and serves the interrupt if
the CPU serves interrupts.  Answers the cycles that this takes. -/
def serveInterrupts (m : Machine) : Machine × Nat :=
  match m.pending with
  | none => (m, 0)
  | some i =>
    if m.cpu.ime then ((m.wake.dispatch i).runTimer dispatchCycles, dispatchCycles)
    else (m.wake, 0)

/-- Counts cycles. -/
def count (m : Machine) (cycles : Nat) : Machine :=
  { m with cpu.cycles := m.cpu.cycles + cycles.toUInt64 }

/-- A step of CPU and timer.  Answers its cycles. -/
def stepCpu (m : Machine) : Machine × Nat :=
  let (m, cost) := m.executeOrIdle
  let (m, extra) := (m.runTimer cost).serveInterrupts
  (m.count (cost + extra), cost + extra)

/-- A step of the whole machine.  Answers its cycles. -/
def step (m : Machine) : Machine × Nat :=
  let (m, cycles) := m.stepCpu
  ({ m with bus := m.bus.advanceScreen cycles }, cycles)

/-- The pictures completed so far. -/
def frameCount (m : Machine) : Nat :=
  m.bus.screen.frameCount

end Machine
end Handheld
