import Handheld.Checked.Bus
import Handheld.Checked.FlagCpu
import Handheld.Machine.Frame

/-!
# The machine with stored flags and a stored period

Here the flags are the byte F, and the timer keeps what the control register says
beside the register: whether the counter runs, and its period.  Both are taken from a
value when it is written to the control register, and never computed again.
-/

namespace Handheld.Checked

/-! ## The bus -/

/-- The period of the counter that a value of the control register selects. -/
def selectedPeriod (control : UInt8) : Nat :=
  periods[(control &&& 0x03).toNat]?.getD 0

/-- A bus with a timer that keeps its period, and whether it runs. -/
structure StoredBus where
  bus : Bus
  period : Nat := selectedPeriod 0
  running : Bool := false

namespace StoredBus

/-- A change that does not touch the timer. -/
def modify (b : StoredBus) (change : Bus → Bus) : StoredBus :=
  { b with bus := change b.bus }

/-- Writes the byte at an address. -/
def write (b : StoredBus) (address : UInt16) (value : UInt8) : StoredBus :=
  if address = 0xFF07 then
    { bus := b.bus.write address value
      period := selectedPeriod (value &&& 0x07)
      running := value &&& 0x07 &&& 0x04 != 0 }
  else b.modify (·.write address value)

/-- Writes bytes to addresses, one after another. -/
def writeAll (b : StoredBus) (writes : List (UInt16 × UInt8)) : StoredBus :=
  writes.foldl (fun b w => b.write w.1 w.2) b

/-- Lets the timer run. -/
def advanceTimer (b : StoredBus) (cycles : Nat) : StoredBus :=
  let timer := b.bus.timer.advanceDivider cycles
  if b.running then
    let total := timer.counterCycles + cycles
    let (counter, passed) := Timer.countUp timer.modulo (total / b.period) timer.counter false
    { b with
      bus.timer := { timer with counter, counterCycles := total % b.period }
      bus.requests :=
        if passed then Interrupt.timer.raise b.bus.requests else b.bus.requests }
  else { b with bus.timer := timer }

/-- The bus at power-on. -/
def powerOn : StoredBus := { bus := .powerOn }

/-- The bus as a boot ROM leaves it. -/
def postBoot : StoredBus := { bus := .postBoot }

end StoredBus

/-! ## The machine -/

/-- The machine. -/
structure StoredMachine where
  cpu : FlagCpu
  bus : StoredBus
  startsAtPowerOn : Bool := false

namespace StoredMachine

/-- The machine as a boot ROM leaves it. -/
def postBoot : StoredMachine where
  cpu := .postBoot
  bus := .postBoot

/-- The machine at power-on. -/
def powerOn : StoredMachine where
  cpu := .powerOn
  bus := .powerOn
  startsAtPowerOn := true

/-- A change of the bus that does not touch the timer. -/
def modifyBus (s : StoredMachine) (change : Bus → Bus) : StoredMachine :=
  { s with bus := s.bus.modify change }

/-- The machine started again.  It keeps the cartridge with its RAM, the boot
ROM, and the state of the buttons. -/
def reset (s : StoredMachine) : StoredMachine :=
  let fresh := if s.startsAtPowerOn then powerOn else postBoot
  fresh.modifyBus fun b =>
    let b := { b with joypad := { buttons := s.bus.bus.joypad.buttons } }
    let b := match s.bus.bus.bootRom with
      | some boot => b.installBoot boot
      | none => b
    match s.bus.bus.cartridge with
    | some c => b.insert c.reset
    | none => b

/-! ### Steps -/

/-- The machine after an effect of its CPU. -/
def follow (s : StoredMachine) (effect : FlagEffect) : StoredMachine :=
  { s with cpu := effect.cpu, bus := s.bus.writeAll effect.writes }

/-- Executes the instruction at the program counter.  Answers its cost. -/
def executeNext (s : StoredMachine) : StoredMachine × Nat :=
  let i := Instruction.decode s.bus.bus.read s.cpu.cpu.regs.pc
  let effect := FlagCpu.execute s.bus.bus.read { s.cpu with cpu := Machine.skip s.cpu.cpu i } i
  (s.follow effect, i.cost effect.taken)

/-- Executes an instruction or lets a cycle pass. -/
def executeOrIdle (s : StoredMachine) : StoredMachine × Nat :=
  if s.cpu.cpu.halted then (s, Machine.idleCycles) else s.executeNext

/-- Serves an interrupt. -/
def dispatch (s : StoredMachine) (i : Interrupt) : StoredMachine :=
  let s := s.modifyBus fun b => { b with requests := i.clear b.requests }
  s.follow (s.cpu.keepF ({ s.cpu.cpu with ime := false }.enter i.vector))

/-- The interrupt that the CPU turns to. -/
def pending (s : StoredMachine) : Option Interrupt :=
  if s.cpu.cpu.ime || s.cpu.cpu.halted then
    Interrupt.nextPending s.bus.bus.requests s.bus.bus.enables
  else none

/-- Lets the timer run. -/
def runTimer (s : StoredMachine) (cycles : Nat) : StoredMachine :=
  { s with bus := s.bus.advanceTimer cycles }

/-- Wakes the CPU. -/
def wake (s : StoredMachine) : StoredMachine :=
  { s with cpu.cpu.halted := false }

/-- Turns to a pending interrupt.  Answers the cycles that this takes. -/
def serveInterrupts (s : StoredMachine) : StoredMachine × Nat :=
  match s.pending with
  | none => (s, 0)
  | some i =>
    if s.cpu.cpu.ime then
      ((s.wake.dispatch i).runTimer Machine.dispatchCycles, Machine.dispatchCycles)
    else (s.wake, 0)

/-- Counts cycles. -/
def count (s : StoredMachine) (cycles : Nat) : StoredMachine :=
  { s with cpu.cpu.cycles := s.cpu.cpu.cycles + cycles.toUInt64 }

/-- A step of CPU and timer.  Answers its cycles. -/
def stepCpu (s : StoredMachine) : StoredMachine × Nat :=
  let (s, cost) := s.executeOrIdle
  let (s, extra) := (s.runTimer cost).serveInterrupts
  (s.count (cost + extra), cost + extra)

/-- A step of the whole machine.  Answers its cycles. -/
def step (s : StoredMachine) : StoredMachine × Nat :=
  let (s, cycles) := s.stepCpu
  (s.modifyBus (·.advanceScreen cycles), cycles)

/-- The machine after a button event. -/
def press (s : StoredMachine) (event : ButtonEvent) : StoredMachine :=
  s.modifyBus fun b => { b with joypad := b.joypad.apply event }

end StoredMachine
end Handheld.Checked
