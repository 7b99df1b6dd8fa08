import Handheld.Bus.Notice
import Handheld.Cpu.Access
import Handheld.Machine.Basic

/-!
# Notices on a step

The notices that a step gives are a function of the machine before it.  They
come in the order of the events: the instruction is listed, its bytes are
fetched, its operands are read, its results are written, an interrupt puts the
program counter on the stack, and the screen runs.
-/

namespace Handheld.Machine

/-- The notices on reading addresses. -/
def readsNotices (addresses : List UInt16) : List Notice :=
  addresses.flatMap Bus.readNotices

/-- The notices on listing a line, whose bytes are read from the bus. -/
def listingNotices (line : ListingLine) : List Notice :=
  readsNotices line.listed

/-- The line of a listing for the instruction at the program counter. -/
def nextLine (m : Machine) : ListingLine :=
  listLine m.bus.read m.cpu.regs.pc

/-- The notice on an opcode that no instruction has. -/
def unassignedNotices (m : Machine) : Instruction → List Notice
  | .unassigned opcode => [.unassignedOpcode opcode m.cpu.regs.pc]
  | _ => []

/-- The notices on executing the instruction at the program counter. -/
def executeNotices (m : Machine) : List Notice :=
  let line := m.nextLine
  let i := line.instruction
  let behind := skip m.cpu i
  listingNotices line ++ [.executing line m.cpu] ++
    readsNotices (m.cpu.regs.fetchReads i) ++
    m.unassignedNotices i ++
    readsNotices (behind.regs.operandReads i) ++
    m.bus.writeAllNotices (behind.execute m.bus.read i).writes

/-- The notices on turning to a pending interrupt. -/
def serveNotices (m : Machine) : List Notice :=
  match m.pending with
  | some i =>
    if m.cpu.ime then
      { m.bus with requests := i.clear m.bus.requests }.writeAllNotices
        (m.cpu.enter i.vector).writes
    else []
  | none => []

/-- The notices on a step of CPU and timer. -/
def stepCpuNotices (m : Machine) : List Notice :=
  let (next, cost) := m.executeOrIdle
  (if m.cpu.halted then [] else m.executeNotices) ++ (next.runTimer cost).serveNotices

/-- The notices on a step of the whole machine. -/
def stepNotices (m : Machine) : List Notice :=
  let (next, cycles) := m.stepCpu
  m.stepCpuNotices ++ next.bus.screenNotices cycles

/-- The notices on building a machine as a boot ROM leaves it: its screen is
switched on. -/
def postBootNotices : List Notice :=
  [.modeChange ⟨Screen.powerOn.mode, Screen.postBoot.mode, Screen.postBoot.line⟩]

/-- The notices on resetting a machine. -/
def resetNotices (m : Machine) : List Notice :=
  if m.startsAtPowerOn then [] else postBootNotices

end Handheld.Machine
