/-!
# The timer

Two counters run on machine cycles.  The divider goes up once every 64 cycles
and wraps.  The counter goes up once every 4, 16, 64 or 256 cycles while it is
enabled; when it passes 255 it starts again from the modulo register and the
timer interrupt is requested.  Both keep the cycles that have not made up a
step yet.
-/

namespace Handheld

/-- The four registers of the timer. -/
inductive TimerRegister where
  | divider
  | counter
  | modulo
  | control
  deriving DecidableEq, Repr, Inhabited

/-- The register at an address, if there is one. -/
def TimerRegister.ofAddress? (address : UInt16) : Option TimerRegister :=
  if address = 0xFF04 then some divider
  else if address = 0xFF05 then some counter
  else if address = 0xFF06 then some modulo
  else if address = 0xFF07 then some control
  else none

/-- The state of the timer. -/
structure Timer where
  divider : UInt8 := 0
  counter : UInt8 := 0
  modulo : UInt8 := 0
  /-- The three bits of the control register: bit 2 enables the counter, bits
  1 and 0 select its period. -/
  control : UInt8 := 0
  /-- Cycles towards the next step of the divider. -/
  dividerCycles : Nat := 0
  /-- Cycles towards the next step of the counter. -/
  counterCycles : Nat := 0
  deriving DecidableEq, Repr, Inhabited

namespace Timer

/-- Cycles in one step of the divider. -/
def dividerPeriod : Nat := 64

/-- Whether the counter runs. -/
def enabled (t : Timer) : Bool :=
  t.control &&& 0x04 != 0

/-- Cycles in one step of the counter. -/
def period (t : Timer) : Nat :=
  match t.control.toNat % 4 with
  | 0 => 256
  | 1 => 4
  | 2 => 16
  | _ => 64

/-- The value of a register as the program sees it.  The bits of the control
register that do not exist read as ones. -/
def read (t : Timer) : TimerRegister → UInt8
  | .divider => t.divider
  | .counter => t.counter
  | .modulo => t.modulo
  | .control => t.control ||| 0xF8

/-- The timer with the divider and its cycles back at zero. -/
def resetDivider (t : Timer) : Timer :=
  { t with divider := 0, dividerCycles := 0 }

/-- Writes a register.  Any write to the divider resets it. -/
def write (t : Timer) (value : UInt8) : TimerRegister → Timer
  | .divider => t.resetDivider
  | .counter => { t with counter := value }
  | .modulo => { t with modulo := value }
  | .control => { t with control := value &&& 0x07 }

/-- The register at an address; where there is none, all bits read as ones. -/
def readAt (t : Timer) (address : UInt16) : UInt8 :=
  match TimerRegister.ofAddress? address with
  | some r => t.read r
  | none => 0xFF

/-- Writes the register at an address; where there is none, nothing happens. -/
def writeAt (t : Timer) (address : UInt16) (value : UInt8) : Timer :=
  match TimerRegister.ofAddress? address with
  | some r => t.write value r
  | none => t

/-- `steps` steps of a counter that restarts from `modulo`, and whether one of
them passed 255.  `passed` says whether one did before. -/
def countUp (modulo : UInt8) :
    (steps : Nat) → (counter : UInt8) → (passed : Bool) → UInt8 × Bool
  | 0, counter, passed => (counter, passed)
  | steps + 1, counter, passed =>
    if counter = 255 then countUp modulo steps modulo true
    else countUp modulo steps (counter + 1) passed

/-- The divider after `cycles` machine cycles. -/
def advanceDivider (t : Timer) (cycles : Nat) : Timer :=
  let total := t.dividerCycles + cycles
  { t with
    divider := t.divider + (total / dividerPeriod).toUInt8
    dividerCycles := total % dividerPeriod }

/-- The counter after `cycles` machine cycles, and whether it passed 255. -/
def advanceCounter (t : Timer) (cycles : Nat) : Timer × Bool :=
  if t.enabled then
    let total := t.counterCycles + cycles
    let (counter, passed) := countUp t.modulo (total / t.period) t.counter false
    ({ t with counter := counter, counterCycles := total % t.period }, passed)
  else (t, false)

/-- The timer after `cycles` machine cycles, and whether it requests its
interrupt. -/
def advance (t : Timer) (cycles : Nat) : Timer × Bool :=
  (t.advanceDivider cycles).advanceCounter cycles

end Timer
end Handheld
