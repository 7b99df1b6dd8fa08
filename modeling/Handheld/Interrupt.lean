/-!
# Interrupts

Five sources can interrupt the CPU.  Each owns one bit of the two interrupt
registers: the request register IF says who asks, the enable register IE says
who is heard.  The source with the lowest bit is served first.
-/

namespace Handheld

/-- An interrupt source, the one served first first. -/
inductive Interrupt where
  | vblank
  | stat
  | timer
  | serial
  | joypad
  deriving DecidableEq, Repr, Inhabited

namespace Interrupt

/-- The sources in service order. -/
def all : List Interrupt := [vblank, stat, timer, serial, joypad]

/-- The number of the source's bit in IF and IE. -/
def index : Interrupt → Nat
  | vblank => 0
  | stat => 1
  | timer => 2
  | serial => 3
  | joypad => 4

/-- The source's bit in IF and IE. -/
def mask : Interrupt → UInt8
  | vblank => 0x01
  | stat => 0x02
  | timer => 0x04
  | serial => 0x08
  | joypad => 0x10

/-- Where the CPU goes on when the source is served. -/
def vector : Interrupt → UInt16
  | vblank => 0x40
  | stat => 0x48
  | timer => 0x50
  | serial => 0x58
  | joypad => 0x60

/-- The source's name in listings. -/
def name : Interrupt → String
  | vblank => "VBlank"
  | stat => "Stat"
  | timer => "Timer"
  | serial => "Serial"
  | joypad => "Joypad"

/-- The bits of IF and IE that belong to a source. -/
def wired : UInt8 := 0x1F

/-- Whether the source's bit is set. -/
def isSet (i : Interrupt) (bits : UInt8) : Bool :=
  bits &&& i.mask != 0

/-- The register with the source's bit set. -/
def raise (i : Interrupt) (bits : UInt8) : UInt8 :=
  bits ||| i.mask

/-- The register with the source's bit cleared. -/
def clear (i : Interrupt) (bits : UInt8) : UInt8 :=
  bits &&& ~~~i.mask

/-- The first source that both asks and is heard. -/
def nextPending (requests enabled : UInt8) : Option Interrupt :=
  all.find? (·.isSet (requests &&& enabled &&& wired))

end Interrupt
end Handheld
