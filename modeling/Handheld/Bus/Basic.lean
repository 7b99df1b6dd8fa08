import Handheld.Bus.Place
import Handheld.Cartridge.Basic
import Handheld.Joypad
import Handheld.Word

/-!
# The bus

The bus holds every component besides the CPU and connects them to the
address space.  It also keeps the boot ROM, which lies over the start of the
cartridge until a program takes it off.
-/

namespace Handheld

/-- All components besides the CPU. -/
structure Bus where
  cartridge : Option Cartridge := none
  screen : Screen := .powerOn
  timer : Timer := {}
  joypad : Joypad := {}
  /-- The interrupts that are requested, IF. -/
  requests : UInt8 := 0
  /-- The interrupts that are enabled, IE. -/
  enables : UInt8 := 0
  work : Vector UInt8 0x2000 := .replicate 0x2000 0
  high : Vector UInt8 0x7F := .replicate 0x7F 0
  scratch : Vector UInt8 0x80 := .replicate 0x80 0
  bootRom : Option (Array UInt8) := none
  /-- Whether the boot ROM was taken off; it cannot be put back. -/
  bootDisabled : Bool := false

namespace Bus

/-- The bus at power-on: the screen is off, the boot ROM shows. -/
def powerOn : Bus := {}

/-- The bus as a boot ROM leaves it. -/
def postBoot : Bus :=
  { powerOn with screen := .postBoot, bootDisabled := true }

/-! ## Cartridge and boot ROM -/

/-- The cartridge as it lies on the bus: under the boot ROM, if there is one
and it was not taken off. -/
def underBoot (b : Bus) (c : Cartridge) : Cartridge :=
  match b.bootRom with
  | some boot => if b.bootDisabled then c else c.mapBoot boot
  | none => c

/-- Inserts a cartridge. -/
def insert (b : Bus) (c : Cartridge) : Bus :=
  { b with cartridge := some (b.underBoot c) }

/-- Installs a boot ROM. -/
def installBoot (b : Bus) (boot : Array UInt8) : Bus :=
  if b.bootDisabled then { b with bootRom := some boot }
  else { b with cartridge := b.cartridge.map (·.mapBoot boot), bootRom := some boot }

/-- The bus without its boot ROM.  An overlay on the cartridge stays. -/
def removeBoot (b : Bus) : Bus :=
  { b with bootRom := none }

/-- Writes the boot switch: the first value other than zero takes the boot ROM
off for good. -/
def switchBoot (b : Bus) (value : UInt8) : Bus :=
  if value ≠ 0 ∧ b.bootDisabled = false then
    { b with bootDisabled := true, cartridge := b.cartridge.map (·.unmapBoot) }
  else b

/-! ## Reading and writing -/

/-- Reads the byte at an address. -/
def read (b : Bus) (address : UInt16) : UInt8 :=
  match Place.ofAddress address with
  | .cartridge =>
    match b.cartridge with
    | some c => c.read address
    | none => 0xFF
  | .vram offset => b.screen.vram.get offset
  | .work offset => b.work.get offset
  | .oam offset => b.screen.sprites.bytes.get offset
  | .unusable => 0
  | .joypad => b.joypad.read
  | .timer r => b.timer.read r
  | .requests => b.requests ||| 0xE0
  | .screen r => b.screen.read r
  | .bootSwitch => 0xFF
  | .scratch offset => b.scratch.get offset
  | .high offset => b.high.get offset
  | .enables => b.enables

/-- Reads the word at an address, its low byte first. -/
def readWord (b : Bus) (address : UInt16) : UInt16 :=
  word (b.read (address + 1)) (b.read address)

/-- Writes a byte of the sprite memory. -/
def writeOam (b : Bus) (offset : Fin 160) (value : UInt8) : Bus :=
  { b with screen.sprites := b.screen.sprites.write offset value }

/-- Copies the 160 bytes from the start of a page on to the sprite memory. -/
def copyToOam (b : Bus) (page : UInt8) : Bus :=
  (List.finRange 160).foldl
    (fun b offset => b.writeOam offset (b.read (word page offset.val.toUInt8))) b

/-- A copy keeps what each of its writes keeps. -/
theorem copyToOam_induction {P : Bus → Prop}
    (write : ∀ (b : Bus) (offset : Fin 160) (value : UInt8), P b → P (b.writeOam offset value))
    {b : Bus} (h : P b) (page : UInt8) : P (b.copyToOam page) := by
  unfold copyToOam
  generalize List.finRange 160 = offsets
  induction offsets generalizing b with
  | nil => exact h
  | cons offset offsets ih => exact ih (write b offset _ h)

/-- Writes a register of the screen and requests the interrupts that follow. -/
def writeScreen (b : Bus) (value : UInt8) (r : ScreenRegister) : Bus :=
  let (screen, raised) := b.screen.write value r
  { b with screen, requests := b.requests ||| raised }

/-- Writes the byte at an address. -/
def write (b : Bus) (address : UInt16) (value : UInt8) : Bus :=
  match Place.ofAddress address with
  | .cartridge => { b with cartridge := b.cartridge.map (·.write address value) }
  | .vram offset => { b with screen.vram := b.screen.vram.set offset value }
  | .work offset => { b with work := b.work.set offset value }
  | .oam offset => b.writeOam offset value
  | .unusable => b
  | .joypad => { b with joypad := b.joypad.write value }
  | .timer r => { b with timer := b.timer.write value r }
  | .requests => { b with requests := value &&& Interrupt.wired }
  | .screen .dma => (b.writeScreen value .dma).copyToOam value
  | .screen r => b.writeScreen value r
  | .bootSwitch => b.switchBoot value
  | .scratch offset => { b with scratch := b.scratch.set offset value }
  | .high offset => { b with high := b.high.set offset value }
  | .enables => { b with enables := value }

/-- Writes bytes to addresses, one after another. -/
def writeAll (b : Bus) (writes : List (UInt16 × UInt8)) : Bus :=
  writes.foldl (fun b w => b.write w.1 w.2) b

/-! ## Time -/

/-- Lets the timer run. -/
def advanceTimer (b : Bus) (cycles : Nat) : Bus :=
  let (timer, passed) := b.timer.advance cycles
  { b with
    timer
    requests := if passed then Interrupt.timer.raise b.requests else b.requests }

/-- Lets the screen run. -/
def advanceScreen (b : Bus) (cycles : Nat) : Bus :=
  let (screen, raised) := b.screen.advance cycles
  { b with screen, requests := b.requests ||| raised }

end Bus
end Handheld
