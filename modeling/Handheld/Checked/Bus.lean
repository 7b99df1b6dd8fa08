import Handheld.Bus.Basic
import Handheld.Checked.Cartridge

/-!
# The bus with checked arithmetic

Every range of the address space is read and written by an offset from its
start, and every offset is an index that has to lie within its memory.
-/

namespace Handheld.Checked

/-! ## The sprite memory -/

/-- The number of a sprite. -/
def spriteNumber (n : Nat) : Result (Fin 40) :=
  if h : n < 40 then return ⟨n, h⟩ else .error .index

/-- The buckets after the Y byte of a sprite becomes `y`. -/
def rebucket (m : SpriteMemory) (sprite : Nat) (y : UInt8) :
    Result (Vector (List (Fin 40)) 16) := do
  let before ← get m.bytes (← mul .index sprite 4)
  let source := before.toNat >>> 4
  let target := y.toNat >>> 4
  if source = target then return m.buckets
  else
    let number ← spriteNumber sprite
    let others := (← get m.buckets source).filter (· ≠ number)
    let buckets ← set m.buckets source others
    set buckets target ((← get buckets target) ++ [number])

/-- Writes the sprite memory at an address; beside it nothing happens. -/
def writeOam (m : SpriteMemory) (address : Nat) (value : UInt8) : Result SpriteMemory := do
  let offset ← sub address 0xFE00
  if 160 ≤ offset then return m
  else
    let buckets ← if offset % 4 = 0 then rebucket m (offset / 4) value else pure m.buckets
    return { bytes := ← set m.bytes offset value, buckets }

/-! ## The timer -/

/-- The periods of the counter, by the two low bits of the control register. -/
def periods : Vector Nat 4 := #v[256, 4, 16, 64]

/-- The timer after `cycles` machine cycles, and whether it requests its
interrupt. -/
def advanceTimer (t : Timer) (cycles : Nat) : Result (Timer × Bool) := do
  let total ← add .double t.dividerCycles cycles
  let steps ← div total Timer.dividerPeriod
  let left ← rem total Timer.dividerPeriod
  let t := { t with divider := t.divider + steps.toUInt8, dividerCycles := left }
  if t.enabled then
    let period ← get periods (t.control &&& 3).toNat
    let total ← add .double t.counterCycles cycles
    let steps ← div total period
    let left ← rem total period
    let (counter, passed) := Timer.countUp t.modulo steps t.counter false
    return ({ t with counter, counterCycles := left }, passed)
  else return (t, false)

/-! ## Reading and writing -/

/-- Reads the byte at an address. -/
def read (b : Bus) (address : UInt16) : Result UInt8 := do
  let n := address.toNat
  if n < 0x8000 ∨ (0xA000 ≤ n ∧ n < 0xC000) then
    match b.cartridge with
    | some c => readCartridge c address
    | none => return 0xFF
  else if n < 0xA000 then
    let offset ← sub n 0x8000
    get b.screen.vram (offset &&& 0x1FFF)
  else if n < 0xE000 then get b.work (← sub n 0xC000)
  else if n < 0xFE00 then get b.work (← sub n 0xE000)
  else if n < 0xFEA0 then
    let offset ← sub n 0xFE00
    return b.screen.sprites.bytes.toArray.getD offset 0
  else if n < 0xFF00 then return 0
  else if n = 0xFF00 then return b.joypad.read
  else if 0xFF04 ≤ n ∧ n ≤ 0xFF07 then return b.timer.readAt address
  else if n = 0xFF0F then return b.requests ||| 0xE0
  else if 0xFF40 ≤ n ∧ n ≤ 0xFF4B then return b.screen.readAt address
  else if n = 0xFF50 then return 0xFF
  else if n < 0xFF80 then get b.scratch (← sub n 0xFF00)
  else if n < 0xFFFF then get b.high (← sub n 0xFF80)
  else return b.enables

/-- Copies the 160 bytes from the start of a page on to the sprite memory. -/
def copyToOam (b : Bus) (page : UInt8) : Result Bus :=
  (List.range 160).foldlM (fun b i => do
    let value ← read b (word page 0 + i.toUInt16)
    let sprites ← writeOam b.screen.sprites (← add .word 0xFE00 i) value
    return { b with screen.sprites := sprites }) b

/-- Writes a register of the screen and requests the interrupts that follow. -/
def writeScreen (b : Bus) (address : UInt16) (value : UInt8) : Bus :=
  let (screen, raised) := b.screen.writeAt address value
  { b with screen, requests := b.requests ||| raised }

/-- Writes the boot switch. -/
def switchBoot (b : Bus) (value : UInt8) : Result Bus := do
  if value ≠ 0 ∧ b.bootDisabled = false then
    match b.cartridge with
    | some c => return { b with bootDisabled := true, cartridge := some (← unmapBoot c) }
    | none => return { b with bootDisabled := true }
  else return b

/-- Writes the byte at an address. -/
def write (b : Bus) (address : UInt16) (value : UInt8) : Result Bus := do
  let n := address.toNat
  if n < 0x8000 ∨ (0xA000 ≤ n ∧ n < 0xC000) then
    match b.cartridge with
    | some c => return { b with cartridge := some (← writeCartridge c address value) }
    | none => return b
  else if n < 0xA000 then
    let offset ← sub n 0x8000
    return { b with screen.vram := ← set b.screen.vram (offset &&& 0x1FFF) value }
  else if n < 0xE000 then return { b with work := ← set b.work (← sub n 0xC000) value }
  else if n < 0xFE00 then return { b with work := ← set b.work (← sub n 0xE000) value }
  else if n < 0xFEA0 then
    return { b with screen.sprites := ← writeOam b.screen.sprites n value }
  else if n < 0xFF00 then return b
  else if n = 0xFF00 then return { b with joypad := b.joypad.write value }
  else if 0xFF04 ≤ n ∧ n ≤ 0xFF07 then
    return { b with timer := b.timer.writeAt address value }
  else if n = 0xFF0F then return { b with requests := value &&& Interrupt.wired }
  else if n = 0xFF46 then copyToOam (writeScreen b address value) value
  else if 0xFF40 ≤ n ∧ n ≤ 0xFF4B then return writeScreen b address value
  else if n = 0xFF50 then switchBoot b value
  else if n < 0xFF80 then return { b with scratch := ← set b.scratch (← sub n 0xFF00) value }
  else if n < 0xFFFF then return { b with high := ← set b.high (← sub n 0xFF80) value }
  else return { b with enables := value }

/-- Lets the timer of the bus run. -/
def advanceBusTimer (b : Bus) (cycles : Nat) : Result Bus := do
  let (timer, passed) ← advanceTimer b.timer cycles
  return { b with
    timer
    requests := if passed then Interrupt.timer.raise b.requests else b.requests }

end Handheld.Checked
