import Handheld.Screen.Register
import Handheld.Timer

/-!
# The address space

Every address belongs to exactly one place: a byte of a memory, a register of
a component, or nothing that can be used.  Reading and writing both go by
`Place.ofAddress`.
-/

namespace Handheld

/-- What answers at an address. -/
inductive Place where
  /-- The cartridge: its ROM and its RAM window. -/
  | cartridge
  /-- A byte of the video memory. -/
  | vram (offset : Fin 0x2000)
  /-- A byte of the work memory. -/
  | work (offset : Fin 0x2000)
  /-- A byte of the sprite memory. -/
  | oam (offset : Fin 160)
  /-- No memory: reads as zero, and writes are lost. -/
  | unusable
  /-- The register P1. -/
  | joypad
  /-- A register of the timer. -/
  | timer (register : TimerRegister)
  /-- The interrupt requests, IF. -/
  | requests
  /-- A register of the screen. -/
  | screen (register : ScreenRegister)
  /-- The switch that takes off the boot ROM. -/
  | bootSwitch
  /-- A register that no component claims: it keeps what is written. -/
  | scratch (offset : Fin 0x80)
  /-- A byte of the high memory. -/
  | high (offset : Fin 0x7F)
  /-- The enabled interrupts, IE. -/
  | enables
  deriving DecidableEq, Repr

namespace Place

/-- The place of a register address: FF00 plus the offset. -/
def ofRegister (offset : Fin 0x80) : Place :=
  match offset.val with
  | 0x00 => joypad
  | 0x04 => timer .divider
  | 0x05 => timer .counter
  | 0x06 => timer .modulo
  | 0x07 => timer .control
  | 0x0F => requests
  | 0x40 => screen .control
  | 0x41 => screen .status
  | 0x42 => screen .scrollY
  | 0x43 => screen .scrollX
  | 0x44 => screen .line
  | 0x45 => screen .lineCompare
  | 0x46 => screen .dma
  | 0x47 => screen .backgroundPalette
  | 0x48 => screen .spritePalette0
  | 0x49 => screen .spritePalette1
  | 0x4A => screen .windowY
  | 0x4B => screen .windowX
  | 0x50 => bootSwitch
  | _ => scratch offset

/-- The place of an address.  The work memory shows twice, the second time
without its last 200 bytes. -/
def ofAddress (address : UInt16) : Place :=
  let n := address.toNat
  have := address.toNat_lt
  if n < 0x8000 then cartridge
  else if h : n < 0xA000 then vram ⟨n - 0x8000, by omega⟩
  else if n < 0xC000 then cartridge
  else if h : n < 0xE000 then work ⟨n - 0xC000, by omega⟩
  else if h : n < 0xFE00 then work ⟨n - 0xE000, by omega⟩
  else if h : n < 0xFEA0 then oam ⟨n - 0xFE00, by omega⟩
  else if n < 0xFF00 then unusable
  else if h : n < 0xFF80 then ofRegister ⟨n - 0xFF00, by omega⟩
  else if h : n < 0xFFFF then high ⟨n - 0xFF80, by omega⟩
  else enables

end Place
end Handheld
