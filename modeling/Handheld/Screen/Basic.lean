import Handheld.Interrupt
import Handheld.Screen.Sprite

/-!
# The screen

The state of the picture unit: its memories, its registers, its position in
the frame, and the picture drawn so far.

A frame takes 70080 dots.  Each of its 144 visible lines passes through three
modes; the ten lines after them are the vertical blank.  `dotsLeft` counts the
dots up to the next change of mode.
-/

namespace Handheld

/-- What the picture unit is doing. -/
inductive Mode where
  | hblank
  | vblank
  | oamScan
  | draw
  deriving DecidableEq, Repr, Inhabited

namespace Mode

/-- The mode's number in the status register. -/
def code : Mode → UInt8
  | hblank => 0
  | vblank => 1
  | oamScan => 2
  | draw => 3

/-- The mode's name in listings. -/
def name : Mode → String
  | hblank => "HBlank"
  | vblank => "VBlank"
  | oamScan => "OamScan"
  | draw => "Draw"

/-- The dots that the mode lasts. -/
def dots : Mode → Nat
  | hblank => 145
  | vblank => 4560
  | oamScan => 80
  | draw => 230

end Mode

/-- One of the four shades, the lightest first. -/
abbrev Shade := Fin 4

/-- The colour of a shade, eight bits each of red, green and blue. -/
def Shade.color (s : Shade) : UInt32 :=
  match s with
  | 0 => 0x00E8FCCC
  | 1 => 0x00ACD490
  | 2 => 0x00548C70
  | 3 => 0x00142C38

/-- One line of a picture. -/
abbrev PictureLine := Vector Shade 160

/-- A picture: 144 lines. -/
abbrev Picture := Vector PictureLine 144

/-- The state of the picture unit. -/
structure Screen where
  vram : Vector UInt8 0x2000 := .replicate 0x2000 0
  sprites : SpriteMemory := .blank
  /-- The control register LCDC. -/
  control : UInt8 := 0
  /-- Bits 6 to 3 of the status register: which events interrupt. -/
  statusEnables : UInt8 := 0
  /-- Bit 2 of the status register: whether the line was found equal to the
  line compared with. -/
  coincidence : Bool := false
  scrollY : UInt8 := 0
  scrollX : UInt8 := 0
  line : UInt8 := 0
  lineCompare : UInt8 := 0
  dma : UInt8 := 0
  backgroundPalette : UInt8 := 0
  spritePalette0 : UInt8 := 0
  spritePalette1 : UInt8 := 0
  windowY : UInt8 := 0
  windowX : UInt8 := 0
  mode : Mode := .hblank
  /-- Dots up to the next change of mode. -/
  dotsLeft : Nat := Mode.oamScan.dots
  /-- Dots spent in the current line of the vertical blank. -/
  vblankDots : Nat := 0
  picture : Picture := .replicate 144 (.replicate 160 0)
  /-- Whether a picture was completed and not taken yet. -/
  frameReady : Bool := false
  /-- The pictures completed so far. -/
  frameCount : Nat := 0

namespace Screen

/-! ## The control register -/

/-- Whether the screen is on. -/
def enabled (s : Screen) : Bool := s.control &&& 0x80 != 0

/-- Whether the window uses the second tile map. -/
def windowMap (s : Screen) : Bool := s.control &&& 0x40 != 0

/-- Whether the window is shown. -/
def windowEnabled (s : Screen) : Bool := s.control &&& 0x20 != 0

/-- Whether map entries number the tiles from the start of the video memory. -/
def unsignedTiles (s : Screen) : Bool := s.control &&& 0x10 != 0

/-- Whether the background uses the second tile map. -/
def backgroundMap (s : Screen) : Bool := s.control &&& 0x08 != 0

/-- The height of the sprites. -/
def spriteHeight (s : Screen) : Nat := if s.control &&& 0x04 != 0 then 16 else 8

/-- Whether sprites are shown. -/
def spritesEnabled (s : Screen) : Bool := s.control &&& 0x02 != 0

/-- Whether background and window are shown. -/
def backgroundEnabled (s : Screen) : Bool := s.control &&& 0x01 != 0

/-! ## The status register -/

/-- Whether the compared line interrupts. -/
def coincidenceInterrupts (s : Screen) : Bool := s.statusEnables &&& 0x40 != 0

/-- Whether the start of a mode interrupts. -/
def modeInterrupts (s : Screen) : Mode → Bool
  | .oamScan => s.statusEnables &&& 0x20 != 0
  | .vblank => s.statusEnables &&& 0x10 != 0
  | .hblank => s.statusEnables &&& 0x08 != 0
  | .draw => false

/-- The status register.  Bit 7 does not exist and reads as one. -/
def status (s : Screen) : UInt8 :=
  0x80 ||| s.statusEnables ||| (if s.coincidence then 0x04 else 0) ||| s.mode.code

/-! ## The memories -/

/-- The video memory repeats every 2000 bytes. -/
def vramOffset (address : UInt16) : Fin 0x2000 := .ofNat 0x2000 address.toNat

/-- Reads the video memory. -/
def readVram (s : Screen) (address : UInt16) : UInt8 :=
  s.vram.get (vramOffset address)

/-- Writes the video memory. -/
def writeVram (s : Screen) (address : UInt16) (value : UInt8) : Screen :=
  { s with vram := s.vram.set (vramOffset address) value }

/-- The offset in the sprite memory of an address, if it is one. -/
def oamOffset? (address : UInt16) : Option (Fin 160) :=
  if h : 0xFE00 ≤ address.toNat ∧ address.toNat < 0xFEA0 then
    some ⟨address.toNat - 0xFE00, by omega⟩
  else none

/-- Reads the sprite memory; beside it everything is zero. -/
def readOam (s : Screen) (address : UInt16) : UInt8 :=
  match oamOffset? address with
  | some offset => s.sprites.bytes.get offset
  | none => 0

/-- Writes the sprite memory; beside it nothing happens. -/
def writeOam (s : Screen) (address : UInt16) (value : UInt8) : Screen :=
  match oamOffset? address with
  | some offset => { s with sprites := s.sprites.write offset value }
  | none => s

/-- The screen after its completed picture was taken. -/
def takeFrame (s : Screen) : Screen :=
  { s with frameReady := false }

/-! ## The position in the frame -/

/-- The screen at the start of a frame. -/
def startFrame (s : Screen) : Screen :=
  { s with line := 0, vblankDots := 0, dotsLeft := Mode.oamScan.dots, mode := .oamScan }

/-- The screen switched off: it stands still at the first line. -/
def stop (s : Screen) : Screen :=
  { s with line := 0, dotsLeft := Mode.oamScan.dots, mode := .hblank }

/-- Compares the line with the line compared with.  Answers the interrupts
that this requests: one, if it is enabled and the two have become equal. -/
def compareLine (s : Screen) : Screen × UInt8 :=
  let equal := s.line == s.lineCompare
  let raised := if equal && !s.coincidence && s.coincidenceInterrupts
    then Interrupt.stat.mask else 0
  ({ s with coincidence := equal }, raised)

/-- Moves to a line. -/
def goToLine (s : Screen) (line : UInt8) : Screen × UInt8 :=
  compareLine { s with line }

/-- The screen at power-on: switched off. -/
def powerOn : Screen := {}

/-- The screen as a boot ROM leaves it: switched on, at the start of a frame. -/
def postBoot : Screen :=
  { powerOn with
    control := 0x91
    backgroundPalette := 0xFC
    coincidence := true }.startFrame

end Screen
end Handheld
