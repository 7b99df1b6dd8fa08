import Handheld.Screen.Timing

/-!
# The registers of the screen

Twelve registers at the addresses FF40 to FF4B.  Writing the control register
switches the screen on or off; switching it on starts a frame.  The line
register cannot be written, and of the status register only the bits that
enable interrupts.
-/

namespace Handheld

/-- The registers of the screen. -/
inductive ScreenRegister where
  | control
  | status
  | scrollY
  | scrollX
  | line
  | lineCompare
  | dma
  | backgroundPalette
  | spritePalette0
  | spritePalette1
  | windowY
  | windowX
  deriving DecidableEq, Repr, Inhabited

namespace ScreenRegister

/-- The registers in the order of their addresses. -/
def all : List ScreenRegister :=
  [control, status, scrollY, scrollX, line, lineCompare, dma, backgroundPalette,
    spritePalette0, spritePalette1, windowY, windowX]

/-- The address of a register. -/
def address : ScreenRegister → UInt16
  | control => 0xFF40
  | status => 0xFF41
  | scrollY => 0xFF42
  | scrollX => 0xFF43
  | line => 0xFF44
  | lineCompare => 0xFF45
  | dma => 0xFF46
  | backgroundPalette => 0xFF47
  | spritePalette0 => 0xFF48
  | spritePalette1 => 0xFF49
  | windowY => 0xFF4A
  | windowX => 0xFF4B

/-- The register at an address, if there is one. -/
def ofAddress? (address : UInt16) : Option ScreenRegister :=
  all.find? (·.address == address)

@[simp] theorem ofAddress?_address (r : ScreenRegister) : ofAddress? r.address = some r := by
  cases r <;> decide

theorem address_of_ofAddress? {address : UInt16} {r : ScreenRegister}
    (h : ofAddress? address = some r) : r.address = address := by
  simpa using List.find?_some h

end ScreenRegister

namespace Screen

/-- Reads a register. -/
def read (s : Screen) : ScreenRegister → UInt8
  | .control => s.control
  | .status => s.status
  | .scrollY => s.scrollY
  | .scrollX => s.scrollX
  | .line => s.line
  | .lineCompare => s.lineCompare
  | .dma => s.dma
  | .backgroundPalette => s.backgroundPalette
  | .spritePalette0 => s.spritePalette0
  | .spritePalette1 => s.spritePalette1
  | .windowY => s.windowY
  | .windowX => s.windowX

/-- Whether writing `value` to the control register switches the screen on or
off. -/
def toggles (s : Screen) (value : UInt8) : Bool :=
  s.enabled != (value &&& 0x80 != 0)

/-- Writes the control register. -/
def writeControl (s : Screen) (value : UInt8) : Screen × UInt8 :=
  let toggled := s.toggles value
  let s := { s with control := value }
  if toggled then (if s.enabled then s.startFrame else s.stop).compareLine else (s, 0)

/-- Writes a register.  Answers the interrupts that this requests. -/
def write (s : Screen) (value : UInt8) : ScreenRegister → Screen × UInt8
  | .control => s.writeControl value
  | .status => ({ s with statusEnables := value &&& 0x78 }, 0)
  | .scrollY => ({ s with scrollY := value }, 0)
  | .scrollX => ({ s with scrollX := value }, 0)
  | .line => (s, 0)
  | .lineCompare => compareLine { s with lineCompare := value }
  | .dma => ({ s with dma := value }, 0)
  | .backgroundPalette => ({ s with backgroundPalette := value }, 0)
  | .spritePalette0 => ({ s with spritePalette0 := value }, 0)
  | .spritePalette1 => ({ s with spritePalette1 := value }, 0)
  | .windowY => ({ s with windowY := value }, 0)
  | .windowX => ({ s with windowX := value }, 0)

/-- Reads the register at an address; where there is none, all bits read as
ones. -/
def readAt (s : Screen) (address : UInt16) : UInt8 :=
  match ScreenRegister.ofAddress? address with
  | some r => s.read r
  | none => 0xFF

/-- Writes the register at an address; where there is none, nothing happens. -/
def writeAt (s : Screen) (address : UInt16) (value : UInt8) : Screen × UInt8 :=
  match ScreenRegister.ofAddress? address with
  | some r => s.write value r
  | none => (s, 0)

/-- The changes of mode that writing a register makes. -/
def changesOnWrite (s : Screen) (value : UInt8) : ScreenRegister → List ModeChange
  | .control =>
    if s.toggles value then
      let next := (s.writeControl value).1
      [⟨s.mode, next.mode, next.line⟩]
    else []
  | _ => []

end Screen
end Handheld
