import Handheld.Cpu.Flags
import Handheld.Word

/-!
# The register file

Seven byte registers, the flags, the stack pointer and the program counter.
A pair names two byte registers, the first one its high byte.
-/

namespace Handheld

/-- The CPU registers. -/
structure Registers where
  a : UInt8 := 0
  flags : Flags := {}
  b : UInt8 := 0
  c : UInt8 := 0
  d : UInt8 := 0
  e : UInt8 := 0
  h : UInt8 := 0
  l : UInt8 := 0
  sp : UInt16 := 0
  pc : UInt16 := 0
  deriving DecidableEq, Repr, Inhabited

namespace Registers

/-- The byte of the flag register. -/
def f (r : Registers) : UInt8 := r.flags.toByte

/-- The pair AF. -/
def af (r : Registers) : UInt16 := word r.a r.f

/-- The pair BC. -/
def bc (r : Registers) : UInt16 := word r.b r.c

/-- The pair DE. -/
def de (r : Registers) : UInt16 := word r.d r.e

/-- The pair HL. -/
def hl (r : Registers) : UInt16 := word r.h r.l

/-- Writes F; only the four flag bits are kept. -/
def setF (r : Registers) (value : UInt8) : Registers :=
  { r with flags := .ofByte value }

/-- Writes the pair AF; of its low byte only the flag bits are kept. -/
def setAF (r : Registers) (value : UInt16) : Registers :=
  { r with a := highByte value, flags := .ofByte (lowByte value) }

/-- Writes the pair BC. -/
def setBC (r : Registers) (value : UInt16) : Registers :=
  { r with b := highByte value, c := lowByte value }

/-- Writes the pair DE. -/
def setDE (r : Registers) (value : UInt16) : Registers :=
  { r with d := highByte value, e := lowByte value }

/-- Writes the pair HL. -/
def setHL (r : Registers) (value : UInt16) : Registers :=
  { r with h := highByte value, l := lowByte value }

/-- The registers as a boot ROM leaves them to the cartridge. -/
def postBoot : Registers where
  a := 0x01
  flags := { zero := true, half := true, carry := true }
  b := 0x00
  c := 0x13
  d := 0x00
  e := 0xD8
  h := 0x01
  l := 0x4D
  sp := 0xFFFE
  pc := 0x0100

@[simp] theorem bc_setBC (r : Registers) (value : UInt16) : (r.setBC value).bc = value := by
  simp [bc, setBC]

@[simp] theorem de_setDE (r : Registers) (value : UInt16) : (r.setDE value).de = value := by
  simp [de, setDE]

@[simp] theorem hl_setHL (r : Registers) (value : UInt16) : (r.setHL value).hl = value := by
  simp [hl, setHL]

end Registers
end Handheld
