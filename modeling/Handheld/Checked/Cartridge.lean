import Handheld.Cartridge.Basic
import Handheld.Checked.Arithmetic

/-!
# Cartridges with checked arithmetic

A boot ROM is copied into the ROM, and the bytes that it hides are kept beside
it; taking it off copies them back.  So the ROM is one array, and copies and
accesses have to stay within it.
-/

namespace Handheld.Checked

/-! ## The ROM as one array -/

/-- A ROM, and the bytes that a boot ROM in it hides. -/
structure PatchedRom where
  rom : Array UInt8
  hidden : Option (Array UInt8)

/-- The first `count` bytes. -/
def front (bytes : Array UInt8) (count : Nat) : Result (Array UInt8) := do
  require (count ≤ bytes.size) .index
  return bytes.extract 0 count

/-- Copies bytes over the start of others. -/
def copyOver (bytes start : Array UInt8) : Result (Array UInt8) := do
  require (start.size ≤ bytes.size) .index
  return start ++ bytes.extract start.size bytes.size

namespace PatchedRom

/-- Copies the hidden bytes back. -/
def unmap (p : PatchedRom) : Result PatchedRom :=
  match p.hidden with
  | none => return p
  | some hidden => return { rom := ← copyOver p.rom hidden, hidden := none }

/-- Copies a boot ROM over the start. -/
def map (p : PatchedRom) (boot : Array UInt8) : Result PatchedRom := do
  let p ← p.unmap
  let length := min boot.size p.rom.size
  let hidden ← front p.rom length
  let start ← front boot length
  return { rom := ← copyOver p.rom start, hidden := some hidden }

end PatchedRom

/-- The ROM of a cartridge as one array. -/
def patchedRom (c : Cartridge) : PatchedRom where
  rom := c.rom
  hidden := c.overlay.map fun boot => c.image.extract 0 boot.size

/-- Takes the boot ROM off. -/
def unmapBoot (c : Cartridge) : Result Cartridge := do
  let p ← (patchedRom c).unmap
  return { c with image := p.rom, overlay := none }

/-! ## Access -/

/-- The index in the RAM of an address of the RAM window, if there is a byte to
access. -/
def ramIndex (c : Cartridge) (address : Nat) : Result (Option Nat) :=
  if !c.banking.ramEnabled || c.ram.isEmpty then return none
  else do
    let bank := if c.banking.ramBanking then c.banking.ramBank.toNat else 0
    let start ← mul .index bank ramBankSize
    let offset ← sub address 0xA000
    let index ← add .index start offset
    return if index < c.ram.size then some index else none

/-- The byte that the cartridge puts on the bus. -/
def readCartridge (c : Cartridge) (address : UInt16) : Result UInt8 := do
  let n := address.toNat
  if n < 0x4000 then return c.rom.getD n 0xFF
  else if n < 0x8000 then
    let start ← mul .index c.banking.romBank.toNat romBankSize
    let offset ← sub n 0x4000
    let index ← add .index start offset
    return c.rom.getD index 0xFF
  else if 0xA000 ≤ n ∧ n < 0xC000 then
    match ← ramIndex c n with
    | some index => getArray c.ram index
    | none => return 0xFF
  else return 0xFF

/-- A write from the bus. -/
def writeCartridge (c : Cartridge) (address : UInt16) (value : UInt8) : Result Cartridge := do
  let n := address.toNat
  if c.controller = .mbc1 ∧ n < 0x8000 then
    return { c with banking := Cartridge.control c.banking address value }
  else if 0xA000 ≤ n ∧ n < 0xC000 then
    match ← ramIndex c n with
    | some index => return { c with ram := ← setArray c.ram index value }
    | none => return c
  else return c

end Handheld.Checked
