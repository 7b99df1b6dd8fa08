import Handheld.Cartridge.Header
import Handheld.FileError

/-!
# Cartridges

A cartridge holds its ROM image, its RAM, and the state of its banking
controller.  A boot ROM may lie over the start of the ROM: `overlay` holds the
bytes that then show instead of those of the image.  The image itself never
changes, so taking the overlay off gives back every byte that it hid.
-/

namespace Handheld

/-- The reasons for which a cartridge cannot be loaded. -/
inductive LoadError where
  | tooSmall (size : Nat)
  | tooLarge (size limit : Nat)
  | unreadable (cause : FileError)
  deriving DecidableEq, Repr, Inhabited

/-- The reason in words. -/
def LoadError.message : LoadError → String
  | tooSmall size =>
    "ROM image is " ++ toString size ++ " bytes, too small to contain a cartridge header"
  | tooLarge size limit =>
    "ROM image is " ++ toString size ++ " bytes, the cartridge controller addresses at most " ++
      toString limit
  | unreadable cause => "I/O error: " ++ cause.message

/-- The banking state of a controller. -/
structure Banking where
  romBank : UInt8 := 1
  ramBank : UInt8 := 0
  ramEnabled : Bool := false
  /-- Whether `ramBank` is heeded; else RAM bank 0 is mapped. -/
  ramBanking : Bool := false
  deriving DecidableEq, Repr, Inhabited

/-- The banking state at power-on.  Without banking the RAM is always there. -/
def Banking.initial (controller : Controller) : Banking :=
  { ramEnabled := controller == .romOnly }

/-- A cartridge. -/
structure Cartridge where
  image : Array UInt8
  ram : Array UInt8
  header : Header
  controller : Controller
  banking : Banking
  /-- The boot ROM over the start of the image, no longer than the image. -/
  overlay : Option (Array UInt8) := none
  deriving Repr

namespace Cartridge

/-- The cartridge with the given image. -/
def load (image : Array UInt8) : Except LoadError Cartridge :=
  if image.size < Header.endAddress then .error (.tooSmall image.size)
  else
    let header := Header.ofImage image
    let controller := header.controller
    if controller.maxRomSize < image.size then
      .error (.tooLarge image.size controller.maxRomSize)
    else
      .ok {
        image, header, controller
        ram := Array.replicate (min header.ramSize controller.maxRamSize) 0
        banking := .initial controller }

/-- The cartridge in a file, given what reading the file gave. -/
def ofFile (contents : FileContents) : Except LoadError Cartridge :=
  match contents with
  | .ok image => load image
  | .error cause => .error (.unreadable cause)

/-! ## The overlay -/

/-- The bytes of the ROM as they show: the overlay over the start of the image. -/
def rom (c : Cartridge) : Array UInt8 :=
  match c.overlay with
  | some boot => boot ++ c.image.extract boot.size c.image.size
  | none => c.image

/-- The byte at an offset of the ROM as it shows. -/
def romByte? (c : Cartridge) (offset : Nat) : Option UInt8 :=
  match c.overlay with
  | some boot => if h : offset < boot.size then some boot[offset] else c.image[offset]?
  | none => c.image[offset]?

/-- Whether a boot ROM lies over the ROM. -/
def bootMapped (c : Cartridge) : Bool :=
  c.overlay.isSome

/-- Lays a boot ROM over the start of the ROM.  What does not fit is cut off. -/
def mapBoot (c : Cartridge) (boot : Array UInt8) : Cartridge :=
  { c with overlay := some (boot.extract 0 c.image.size) }

/-- Takes the boot ROM off. -/
def unmapBoot (c : Cartridge) : Cartridge :=
  { c with overlay := none }

/-- The cartridge at power-on: banking as at the start, no overlay.  The RAM
keeps its bytes. -/
def reset (c : Cartridge) : Cartridge :=
  { c.unmapBoot with banking := .initial c.controller }

/-! ## Access -/

/-- The RAM bank that the RAM window shows. -/
def mappedRamBank (c : Cartridge) : Nat :=
  if c.banking.ramBanking then c.banking.ramBank.toNat else 0

/-- The offset in the RAM of an address of the RAM window, if there is a byte
to access. -/
def ramOffset? (c : Cartridge) (address : UInt16) : Option Nat :=
  let offset := c.mappedRamBank * ramBankSize + (address.toNat - 0xA000)
  if c.banking.ramEnabled && offset < c.ram.size then some offset else none

/-- The byte that the cartridge puts on the bus.  Where it has none, all bits
read as ones. -/
def read (c : Cartridge) (address : UInt16) : UInt8 :=
  if address < 0x4000 then (c.romByte? address.toNat).getD 0xFF
  else if address < 0x8000 then
    (c.romByte? (c.banking.romBank.toNat * romBankSize + (address.toNat - 0x4000))).getD 0xFF
  else if 0xA000 ≤ address ∧ address < 0xC000 then
    match c.ramOffset? address with
    | some offset => c.ram.getD offset 0xFF
    | none => 0xFF
  else 0xFF

/-- The ROM bank that a written value selects.  Bank 0 is never selected. -/
def selectedRomBank (value : UInt8) : UInt8 :=
  if value &&& 0x1F = 0 then 1 else value &&& 0x1F

/-- The banking state after a write to an address of the ROM. -/
def control (banking : Banking) (address : UInt16) (value : UInt8) : Banking :=
  if address < 0x2000 then { banking with ramEnabled := value &&& 0x0F == 0x0A }
  else if address < 0x4000 then { banking with romBank := selectedRomBank value }
  else if address < 0x6000 then { banking with ramBank := value &&& 0x03 }
  else { banking with ramBanking := value &&& 0x01 != 0 }

/-- A write from the bus. -/
def write (c : Cartridge) (address : UInt16) (value : UInt8) : Cartridge :=
  if address < 0x8000 then
    match c.controller with
    | .romOnly => c
    | .mbc1 => { c with banking := control c.banking address value }
  else if 0xA000 ≤ address ∧ address < 0xC000 then
    match c.ramOffset? address with
    | some offset => { c with ram := c.ram.setIfInBounds offset value }
    | none => c
  else c

end Cartridge
end Handheld
