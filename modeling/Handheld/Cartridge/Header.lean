import Handheld.Text.Blank
import Handheld.Text.Utf8

/-!
# Cartridge headers

A cartridge image carries a header in its bytes 0134 to 0149.  It names the
title, the machines the cartridge supports, the kind of the cartridge and the
sizes of its memories.
-/

namespace Handheld

/-- How the cartridge maps its memories into the address space. -/
inductive Controller where
  /-- No banking. -/
  | romOnly
  /-- Banks are selected by writing to the addresses of the ROM. -/
  | mbc1
  deriving DecidableEq, Repr, Inhabited

/-- The controller's name in listings. -/
def Controller.name : Controller → String
  | .romOnly => "RomOnly"
  | .mbc1 => "Mbc1"

/-- The size of a ROM bank. -/
def romBankSize : Nat := 0x4000

/-- The size of a RAM bank. -/
def ramBankSize : Nat := 0x2000

/-- The most ROM a controller can address. -/
def Controller.maxRomSize : Controller → Nat
  | .romOnly => 2 * romBankSize
  | .mbc1 => 0x20 * romBankSize

/-- The most RAM a controller can address. -/
def Controller.maxRamSize : Controller → Nat
  | .romOnly => ramBankSize
  | .mbc1 => 4 * ramBankSize

/-- What the header says. -/
structure Header where
  title : String
  colorSupport : Bool
  superSupport : Bool
  typeCode : UInt8
  romSizeCode : UInt8
  ramSizeCode : UInt8
  deriving DecidableEq, Repr, Inhabited

namespace Header

/-- The bytes that the header takes up from the start of the image. -/
def endAddress : Nat := 0x0150

/-- The names of the cartridge types, by their code. -/
def typeNames : List String :=
  ["ROM ONLY", "MBC1", "MBC1+RAM", "MBC1+RAM+BATTERY", "invalid", "MBC2",
    "MBC2+BATTERY", "invalid", "ROM+RAM", "ROM+RAM+BATTERY", "invalid", "MMM01",
    "MMM01+RAM", "MMM01+RAM+BATTERY", "invalid", "MBC3+TIMER+BATTERY",
    "MBC3+TIMER+RAM+BATTERY", "MBC3", "MBC3+RAM", "MBC3+RAM+BATTERY", "invalid",
    "invalid", "invalid", "invalid", "invalid", "MBC5", "MBC5+RAM",
    "MBC5+RAM+BATTERY", "MBC5+RUMBLE", "MBC5+RUMBLE+RAM",
    "MBC5+RUMBLE+RAM+BATTERY", "invalid", "MBC6", "invalid",
    "MBC7+SENSOR+RUMBLE+RAM+BATTERY"]

/-- The name of the cartridge type. -/
def typeName (h : Header) : String :=
  typeNames.getD h.typeCode.toNat "invalid"

/-- The sizes of the ROM, by their code. -/
def romSizeNames : List String :=
  ["32KiB", "64KiB", "128KiB", "256KiB", "512KiB", "1MiB", "2MiB", "4MiB", "8MiB"]

/-- The size of the ROM in words. -/
def romSizeName (h : Header) : String :=
  romSizeNames.getD h.romSizeCode.toNat "Unknown"

/-- The size of the RAM in words. -/
def ramSizeName (h : Header) : String :=
  match h.ramSizeCode.toNat with
  | 0 => "No RAM"
  | 2 => "8KiB"
  | 3 => "32KiB"
  | 4 => "128KiB"
  | 5 => "64KiB"
  | _ => "Unknown"

/-- The size of the RAM that the header declares. -/
def ramSize (h : Header) : Nat :=
  match h.ramSizeCode.toNat with
  | 2 => ramBankSize
  | 3 => 4 * ramBankSize
  | 4 => 16 * ramBankSize
  | 5 => 8 * ramBankSize
  | _ => 0

/-- The controller of a supported cartridge type. -/
def controller? (h : Header) : Option Controller :=
  match h.typeCode.toNat with
  | 0 | 8 | 9 => some .romOnly
  | 1 | 2 | 3 => some .mbc1
  | _ => none

/-- The controller that is used.  An unsupported type is tried with banking. -/
def controller (h : Header) : Controller :=
  h.controller?.getD .mbc1

/-- The answer to a yes-or-no question. -/
def yesNo (b : Bool) : String :=
  if b then "Yes" else "No"

/-- The lines of a report on the header. -/
def reportLines (h : Header) : List String :=
  ["Title: " ++ h.title,
    "CGB Support: " ++ yesNo h.colorSupport,
    "SGB Support: " ++ yesNo h.superSupport,
    "Cart Type: " ++ h.typeName,
    "ROM Size: " ++ h.romSizeName,
    "RAM Size: " ++ h.ramSizeName]

/-- A report on the header. -/
def report (h : Header) : String :=
  "\n".intercalate h.reportLines

/-- The title in an image: the bytes 0134 to 0142 up to the first zero, read
as UTF-8, without the blanks at both ends. -/
def titleOf (image : Array UInt8) : String :=
  let bytes := (image.toList.drop 0x0134).take 15
  .ofList (Text.trimList (Text.Utf8.decodeLossy (bytes.takeWhile (· ≠ 0))))

/-- The header in an image.  Bytes behind the end of the image count as zero. -/
def ofImage (image : Array UInt8) : Header where
  title := titleOf image
  colorSupport := image.getD 0x0143 0 &&& 0x80 != 0
  superSupport := image.getD 0x0146 0 == 0x03
  typeCode := image.getD 0x0147 0
  romSizeCode := image.getD 0x0148 0
  ramSizeCode := image.getD 0x0149 0

end Header
end Handheld
