import Handheld.Cartridge.Header
import Handheld.Cpu.Basic
import Handheld.Instruction.Listing
import Handheld.Screen.Timing
import Handheld.Text.Field

/-!
# Notices

Some events in the machine are worth telling the user.  A notice says what
happened; its severity, the part of the machine that it comes from and its
wording follow from that.
-/

namespace Handheld

/-- How much a notice matters, the most severe first. -/
inductive Severity where
  | error
  | warn
  | info
  | debug
  | trace
  deriving DecidableEq, Repr, Inhabited

namespace Severity

/-- The severity's place in the order; the most severe is 1. -/
def rank : Severity → Nat
  | error => 1
  | warn => 2
  | info => 3
  | debug => 4
  | trace => 5

/-- The severity's name. -/
def name : Severity → String
  | error => "ERROR"
  | warn => "WARN"
  | info => "INFO"
  | debug => "DEBUG"
  | trace => "TRACE"

end Severity

/-- An event in the machine. -/
inductive Notice where
  /-- The cartridge is of a type whose controller is not known. -/
  | unsupportedType (header : Header)
  /-- A cartridge was loaded from a file. -/
  | cartridgeLoaded (path : String) (header : Header)
  /-- A program read an address behind the sprite memory. -/
  | unusableRead (address : UInt16)
  /-- A program wrote to an address behind the sprite memory. -/
  | unusableWrite (address : UInt16) (value : UInt8)
  /-- A program took off the boot ROM. -/
  | bootUnmapped
  /-- The CPU met an opcode that no instruction has. -/
  | unassignedOpcode (opcode : UInt8) (address : UInt16)
  /-- The screen changed its mode. -/
  | modeChange (change : Screen.ModeChange)
  /-- The CPU is about to execute an instruction. -/
  | executing (line : ListingLine) (cpu : Cpu)

namespace Notice

/-- How much the notice matters. -/
def severity : Notice → Severity
  | unsupportedType _ => .warn
  | cartridgeLoaded .. | bootUnmapped => .info
  | unusableRead _ | unusableWrite .. | unassignedOpcode .. => .debug
  | modeChange _ | executing .. => .trace

/-- The part of the machine that the notice comes from. -/
def source : Notice → String
  | unsupportedType _ | cartridgeLoaded .. => "dotboy_core::cartridge"
  | unusableRead _ | unusableWrite .. | bootUnmapped => "dotboy_core::mmu"
  | unassignedOpcode .. | executing .. => "dotboy_core::cpu"
  | modeChange _ => "dotboy_core::ppu"

open Text (hexByte hexWord) in
/-- The notice in words. -/
def text : Notice → String
  | unsupportedType header =>
    "Cartridge type " ++ hexByte header.typeCode ++ " (" ++ header.typeName ++
      ") is not supported; using MBC1 banking"
  | cartridgeLoaded path header => "Loaded ROM " ++ path ++ ":\n" ++ header.report
  | unusableRead address => "Read from unusable memory " ++ hexWord address
  | unusableWrite address value =>
    "Ignored write " ++ hexByte value ++ " to unusable memory " ++ hexWord address
  | bootUnmapped => "Boot ROM unmapped"
  | unassignedOpcode opcode address =>
    "Unassigned opcode " ++ hexByte opcode ++ " at " ++ hexWord address ++ " treated as NOP"
  | modeChange change =>
    "PPU mode " ++ change.source.name ++ " -> " ++ change.target.name ++
      " at LY=" ++ toString change.line.toNat
  | executing line cpu =>
    hexWord line.address ++ ": " ++ Text.Field.lay { width := 20 } line.text ++ " " ++
      cpu.summary

end Notice

/-! ## Cartridges -/

/-- The notices on a header: whether its cartridge type is supported. -/
def Header.notices (h : Header) : List Notice :=
  if h.controller?.isNone then [.unsupportedType h] else []

end Handheld
