import Handheld.Bus.Basic
import Handheld.Notice

/-!
# Notices on the use of the bus
-/

namespace Handheld.Bus

/-- The notices on reading an address. -/
def readNotices (address : UInt16) : List Notice :=
  match Place.ofAddress address with
  | .unusable => [.unusableRead address]
  | _ => []

/-- The notices on writing to an address. -/
def writeNotices (b : Bus) (address : UInt16) (value : UInt8) : List Notice :=
  match Place.ofAddress address with
  | .unusable => [.unusableWrite address value]
  | .screen r => (b.screen.changesOnWrite value r).map .modeChange
  | .bootSwitch =>
    if value ≠ 0 ∧ b.bootDisabled = false then [.bootUnmapped] else []
  | _ => []

/-- The notices on writing bytes to addresses, one after another. -/
def writeAllNotices (b : Bus) : List (UInt16 × UInt8) → List Notice
  | [] => []
  | (address, value) :: rest =>
    b.writeNotices address value ++ (b.write address value).writeAllNotices rest

/-- The notices while the screen runs. -/
def screenNotices (b : Bus) (cycles : Nat) : List Notice :=
  (b.screen.changesIn cycles).map .modeChange

end Handheld.Bus
