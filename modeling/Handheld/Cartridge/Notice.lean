import Handheld.Cartridge.Basic
import Handheld.Notice

/-!
# Notices on loading a cartridge
-/

namespace Handheld.Cartridge

/-- The notices on loading an image.  The type of the cartridge is looked at
before its size is compared with what the controller addresses. -/
def loadNotices (image : Array UInt8) : List Notice :=
  if image.size < Header.endAddress then [] else (Header.ofImage image).notices

/-- The notices on loading a cartridge from the file at `path`. -/
def fileNotices (path : String) (contents : FileContents) : List Notice :=
  match contents with
  | .error _ => []
  | .ok image =>
    loadNotices image ++
      match load image with
      | .ok c => [.cartridgeLoaded path c.header]
      | .error _ => []

end Handheld.Cartridge
