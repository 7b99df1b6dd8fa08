import Handheld.Screen.Basic

/-!
# Rasters

A picture as bytes: red, green and blue of each pixel, row by row.
-/

namespace Handheld

/-- A picture as bytes. -/
structure Raster where
  width : Nat
  height : Nat
  bytes : Array UInt8
  deriving DecidableEq, Repr, Inhabited

/-- Red, green and blue of a shade. -/
def Shade.rgb (s : Shade) : List UInt8 :=
  [(s.color >>> 16).toUInt8, (s.color >>> 8).toUInt8, s.color.toUInt8]

/-- The bytes of a line. -/
def PictureLine.rgb (line : PictureLine) : List UInt8 :=
  line.toList.flatMap (·.rgb)

/-- The picture as bytes. -/
def Picture.raster (p : Picture) : Raster where
  width := 160
  height := 144
  bytes := (p.toList.flatMap (·.rgb)).toArray

/-- A black picture of the same size. -/
def Raster.black : Raster where
  width := 160
  height := 144
  bytes := .replicate (160 * 144 * 3) 0

end Handheld
