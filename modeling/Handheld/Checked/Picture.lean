import Handheld.Checked.Arithmetic
import Handheld.Screen.Picture

/-!
# Drawing with checked arithmetic

Most numbers that place a pixel are bytes: lines, columns, rows of a sprite.
Their sums and differences have to be bytes again.  Addresses in the video
memory are computed by the bits of those numbers.
-/

namespace Handheld.Checked

/-! ## Tiles -/

/-- The colour of a pixel, in bit `bit` of the two bytes at an address of the
video memory. -/
def tileBits (s : Screen) (address bit : Nat) : Result Nat := do
  let low ← get s.vram (address &&& 0x1FFF)
  let next ← add .index address 1
  let high ← get s.vram (next &&& 0x1FFF)
  let highBit ← shiftRight .byte high.toNat bit
  let lowBit ← shiftRight .byte low.toNat bit
  return ((highBit &&& 1) <<< 1) ||| (lowBit &&& 1)

/-- The address of the tile that a map entry names. -/
def tileAddress (s : Screen) (entry : UInt8) : Result Nat := do
  if s.unsignedTiles then mul .index entry.toNat 16
  else
    let offset ← mulSigned .index (signedValue entry) 16
    let address ← addSigned .index 0x1000 offset
    return address.toNat

/-- The start of a tile map. -/
def mapStart (second : Bool) : Nat :=
  if second then 0x1C00 else 0x1800

/-- The colour of a point of the square that a tile map arranges. -/
def mapColor (s : Screen) (second : Bool) (x y : Nat) : Result Nat := do
  let cell := (((y >>> 3) <<< 5) ||| (x >>> 3)) &&& 0x3FF
  let entry ← get s.vram (← add .index (mapStart second) cell)
  let tile ← tileAddress s entry
  let row ← mul .index (y &&& 7) 2
  let address ← add .index tile row
  let bit ← sub 7 (x &&& 7)
  tileBits s address bit

/-! ## Background and window -/

/-- Whether the window covers column `x` of the current line. -/
def windowCovers (s : Screen) (x : Nat) : Result Bool := do
  if s.windowEnabled && s.windowY ≤ s.line then
    let column ← add .word x 7
    return s.windowX.toNat ≤ column && s.windowX < 166 && s.windowY < 143
  else return false

/-- The background colour of column `x` of the current line. -/
def backgroundColor (s : Screen) (x : Nat) : Result Nat := do
  if !s.backgroundEnabled then return 0
  else if ← windowCovers s x then
    let column ← sub (← add .byte x 7) s.windowX.toNat
    let row ← sub s.line.toNat s.windowY.toNat
    mapColor s s.windowMap column row
  else mapColor s s.backgroundMap (x.toUInt8 + s.scrollX).toNat (s.line + s.scrollY).toNat

/-! ## Sprites -/

/-- The row of a sprite that lies on the current line, from its top. -/
def spriteRow (s : Screen) (sprite : Sprite) : Result Nat := do
  let row ← sub (← add .byte s.line.toNat 16) sprite.y.toNat
  if sprite.flipY then sub (← sub s.spriteHeight 1) row else return row

/-- The colour of a sprite at column `x`, zero beside the sprite. -/
def spriteColor (s : Screen) (sprite : Sprite) (x : Nat) : Result Nat := do
  let edge ← add .word x 8
  let column := (edge.toUInt16 - sprite.x.toUInt16).toNat
  if 8 ≤ column then return 0
  else
    let row ← spriteRow s sprite
    let tile := if s.spriteHeight = 16 then sprite.tile &&& 0xFE else sprite.tile
    let bit ← if sprite.flipX then pure column else sub 7 column
    let start ← mul .index tile.toNat 16
    let offset ← mul .index row 2
    tileBits s (← add .index start offset) bit

/-- Of a sprite and the one found before it, with their colours, the one that
shows. -/
def betterSprite (s : Screen) (x : Nat) (best : Option (Sprite × Nat)) (sprite : Sprite) :
    Result (Option (Sprite × Nat)) := do
  let color ← spriteColor s sprite x
  if color = 0 then return best
  else
    match best with
    | none => return some (sprite, color)
    | some (other, _) => return if sprite.isOver other then some (sprite, color) else best

/-- The sprite that shows at column `x`, with its colour there. -/
def visibleSprite (s : Screen) (sprites : List Sprite) (x : Nat) :
    Result (Option (Sprite × Nat)) :=
  sprites.foldlM (betterSprite s x) none

/-- The sprite numbers of a bucket; there is none behind the last bucket. -/
def bucket (m : SpriteMemory) (n : Nat) : Result (List (Fin 40)) :=
  if n < 16 then get m.buckets n else return []

/-- Adds a sprite to those of a line if it covers the line and there are fewer
than ten. -/
def addSprite (s : Screen) (found : List Sprite) (number : Fin 40) : Result (List Sprite) := do
  if found.length = SpriteMemory.lineLimit then return found
  else
    let start ← mul .index number.val 4
    let y ← get s.sprites.bytes start
    let line ← add .word s.line.toNat 16
    if y.toNat ≤ line then
      if (← sub line y.toNat) < s.spriteHeight then
        let x ← get s.sprites.bytes (← add .index start 1)
        let tile ← get s.sprites.bytes (← add .index start 2)
        let attributes ← get s.sprites.bytes (← add .index start 3)
        require (found.length < SpriteMemory.lineLimit) .index
        return found ++ [{ y, x, tile, attributes, index := number }]
      else return found
    else return found

/-- The sprites that the current line shows. -/
def lineSprites (s : Screen) : Result (List Sprite) := do
  if s.spritesEnabled then
    let first := s.line.toNat >>> 4
    let numbers := (← bucket s.sprites first) ++ (← bucket s.sprites (← add .index first 1))
    numbers.foldlM (addSprite s) []
  else return []

/-! ## Lines -/

/-- The shade that a palette register gives a colour. -/
def paletteShade (palette : UInt8) (color : Nat) : Result Nat := do
  require (color ≤ 3) .assertion
  let amount ← mul .byte (min color 3) 2
  return (← shiftRight .byte palette.toNat amount) &&& 3

/-- The shade with a number. -/
def shade (n : Nat) : Result Shade :=
  if h : n < 4 then return ⟨n, h⟩ else .error .index

/-- The shade of column `x` of the current line under the given sprites. -/
def pixel (s : Screen) (sprites : List Sprite) (x : Nat) : Result Shade := do
  let start ← mul .index s.line.toNat 160
  require ((← add .index start x) < 144 * 160) .index
  let background ← backgroundColor s x
  let behind ← paletteShade s.backgroundPalette background
  match ← visibleSprite s sprites x with
  | some (sprite, color) =>
    if sprite.behindBackground && background ≠ 0 then shade behind
    else shade (← paletteShade (s.spritePalette sprite) color)
  | none => shade behind

/-- Draws the current line into the picture, if it is a visible one. -/
def drawLine (s : Screen) : Result Screen := do
  if 144 ≤ s.line.toNat then return s
  else
    let sprites ← lineSprites s
    require (sprites.length ≤ SpriteMemory.lineLimit) .assertion
    let drawn ← Vector.ofFnM (n := 160) fun x => pixel s sprites x.val
    return { s with picture := ← set s.picture s.line.toNat drawn }

end Handheld.Checked
