import Handheld.Screen.Basic

/-!
# Drawing a line

A pixel shows the background or, where it covers, the window; a sprite that is
not transparent there lies over it.  Background and window are made of tiles
of eight by eight pixels, which two maps arrange in a square of 32 by 32
tiles.  A tile row takes two bytes of the video memory: the low and the high
bits of the colours of its eight pixels.
-/

namespace Handheld

/-- The number of a colour in a palette. -/
abbrev ColorIndex := Fin 4

/-- The shade that a palette register gives a colour. -/
def paletteShade (palette : UInt8) (color : ColorIndex) : Shade :=
  ⟨palette.toNat >>> (2 * color.val) % 4, Nat.mod_lt _ (by decide)⟩

namespace Screen

/-! ## Tiles -/

/-- Rows of tiles in the video memory: 384 tiles of eight rows. -/
abbrev TileRow := Fin 3072

/-- The colour of a pixel of a tile row.  Column 0 is the leftmost, in the
highest bits. -/
def tileColor (s : Screen) (row : TileRow) (column : Fin 8) : ColorIndex :=
  let low := s.vram.get ⟨2 * row.val, by omega⟩
  let high := s.vram.get ⟨2 * row.val + 1, by omega⟩
  let bit := 7 - column.val
  ⟨2 * (high.toNat >>> bit % 2) + low.toNat >>> bit % 2, by omega⟩

/-- A row of the tile that a map entry names.  Signed entries count from tile
256, so that entries from 128 on name the tiles below it. -/
def mapTileRow (unsignedTiles : Bool) (entry : UInt8) (row : Fin 8) : TileRow :=
  have := entry.toNat_lt
  if h : unsignedTiles = false ∧ entry.toNat < 128 then
    ⟨8 * (256 + entry.toNat) + row.val, by omega⟩
  else ⟨8 * entry.toNat + row.val, by omega⟩

/-- The entry of a tile map for a point of the square that it arranges. -/
def mapEntry (s : Screen) (second : Bool) (x y : UInt8) : UInt8 :=
  have hx := x.toNat_lt
  have hy := y.toNat_lt
  let cell := 32 * (y.toNat / 8) + x.toNat / 8
  if second then s.vram.get ⟨0x1C00 + cell, by omega⟩
  else s.vram.get ⟨0x1800 + cell, by omega⟩

/-- The colour of a point of the square that a tile map arranges. -/
def mapColor (s : Screen) (second : Bool) (x y : UInt8) : ColorIndex :=
  let row := mapTileRow s.unsignedTiles (s.mapEntry second x y) (.ofNat 8 y.toNat)
  s.tileColor row (.ofNat 8 x.toNat)

/-! ## Background and window -/

/-- Whether the window covers column `x` of the current line.  Its left edge
is at WX - 7; it vanishes for WX from 166 and WY from 143 on. -/
def windowCovers (s : Screen) (x : Fin 160) : Bool :=
  s.windowEnabled && s.windowY ≤ s.line && s.windowX.toNat ≤ x.val + 7 &&
    s.windowX < 166 && s.windowY < 143

/-- The background colour of column `x` of the current line. -/
def backgroundColor (s : Screen) (x : Fin 160) : ColorIndex :=
  if !s.backgroundEnabled then 0
  else if s.windowCovers x then
    s.mapColor s.windowMap ((x.val + 7).toUInt8 - s.windowX) (s.line - s.windowY)
  else s.mapColor s.backgroundMap (x.val.toUInt8 + s.scrollX) (s.line + s.scrollY)

/-! ## Sprites -/

/-- The row of a sprite that lies on the current line, from its top. -/
def spriteRow (s : Screen) (sprite : Sprite) : Nat :=
  let row := s.line.toNat + 16 - sprite.y.toNat
  if sprite.flipY then s.spriteHeight - 1 - row else row

/-- The tile row that a sprite shows on the current line.  A tall sprite is
made of two tiles, of which the first has an even number. -/
def spriteTileRow (s : Screen) (sprite : Sprite) : TileRow :=
  let tile := if s.spriteHeight = 16 then sprite.tile &&& 0xFE else sprite.tile
  .ofNat 3072 (8 * tile.toNat + s.spriteRow sprite)

/-- The colour of a sprite at column `x`.  Colour 0 is transparent, and the
sprite is transparent beside itself; its X counts from 8 columns to the left
of the screen. -/
def spriteColor (s : Screen) (sprite : Sprite) (x : Fin 160) : ColorIndex :=
  if h : sprite.x.toNat ≤ x.val + 8 ∧ x.val + 8 < sprite.x.toNat + 8 then
    let column : Fin 8 := ⟨x.val + 8 - sprite.x.toNat, by omega⟩
    s.tileColor (s.spriteTileRow sprite) (if sprite.flipX then column.rev else column)
  else 0

/-- Of a sprite and the one found before it, with their colours, the one that
shows. -/
def betterSprite (s : Screen) (x : Fin 160) (best : Option (Sprite × ColorIndex))
    (sprite : Sprite) : Option (Sprite × ColorIndex) :=
  let color := s.spriteColor sprite x
  if color = 0 then best
  else
    match best with
    | none => some (sprite, color)
    | some (other, _) => if sprite.isOver other then some (sprite, color) else best

/-- The sprite that shows at column `x`, with its colour there. -/
def visibleSprite (s : Screen) (sprites : List Sprite) (x : Fin 160) :
    Option (Sprite × ColorIndex) :=
  sprites.foldl (s.betterSprite x) none

/-- The palette of a sprite. -/
def spritePalette (s : Screen) (sprite : Sprite) : UInt8 :=
  if sprite.secondPalette then s.spritePalette1 else s.spritePalette0

/-! ## Lines -/

/-- The shade of column `x` of the current line under the given sprites. -/
def pixel (s : Screen) (sprites : List Sprite) (x : Fin 160) : Shade :=
  let background := s.backgroundColor x
  match s.visibleSprite sprites x with
  | some (sprite, color) =>
    if sprite.behindBackground && background ≠ 0 then
      paletteShade s.backgroundPalette background
    else paletteShade (s.spritePalette sprite) color
  | none => paletteShade s.backgroundPalette background

/-- The sprites that the current line shows. -/
def lineSprites (s : Screen) : List Sprite :=
  if s.spritesEnabled then s.sprites.lineSprites s.spriteHeight s.line else []

/-- The current line as it is drawn. -/
def drawnLine (s : Screen) : PictureLine :=
  let sprites := s.lineSprites
  .ofFn fun x => s.pixel sprites x

/-- Draws the current line into the picture, if it is a visible one. -/
def drawLine (s : Screen) : Screen :=
  if h : s.line.toNat < 144 then
    let drawn := s.drawnLine
    { s with picture := s.picture.set s.line.toNat drawn }
  else s

end Screen
end Handheld
