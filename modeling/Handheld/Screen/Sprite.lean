import Handheld.Word

/-!
# Sprite memory

The sprite memory holds forty sprites of four bytes each: Y, X, tile and
attributes.  To find the sprites of a line without looking at all forty, the
memory also keeps the sprite numbers in sixteen buckets, by the high digit of
the Y byte.  A write to a Y byte moves its sprite to the end of the bucket of
the new value, unless it stays in its bucket.
-/

namespace Handheld

/-- A sprite with its number. -/
structure Sprite where
  y : UInt8
  x : UInt8
  tile : UInt8
  attributes : UInt8
  index : Fin 40
  deriving DecidableEq, Repr

namespace Sprite

/-- Whether the background hides the sprite where it is not of colour 0. -/
def behindBackground (s : Sprite) : Bool := s.attributes &&& 0x80 != 0

/-- Whether the sprite is drawn upside down. -/
def flipY (s : Sprite) : Bool := s.attributes &&& 0x40 != 0

/-- Whether the sprite is drawn mirrored. -/
def flipX (s : Sprite) : Bool := s.attributes &&& 0x20 != 0

/-- Whether the sprite uses the second sprite palette. -/
def secondPalette (s : Sprite) : Bool := s.attributes &&& 0x10 != 0

/-- Whether one sprite is drawn over the other: the smaller X wins, then the
smaller number. -/
def isOver (s t : Sprite) : Bool :=
  s.x < t.x || (s.x == t.x && s.index < t.index)

/-- Whether a sprite of the given height covers a line.  Y counts from 16
lines above the screen. -/
def covers (s : Sprite) (height line : Nat) : Bool :=
  s.y.toNat ≤ line + 16 && line + 16 < s.y.toNat + height

end Sprite

/-- The sprite memory and its buckets. -/
structure SpriteMemory where
  bytes : Vector UInt8 160
  buckets : Vector (List (Fin 40)) 16
  deriving DecidableEq, Repr

namespace SpriteMemory

/-- The bucket of a Y byte. -/
def bucketOf (y : UInt8) : Fin 16 :=
  ⟨y.toNat / 16, by have := y.toNat_lt; omega⟩

/-- The memory with all bytes zero, and so all sprites in the first bucket. -/
def blank : SpriteMemory where
  bytes := .replicate 160 0
  buckets := .ofFn fun bucket => if bucket = 0 then List.finRange 40 else []

/-- The Y byte of a sprite. -/
def yByte (m : SpriteMemory) (i : Fin 40) : UInt8 :=
  m.bytes.get ⟨4 * i.val, by omega⟩

/-- The sprite with number `i`. -/
def sprite (m : SpriteMemory) (i : Fin 40) : Sprite where
  y := m.yByte i
  x := m.bytes.get ⟨4 * i.val + 1, by omega⟩
  tile := m.bytes.get ⟨4 * i.val + 2, by omega⟩
  attributes := m.bytes.get ⟨4 * i.val + 3, by omega⟩
  index := i

/-- Moves sprite `i` from one bucket to the end of another. -/
def moveSprite (buckets : Vector (List (Fin 40)) 16) (i : Fin 40) (source target : Fin 16) :
    Vector (List (Fin 40)) 16 :=
  let buckets := buckets.set source ((buckets.get source).filter (· ≠ i))
  buckets.set target (buckets.get target ++ [i])

/-- The buckets after the Y byte of sprite `i` becomes `y`. -/
def rebucket (m : SpriteMemory) (i : Fin 40) (y : UInt8) : Vector (List (Fin 40)) 16 :=
  let source := bucketOf (m.yByte i)
  let target := bucketOf y
  if source = target then m.buckets else moveSprite m.buckets i source target

/-- Writes a byte. -/
def write (m : SpriteMemory) (offset : Fin 160) (value : UInt8) : SpriteMemory :=
  if offset.val % 4 = 0 then
    { buckets := m.rebucket ⟨offset.val / 4, by omega⟩ value
      bytes := m.bytes.set offset value }
  else { m with bytes := m.bytes.set offset value }

/-- The numbers in the two buckets that can hold sprites covering a line, in
the order in which they are looked at. -/
def candidates (m : SpriteMemory) (line : UInt8) : List (Fin 40) :=
  ((m.buckets.toList.drop (line.toNat / 16)).take 2).flatten

/-- The most sprites that a line shows. -/
def lineLimit : Nat := 10

/-- The sprites that a line shows: the first ten of those that cover it. -/
def lineSprites (m : SpriteMemory) (height : Nat) (line : UInt8) : List Sprite :=
  (((m.candidates line).map m.sprite).filter (·.covers height line.toNat)).take lineLimit

end SpriteMemory
end Handheld
