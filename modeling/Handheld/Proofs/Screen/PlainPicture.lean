import Mathlib.Data.List.MinMax
import Mathlib.Data.Prod.Lex
import Handheld.Proofs.Screen.LineSprites

/-!
# A plain picture

A line is drawn the same as a plain renderer draws it, which looks at all forty
sprites for every pixel and knows nothing of buckets.  The plain renderer works
on the bytes of the memories and on bit numbers, with plain numbers throughout.

There are five groups.

* The plain renderer.  `PlainScreen` holds what a line is drawn from, and
  `PlainScreen.pixel` is the shade of one pixel.
* Bits and bytes.  What the screen reads with masks and bounded offsets is what
  the plain renderer reads with bit numbers.
* Background and window.
* Sprites.  `visibleSprite_plain` identifies the sprite that the scan ends at with
  the one that the plain renderer picks out of all forty.
* Lines.  `drawLine_eq_plain` puts the two renderers side by side.
-/

namespace Handheld

/-! ## The plain renderer -/

/-- What a line is drawn from: the bytes of the two memories, and the
registers. -/
structure PlainScreen where
  vram : Vector UInt8 0x2000
  oam : Vector UInt8 160
  control : UInt8
  scrollY : UInt8
  scrollX : UInt8
  line : UInt8
  backgroundPalette : UInt8
  spritePalette0 : UInt8
  spritePalette1 : UInt8
  windowY : UInt8
  windowX : UInt8

namespace PlainScreen

/-- A bit of the control register. -/
def controlBit (p : PlainScreen) (bit : Nat) : Bool :=
  p.control.toNat.testBit bit

/-- A byte of the video memory. -/
def video (p : PlainScreen) (address : Nat) : Nat :=
  (p.vram[address]?.getD 0).toNat

/-- The colour that two bytes of the video memory give one of eight pixels. -/
def tileColor (p : PlainScreen) (address bit : Nat) : Nat :=
  2 * ((p.video (address + 1)).testBit bit).toNat + ((p.video address).testBit bit).toNat

/-- A byte as a signed number. -/
def signed (byte : Nat) : Int :=
  if byte < 128 then byte else byte - 256

/-- The address of a tile that a map names. -/
def tileAddress (p : PlainScreen) (tile : Nat) : Nat :=
  if p.controlBit 4 then 16 * tile else (0x1000 + 16 * signed tile).toNat

/-- The colour of a point of the square that a tile map arranges. -/
def mapColor (p : PlainScreen) (second : Bool) (x y : Nat) : Nat :=
  let tile := p.video ((if second then 0x1C00 else 0x1800) + (32 * (y / 8) + x / 8))
  p.tileColor (p.tileAddress tile + 2 * (y % 8)) (7 - x % 8)

/-- Whether the window covers a column of the line. -/
def WindowCovers (p : PlainScreen) (x : Nat) : Prop :=
  p.controlBit 5 = true ∧ p.windowY.toNat ≤ p.line.toNat ∧ p.windowX.toNat ≤ x + 7 ∧
    p.windowX.toNat < 166 ∧ p.windowY.toNat < 143

instance (p : PlainScreen) (x : Nat) : Decidable (p.WindowCovers x) :=
  inferInstanceAs (Decidable (_ ∧ _ ∧ _ ∧ _ ∧ _))

/-- The colour of background and window at a column of the line. -/
def backgroundColor (p : PlainScreen) (x : Nat) : Nat :=
  if p.controlBit 0 = false then 0
  else if p.WindowCovers x then
    p.mapColor (p.controlBit 6) (x + 7 - p.windowX.toNat) (p.line.toNat - p.windowY.toNat)
  else
    p.mapColor (p.controlBit 3) ((x + p.scrollX.toNat) % 256)
      ((p.line.toNat + p.scrollY.toNat) % 256)

/-- A byte of a sprite: Y, X, tile and attributes, in this order. -/
def spriteByte (p : PlainScreen) (i : Fin 40) (k : Nat) : Nat :=
  (p.oam[4 * i.val + k]?.getD 0).toNat

/-- The height of the sprites. -/
def height (p : PlainScreen) : Nat :=
  if p.controlBit 2 then 16 else 8

/-- Whether a sprite covers the line. -/
def Covers (p : PlainScreen) (i : Fin 40) : Prop :=
  p.spriteByte i 0 ≤ p.line.toNat + 16 ∧ p.line.toNat + 16 < p.spriteByte i 0 + p.height

instance (p : PlainScreen) (i : Fin 40) : Decidable (p.Covers i) :=
  inferInstanceAs (Decidable (_ ∧ _))

/-- The colour of a sprite that covers the line at a column, 0 where it is
transparent and beside it. -/
def spriteColor (p : PlainScreen) (i : Fin 40) (x : Nat) : Nat :=
  let left := p.spriteByte i 1
  let attributes := p.spriteByte i 3
  if left ≤ x + 8 ∧ x + 8 < left + 8 then
    let column := x + 8 - left
    let row := p.line.toNat + 16 - p.spriteByte i 0
    let row := if attributes.testBit 6 then p.height - 1 - row else row
    let tile := p.spriteByte i 2
    let tile := if p.height = 16 then tile - tile % 2 else tile
    p.tileColor (16 * tile + 2 * row) (if attributes.testBit 5 then column else 7 - column)
  else 0

/-- The sprites that cover the line and are not transparent at a column. -/
def opaqueSprites (p : PlainScreen) (x : Nat) : List (Fin 40) :=
  (List.finRange 40).filter fun i => p.Covers i ∧ p.spriteColor i x ≠ 0

/-- The sprite that shows at a column: of all that are not transparent there,
the one with the least X, and of these the one with the least number. -/
def shownSprite (p : PlainScreen) (x : Nat) : Option (Fin 40) :=
  if p.controlBit 1 then (p.opaqueSprites x).argmin fun i => toLex (p.spriteByte i 1, i)
  else none

/-- The shade that a palette gives a colour. -/
def shade (palette : UInt8) (color : Nat) : Nat :=
  palette.toNat / 4 ^ color % 4

/-- The shade of a column of the line. -/
def pixel (p : PlainScreen) (x : Nat) : Nat :=
  let background := p.backgroundColor x
  match p.shownSprite x with
  | none => shade p.backgroundPalette background
  | some i =>
    let attributes := p.spriteByte i 3
    if attributes.testBit 7 ∧ background ≠ 0 then shade p.backgroundPalette background
    else
      shade (if attributes.testBit 4 then p.spritePalette1 else p.spritePalette0)
        (p.spriteColor i x)

/-- The colours of the four shades. -/
def colors : List UInt32 :=
  [0x00E8FCCC, 0x00ACD490, 0x00548C70, 0x00142C38]

/-- How many of the forty sprites cover the line. -/
def coveringCount (p : PlainScreen) : Nat :=
  (List.finRange 40).countP fun i => p.Covers i

end PlainScreen

namespace Screen

/-- The screen without its buckets. -/
def plain (s : Screen) : PlainScreen where
  vram := s.vram
  oam := s.sprites.bytes
  control := s.control
  scrollY := s.scrollY
  scrollX := s.scrollX
  line := s.line
  backgroundPalette := s.backgroundPalette
  spritePalette0 := s.spritePalette0
  spritePalette1 := s.spritePalette1
  windowY := s.windowY
  windowX := s.windowX

/-! ## Bits and bytes -/

theorem video_plain (s : Screen) {address : Nat} (h : address < 0x2000) :
    s.plain.video address = (s.vram.get ⟨address, h⟩).toNat := by
  have hbyte : s.vram[address]? = some (s.vram.get ⟨address, h⟩) :=
    Vector.getElem?_eq_getElem h
  rw [PlainScreen.video, plain, hbyte, Option.getD_some]

theorem spriteByte_plain (s : Screen) (i : Fin 40) :
    (s.sprites.sprite i).y.toNat = s.plain.spriteByte i 0 ∧
      (s.sprites.sprite i).x.toNat = s.plain.spriteByte i 1 ∧
      (s.sprites.sprite i).tile.toNat = s.plain.spriteByte i 2 ∧
      (s.sprites.sprite i).attributes.toNat = s.plain.spriteByte i 3 := by
  have hbyte : ∀ (k : Nat) (hk : 4 * i.val + k < 160),
      (s.sprites.bytes.get ⟨4 * i.val + k, hk⟩).toNat = s.plain.spriteByte i k := by
    intro k hk
    have hget : s.sprites.bytes[4 * i.val + k]? =
        some (s.sprites.bytes.get ⟨4 * i.val + k, hk⟩) := Vector.getElem?_eq_getElem hk
    rw [PlainScreen.spriteByte, plain, hget, Option.getD_some]
  exact ⟨hbyte 0 (by omega), hbyte 1 (by omega), hbyte 2 (by omega), hbyte 3 (by omega)⟩

theorem attributeBit_plain (s : Screen) (i : Fin 40) (mask : UInt8) (bit : Nat)
    (h : mask.toNat = 1 <<< bit) :
    ((s.sprites.sprite i).attributes &&& mask != 0) = (s.plain.spriteByte i 3).testBit bit := by
  rw [← (s.spriteByte_plain i).2.2.2]
  exact and_mask_eq_testBit _ mask bit h

theorem toNat_testBit_eq (byte bit : Nat) : (byte.testBit bit).toNat = byte >>> bit % 2 := by
  rw [Nat.toNat_testBit, Nat.shiftRight_eq_div_pow]

theorem tileColor_plain (s : Screen) (row : TileRow) (column : Fin 8) :
    (s.tileColor row column).val = s.plain.tileColor (2 * row.val) (7 - column.val) := by
  have hrow := row.isLt
  rw [PlainScreen.tileColor, s.video_plain (by omega), s.video_plain (by omega),
    toNat_testBit_eq, toNat_testBit_eq]
  rfl

/-! ## Background and window -/

theorem mapTileRow_plain (s : Screen) (entry : UInt8) (row : Fin 8) :
    2 * (mapTileRow s.unsignedTiles entry row).val =
      s.plain.tileAddress entry.toNat + 2 * row.val := by
  have hbit : s.unsignedTiles = s.plain.controlBit 4 := and_mask_eq_testBit _ _ 4 rfl
  have hentry := entry.toNat_lt
  rw [mapTileRow, PlainScreen.tileAddress, hbit, PlainScreen.signed]
  cases s.plain.controlBit 4 with
  | true =>
    simp only [Bool.true_eq_false, false_and, dite_false, if_true]
    omega
  | false =>
    by_cases hlow : entry.toNat < 128
    · rw [dif_pos ⟨rfl, hlow⟩, if_pos hlow]
      simp only [Bool.false_eq_true, if_false]
      omega
    · rw [dif_neg (fun h => hlow h.2), if_neg hlow]
      simp only [Bool.false_eq_true, if_false]
      omega

theorem mapEntry_plain (s : Screen) (second : Bool) (x y : UInt8) :
    (s.mapEntry second x y).toNat = s.plain.video
      ((if second then 0x1C00 else 0x1800) + (32 * (y.toNat / 8) + x.toNat / 8)) := by
  have hx := x.toNat_lt
  have hy := y.toNat_lt
  have hcell : 32 * (y.toNat / 8) + x.toNat / 8 < 0x0400 := by omega
  rw [mapEntry]
  cases second with
  | true =>
    have hoffset : 0x1C00 + (32 * (y.toNat / 8) + x.toNat / 8) < 0x2000 := by omega
    exact (s.video_plain hoffset).symm
  | false =>
    have hoffset : 0x1800 + (32 * (y.toNat / 8) + x.toNat / 8) < 0x2000 := by omega
    exact (s.video_plain hoffset).symm

theorem mapColor_plain (s : Screen) (second : Bool) (x y : UInt8) :
    (s.mapColor second x y).val = s.plain.mapColor second x.toNat y.toNat := by
  rw [mapColor, tileColor_plain, mapTileRow_plain, mapEntry_plain]
  rfl

theorem windowCovers_plain (s : Screen) (x : Fin 160) :
    s.windowCovers x = true ↔ s.plain.WindowCovers x.val := by
  have hbit : s.windowEnabled = s.plain.controlBit 5 := and_mask_eq_testBit _ _ 5 rfl
  simp only [windowCovers, PlainScreen.WindowCovers, hbit, Bool.and_eq_true,
    decide_eq_true_iff, UInt8.le_iff_toNat_le, UInt8.lt_iff_toNat_lt, and_assoc]
  rfl

theorem backgroundColor_plain (s : Screen) (x : Fin 160) :
    (s.backgroundColor x).val = s.plain.backgroundColor x.val := by
  have hbackground : s.backgroundEnabled = s.plain.controlBit 0 := and_mask_eq_testBit _ _ 0 rfl
  have hwindowMap : s.windowMap = s.plain.controlBit 6 := and_mask_eq_testBit _ _ 6 rfl
  have hbackgroundMap : s.backgroundMap = s.plain.controlBit 3 := and_mask_eq_testBit _ _ 3 rfl
  have hx := x.isLt
  rw [backgroundColor, PlainScreen.backgroundColor, hbackground]
  cases s.plain.controlBit 0 with
  | false => rfl
  | true =>
    simp only [Bool.not_true, Bool.false_eq_true, Bool.true_eq_false, if_false]
    by_cases hcovers : s.windowCovers x = true
    · have hplain := s.windowCovers_plain x |>.1 hcovers
      rw [if_pos hcovers, if_pos hplain, mapColor_plain, hwindowMap]
      obtain ⟨_, hwy, hwx, _, _⟩ := hplain
      have hcolumn : (x.val + 7).toUInt8.toNat = x.val + 7 := by
        rw [Nat.toUInt8, UInt8.toNat_ofNat', Nat.mod_eq_of_lt (by omega)]
      have hleft : s.windowX ≤ (x.val + 7).toUInt8 := by
        rw [UInt8.le_iff_toNat_le, hcolumn]
        exact hwx
      have hbelow : s.windowY ≤ s.line := hwy
      rw [UInt8.toNat_sub_of_le _ _ hleft, UInt8.toNat_sub_of_le _ _ hbelow, hcolumn]
      rfl
    · rw [if_neg hcovers, if_neg (fun h => hcovers (s.windowCovers_plain x |>.2 h)),
        mapColor_plain, hbackgroundMap]
      have hcolumn : x.val.toUInt8.toNat = x.val := by
        rw [Nat.toUInt8, UInt8.toNat_ofNat', Nat.mod_eq_of_lt (by omega)]
      rw [UInt8.toNat_add, UInt8.toNat_add, hcolumn]
      rfl

/-! ## Sprites -/

theorem height_plain (s : Screen) : s.spriteHeight = s.plain.height := by
  have hbit : (s.control &&& 0x04 != 0) = s.plain.controlBit 2 := and_mask_eq_testBit _ _ 2 rfl
  rw [spriteHeight, hbit, PlainScreen.height]

theorem height_le (s : Screen) : s.spriteHeight ≤ 16 := by
  rw [spriteHeight]
  split <;> decide

theorem covers_plain (s : Screen) (i : Fin 40) :
    (s.sprites.sprite i).covers s.spriteHeight s.line.toNat = true ↔ s.plain.Covers i := by
  rw [Sprite.covers, Bool.and_eq_true, decide_eq_true_iff, decide_eq_true_iff, height_plain,
    (s.spriteByte_plain i).1]
  rfl

theorem covering_plain (s : Screen) :
    s.sprites.covering s.spriteHeight s.line =
      (List.finRange 40).filter fun i => s.plain.Covers i := by
  rw [SpriteMemory.covering]
  congr 1
  funext i
  rw [Bool.eq_iff_iff, covers_plain, decide_eq_true_iff]

theorem length_covering_plain (s : Screen) :
    (s.sprites.covering s.spriteHeight s.line).length = s.plain.coveringCount := by
  rw [covering_plain, PlainScreen.coveringCount, List.countP_eq_length_filter]

/-- The row of a sprite that lies on a line that it covers is one of its own. -/
theorem spriteRow_plain (s : Screen) {i : Fin 40} (h : s.plain.Covers i) :
    s.spriteRow (s.sprites.sprite i) =
        (if (s.plain.spriteByte i 3).testBit 6
          then s.plain.height - 1 - (s.plain.line.toNat + 16 - s.plain.spriteByte i 0)
          else s.plain.line.toNat + 16 - s.plain.spriteByte i 0) ∧
      s.spriteRow (s.sprites.sprite i) < 16 := by
  have hy := (s.spriteByte_plain i).1
  have hflip : (s.sprites.sprite i).flipY = (s.plain.spriteByte i 3).testBit 6 :=
    s.attributeBit_plain i 0x40 6 rfl
  have hheight := s.height_le
  obtain ⟨hfrom, hto⟩ := h
  have hline : s.line = s.plain.line := rfl
  rw [spriteRow, hflip, hy, hline, height_plain]
  rw [height_plain] at hheight
  refine ⟨rfl, ?_⟩
  split <;> omega

/-- The number of the first of the two tiles of a tall sprite. -/
theorem toNat_and_FE (byte : UInt8) : (byte &&& 0xFE).toNat = byte.toNat - byte.toNat % 2 := by
  have hall : ∀ n < 256, (UInt8.ofNat n &&& 0xFE).toNat = n - n % 2 := by
    decide +kernel
  have hbyte := hall byte.toNat byte.toNat_lt
  rwa [UInt8.ofNat_toNat] at hbyte

theorem spriteTileRow_plain (s : Screen) {i : Fin 40} (h : s.plain.Covers i) :
    2 * (s.spriteTileRow (s.sprites.sprite i)).val =
      16 * (if s.plain.height = 16 then s.plain.spriteByte i 2 - s.plain.spriteByte i 2 % 2
          else s.plain.spriteByte i 2) + 2 * s.spriteRow (s.sprites.sprite i) := by
  obtain ⟨_, hrow⟩ := s.spriteRow_plain h
  have htile := (s.spriteByte_plain i).2.2.1
  have hlt := (s.sprites.sprite i).tile.toNat_lt
  rw [spriteTileRow, ← height_plain, ← htile, Fin.val_ofNat]
  split_ifs with htall
  · rw [toNat_and_FE, Nat.mod_eq_of_lt (by omega)]
    omega
  · rw [Nat.mod_eq_of_lt (by omega)]
    omega

theorem spriteColor_plain (s : Screen) {i : Fin 40} (h : s.plain.Covers i) (x : Fin 160) :
    (s.spriteColor (s.sprites.sprite i) x).val = s.plain.spriteColor i x.val := by
  have hx := (s.spriteByte_plain i).2.1
  have hflip : (s.sprites.sprite i).flipX = (s.plain.spriteByte i 3).testBit 5 :=
    s.attributeBit_plain i 0x20 5 rfl
  rw [spriteColor, PlainScreen.spriteColor, ← hx, hflip]
  by_cases hbeside : (s.sprites.sprite i).x.toNat ≤ x.val + 8 ∧
      x.val + 8 < (s.sprites.sprite i).x.toNat + 8
  · rw [dif_pos hbeside, if_pos hbeside]
    simp only
    rw [tileColor_plain, spriteTileRow_plain s h, (s.spriteRow_plain h).1]
    congr 1
    split
    · rw [Fin.val_rev]
      simp only
      omega
    · rfl
  · rw [dif_neg hbeside, if_neg hbeside]
    rfl

theorem mem_opaqueSprites {s : Screen} {i : Fin 40} {x : Fin 160} :
    i ∈ s.plain.opaqueSprites x.val ↔
      s.plain.Covers i ∧ s.spriteColor (s.sprites.sprite i) x ≠ 0 := by
  simp only [PlainScreen.opaqueSprites, List.mem_filter, List.mem_finRange, true_and,
    decide_eq_true_iff]
  refine and_congr_right fun hcovers => ?_
  rw [← spriteColor_plain s hcovers, ne_eq, ne_eq, Fin.ext_iff]
  rfl

/-- If at most ten sprites cover the line, it shows all of them. -/
theorem mem_lineSprites {s : Screen} (h : s.sprites.Filed) (hfew : s.plain.coveringCount ≤ 10)
    {t : Sprite} :
    t ∈ s.sprites.lineSprites s.spriteHeight s.line ↔
      ∃ i, s.plain.Covers i ∧ t = s.sprites.sprite i := by
  rw [← length_covering_plain] at hfew
  have hperm := h.perm_take_found s.height_le hfew
  rw [SpriteMemory.lineSprites_eq, List.mem_map]
  refine exists_congr fun i => ?_
  rw [hperm.mem_iff, covering_plain, List.mem_filter, decide_eq_true_iff, eq_comm]
  exact and_congr_left fun _ => and_iff_right (List.mem_finRange i)

theorem key_le_of_lex_le {s : Screen} {i j : Fin 40}
    (h : toLex (s.plain.spriteByte i 1, i) ≤ toLex (s.plain.spriteByte j 1, j)) :
    (s.sprites.sprite i).key < (s.sprites.sprite j).key ∨ i = j := by
  have hi := i.isLt
  have hindex : (s.sprites.sprite i).index = i := rfl
  have hindex' : (s.sprites.sprite j).index = j := rfl
  rw [Prod.Lex.toLex_le_toLex] at h
  simp only [Fin.le_def] at h
  rw [Sprite.key, Sprite.key, hindex, hindex', (s.spriteByte_plain i).2.1,
    (s.spriteByte_plain j).2.1, Fin.ext_iff]
  omega

/-- The scan through the sprites of a line ends at the sprite that a look at
all forty picks. -/
theorem visibleSprite_plain {s : Screen} (h : s.sprites.Filed)
    (hfew : s.plain.coveringCount ≤ 10) (x : Fin 160) :
    s.visibleSprite s.lineSprites x = (s.plain.shownSprite x.val).map fun i =>
      (s.sprites.sprite i, s.spriteColor (s.sprites.sprite i) x) := by
  have hbit : s.spritesEnabled = s.plain.controlBit 1 := and_mask_eq_testBit _ _ 1 rfl
  rw [lineSprites, PlainScreen.shownSprite, hbit]
  cases s.plain.controlBit 1 with
  | false => rfl
  | true =>
    simp only [if_true]
    have hbest := s.isBest_visibleSprite (s.sprites.lineSprites s.spriteHeight s.line) x
    have hmem := fun t => mem_lineSprites h hfew (t := t)
    cases hscan : s.visibleSprite (s.sprites.lineSprites s.spriteHeight s.line) x with
    | none =>
      rw [hscan] at hbest
      have hnone : s.plain.opaqueSprites x.val = [] := by
        rw [List.eq_nil_iff_forall_not_mem]
        intro i hi
        obtain ⟨hcovers, hvisible⟩ := mem_opaqueSprites.1 hi
        exact hvisible (hbest _ ((hmem _).2 ⟨i, hcovers, rfl⟩))
      rw [hnone]
      rfl
    | some found =>
      obtain ⟨t, color⟩ := found
      rw [hscan] at hbest
      obtain ⟨hfound, rfl, hvisible, hleast⟩ := hbest
      obtain ⟨j, hcovers, rfl⟩ := (hmem t).1 hfound
      have hj : j ∈ s.plain.opaqueSprites x.val := mem_opaqueSprites.2 ⟨hcovers, hvisible⟩
      have hpick : (s.plain.opaqueSprites x.val).argmin
          (fun i => toLex (s.plain.spriteByte i 1, i)) = some j := by
        cases hpick : (s.plain.opaqueSprites x.val).argmin
            (fun i => toLex (s.plain.spriteByte i 1, i)) with
        | none =>
          rw [List.argmin_eq_none.1 hpick] at hj
          exact absurd hj List.not_mem_nil
        | some i =>
          have hi := mem_opaqueSprites.1 (List.argmin_mem hpick)
          have hnotOver := hleast _ ((hmem _).2 ⟨i, hi.1, rfl⟩) hi.2
          have hle := List.le_of_mem_argmin hj hpick
          rcases key_le_of_lex_le hle with hover | rfl
          · omega
          · rfl
      rw [hpick]
      rfl

/-! ## Lines -/

theorem shade_plain (palette : UInt8) (color : ColorIndex) :
    (paletteShade palette color).val = PlainScreen.shade palette color.val := by
  have hpow : 2 ^ (2 * color.val) = 4 ^ color.val := Nat.pow_mul 2 2 color.val
  rw [PlainScreen.shade, ← hpow, ← Nat.shiftRight_eq_div_pow]
  rfl

theorem color_plain : ∀ shade : Shade, shade.color = PlainScreen.colors.getD shade.val 0 := by
  decide

theorem backgroundColor_ne_zero (s : Screen) (x : Fin 160) :
    s.backgroundColor x ≠ 0 ↔ s.plain.backgroundColor x.val ≠ 0 := by
  rw [← backgroundColor_plain, ne_eq, ne_eq, Fin.ext_iff]
  rfl

theorem covers_of_shownSprite {p : PlainScreen} {x : Nat} {i : Fin 40}
    (h : p.shownSprite x = some i) : p.Covers i := by
  rw [PlainScreen.shownSprite] at h
  split at h
  · have hmem := List.argmin_mem h
    rw [PlainScreen.opaqueSprites, List.mem_filter, decide_eq_true_iff] at hmem
    exact hmem.2.1
  · contradiction

theorem spritePalette_plain (s : Screen) (i : Fin 40) :
    s.spritePalette (s.sprites.sprite i) =
      if (s.plain.spriteByte i 3).testBit 4 then s.plain.spritePalette1
      else s.plain.spritePalette0 := by
  have hbit : (s.sprites.sprite i).secondPalette = (s.plain.spriteByte i 3).testBit 4 :=
    s.attributeBit_plain i 0x10 4 rfl
  rw [spritePalette, hbit]
  rfl

theorem pixel_plain {s : Screen} (h : s.sprites.Filed) (hfew : s.plain.coveringCount ≤ 10)
    (x : Fin 160) : (s.pixel s.lineSprites x).val = s.plain.pixel x.val := by
  have hbackground := s.backgroundColor_plain x
  have hpalette : s.backgroundPalette = s.plain.backgroundPalette := rfl
  rw [pixel, PlainScreen.pixel, visibleSprite_plain h hfew]
  cases hshown : s.plain.shownSprite x.val with
  | none =>
    simp only [Option.map_none]
    rw [shade_plain, hbackground, hpalette]
  | some i =>
    have hbehind :
        (s.sprites.sprite i).behindBackground = (s.plain.spriteByte i 3).testBit 7 :=
      s.attributeBit_plain i 0x80 7 rfl
    simp only [Option.map_some, hbehind, Bool.and_eq_true, decide_eq_true_iff,
      backgroundColor_ne_zero]
    split
    · rw [shade_plain, hbackground, hpalette]
    · rw [shade_plain, spriteColor_plain s (covers_of_shownSprite hshown), spritePalette_plain]

theorem drawLine_get {s : Screen} {row : Fin 144} (h : s.line.toNat = row.val) (x : Fin 160) :
    (s.drawLine.picture.get row).get x = s.pixel s.lineSprites x := by
  rw [picture_drawLine, if_pos h]
  exact Vector.getElem_ofFn x.isLt

/-- A visible line is drawn as the plain renderer draws it.

The search finds sprites that cover the line, each once, as many as there are
but at most ten.  If there are no more than ten, every pixel has the colour that
the plain renderer gives it, so the line does not depend on the buckets. -/
theorem drawLine_eq_plain {s : Screen} (h : s.sprites.Filed) {row : Fin 144}
    (hrow : s.line.toNat = row.val) :
    (∃ ids : List (Fin 40), ids.Nodup ∧ ids.length = min 10 s.plain.coveringCount ∧
      (∀ i ∈ ids, s.plain.Covers i) ∧
      s.sprites.lineSprites s.spriteHeight s.line = ids.map s.sprites.sprite) ∧
    (s.plain.coveringCount ≤ 10 →
      (∀ x : Fin 160, ((s.drawLine.picture.get row).get x).color =
        PlainScreen.colors.getD (s.plain.pixel x.val) 0) ∧
      ∀ t : Screen, t.sprites.Filed → t.plain = s.plain →
        t.drawLine.picture.get row = s.drawLine.picture.get row) := by
  refine ⟨?_, ?_⟩
  · refine ⟨(s.sprites.found s.spriteHeight s.line).take SpriteMemory.lineLimit,
      ?_, ?_, ?_, ?_⟩
    · exact ((h.nodup_candidates s.line).filter _).sublist (List.take_sublist _ _)
    · rw [h.length_take_found s.height_le, length_covering_plain]
    · intro i hi
      have hfound := List.mem_of_mem_take hi
      rw [SpriteMemory.found, List.mem_filter] at hfound
      exact (s.covers_plain i).1 hfound.2
    · exact SpriteMemory.lineSprites_eq _ _ _
  · intro hfew
    have hpixel : ∀ t : Screen, t.sprites.Filed → t.plain = s.plain → ∀ x : Fin 160,
        ((t.drawLine.picture.get row).get x).val = s.plain.pixel x.val := by
      intro t ht hsame x
      have hline : t.line = s.line := congrArg PlainScreen.line hsame
      rw [drawLine_get (by rw [hline]; exact hrow), pixel_plain ht (by rw [hsame]; exact hfew),
        hsame]
    refine ⟨fun x => ?_, fun t ht hsame => ?_⟩
    · rw [color_plain, hpixel s h rfl]
    · apply Vector.ext
      intro x hx
      apply Fin.ext
      exact (hpixel t ht hsame ⟨x, hx⟩).trans (hpixel s h rfl ⟨x, hx⟩).symm

/-- Two sprites on the first line, put there in either order: the buckets
differ, and the line does not. -/
theorem drawLine_of_two_orders :
    let s : Screen := { postBoot with sprites := (SpriteMemory.blank.write 0 0x10).write 4 0x10 }
    let t : Screen := { postBoot with sprites := (SpriteMemory.blank.write 4 0x10).write 0 0x10 }
    s.sprites.Filed ∧ t.sprites.Filed ∧ s.plain.coveringCount = 2 ∧ t.plain = s.plain ∧
      s.sprites.buckets ≠ t.sprites.buckets ∧
      (s.sprites.lineSprites s.spriteHeight s.line).length = 2 ∧
      (∀ x : Fin 160, ((s.drawLine.picture.get 0).get x).color =
        PlainScreen.colors.getD (s.plain.pixel x.val) 0) ∧
      t.drawLine.picture.get 0 = s.drawLine.picture.get 0 := by
  intro s t
  have hs : s.sprites.Filed := (SpriteMemory.filed_blank.write 0 0x10).write 4 0x10
  have ht : t.sprites.Filed := (SpriteMemory.filed_blank.write 4 0x10).write 0 0x10
  have hcount : s.plain.coveringCount = 2 := by decide +kernel
  have hplain : t.plain = s.plain := by
    have hoam : t.sprites.bytes = s.sprites.bytes := by decide +kernel
    show { s.plain with oam := t.sprites.bytes } = s.plain
    rw [hoam]
    rfl
  have hbuckets : s.sprites.buckets ≠ t.sprites.buckets := by decide +kernel
  have hzero : s.line.toNat = (0 : Fin 144).val := rfl
  obtain ⟨⟨ids, _, hlength, _, hids⟩, hfew⟩ := drawLine_eq_plain hs hzero
  obtain ⟨hpixels, hsame⟩ := hfew (by rw [hcount]; decide)
  refine ⟨hs, ht, hcount, hplain, hbuckets, ?_, hpixels, hsame t ht hplain⟩
  rw [hids, List.length_map, hlength, hcount]
  rfl

end Screen
end Handheld
