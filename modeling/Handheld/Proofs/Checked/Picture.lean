import Handheld.Checked.Picture
import Handheld.Proofs.Screen.PlainPicture

/-!
# Drawing meets no fault

Drawing a line by checked arithmetic has a result, and it is that of drawing
without checks.  The sprites of a line cover it, so the differences that place
them stay above zero; there are at most ten of them, and no colour is beyond
the four of a palette.

There are three groups: tiles and background, sprites, and lines.
-/

namespace Handheld.Checked

/-! ## Tiles and background -/

theorem limit_byte : Width.byte.limit = 0x100 := rfl

theorem limit_word : Width.word.limit = 0x10000 := rfl

theorem limit_index : Width.index.limit = 0x100000000 := rfl

theorem shiftLeft_one_or {a b : Nat} (hb : b < 2) : (a <<< 1) ||| b = 2 * a + b := by
  rw [← Nat.shiftLeft_add_eq_or_of_lt (i := 1) (by omega), Nat.shiftLeft_eq]
  omega

theorem tileBits_eq_ok (s : Screen) (row : Screen.TileRow) (column : Fin 8) {address bit : Nat}
    (haddress : address = 2 * row.val) (hbit : bit = 7 - column.val) :
    tileBits s address bit = .ok (s.tileColor row column).val := by
  have hrow := row.isLt
  have hlow : (2 * row.val) &&& 0x1FFF = 2 * row.val := by
    rw [Nat.and_two_pow_sub_one_eq_mod _ 13]
    omega
  have hhigh : (2 * row.val + 1) &&& 0x1FFF = 2 * row.val + 1 := by
    rw [Nat.and_two_pow_sub_one_eq_mod _ 13]
    omega
  have hbits : Width.byte.bits = 8 := rfl
  have hlimit := limit_index
  subst haddress hbit
  rw [tileBits, hlow, get_eq_ok (by omega), ok_bind, add_eq_ok (by omega), ok_bind, hhigh,
    get_eq_ok (by omega), ok_bind, shiftRight_eq_ok (by omega), ok_bind,
    shiftRight_eq_ok (by omega), ok_bind, pure_eq_ok, Nat.and_one_is_mod, Nat.and_one_is_mod,
    shiftLeft_one_or (Nat.mod_lt _ (by omega))]
  rfl

/-- The start of a tile, and a row of it. -/
theorem tileAddress_eq_ok (s : Screen) (entry : UInt8) (row : Fin 8) :
    ∃ start, tileAddress s entry = .ok start ∧ start ≤ 0x1FF0 ∧
      start + 2 * row.val = 2 * (Screen.mapTileRow s.unsignedTiles entry row).val := by
  have hentry := entry.toNat_lt
  have hlimit := limit_index
  unfold tileAddress Screen.mapTileRow
  cases s.unsignedTiles with
  | true =>
    rw [if_pos rfl, mul_eq_ok (by omega)]
    refine ⟨_, rfl, by omega, ?_⟩
    simp only [Bool.true_eq_false, false_and, dite_false]
    omega
  | false =>
    have hsigned : signedValue entry =
        if entry.toNat < 128 then (entry.toNat : Int) else entry.toNat - 256 := rfl
    rw [if_neg (by decide)]
    by_cases hlow : entry.toNat < 128
    · rw [if_pos hlow] at hsigned
      rw [mulSigned_eq_ok (by omega) (by omega), ok_bind,
        addSigned_eq_ok (by omega) (by omega), ok_bind, dif_pos ⟨rfl, hlow⟩]
      refine ⟨_, rfl, by omega, ?_⟩
      simp only
      omega
    · rw [if_neg hlow] at hsigned
      rw [mulSigned_eq_ok (by omega) (by omega), ok_bind,
        addSigned_eq_ok (by omega) (by omega), ok_bind, dif_neg (fun h => hlow h.2)]
      refine ⟨_, rfl, by omega, ?_⟩
      simp only
      omega

theorem cell_eq {x y : Nat} (hx : x < 256) (hy : y < 256) :
    (((y >>> 3) <<< 5) ||| (x >>> 3)) &&& 0x3FF = 32 * (y / 8) + x / 8 := by
  have hcolumn : x >>> 3 < 2 ^ 5 := by
    rw [Nat.shiftRight_eq_div_pow]
    omega
  rw [← Nat.shiftLeft_add_eq_or_of_lt hcolumn, Nat.and_two_pow_sub_one_eq_mod _ 10,
    Nat.shiftLeft_eq, Nat.shiftRight_eq_div_pow, Nat.shiftRight_eq_div_pow]
  omega

theorem mapColor_eq_ok (s : Screen) (second : Bool) (x y : UInt8) :
    mapColor s second x.toNat y.toNat = .ok (s.mapColor second x y).val := by
  have hx := x.toNat_lt
  have hy := y.toNat_lt
  have hlimit := limit_index
  have hentry : get s.vram (mapStart second + (32 * (y.toNat / 8) + x.toNat / 8)) =
      .ok (s.mapEntry second x y) := by
    unfold mapStart Screen.mapEntry
    cases second <;> exact get_eq_ok _
  have hstart : mapStart second ≤ 0x1C00 := by
    unfold mapStart
    cases second <;> decide
  obtain ⟨start, htile, hbound, hrow⟩ :=
    tileAddress_eq_ok s (s.mapEntry second x y) (.ofNat 8 y.toNat)
  have hy7 : y.toNat &&& 7 = (Fin.ofNat 8 y.toNat).val := Nat.and_two_pow_sub_one_eq_mod _ 3
  have hx7 : x.toNat &&& 7 = (Fin.ofNat 8 x.toNat).val := Nat.and_two_pow_sub_one_eq_mod _ 3
  have hylt := (Fin.ofNat 8 y.toNat).isLt
  have hxlt := (Fin.ofNat 8 x.toNat).isLt
  rw [mapColor]
  simp only [cell_eq hx hy, hy7, hx7]
  rw [add_eq_ok (by omega), ok_bind, hentry, ok_bind, htile, ok_bind, mul_eq_ok (by omega),
    ok_bind, add_eq_ok (by omega), ok_bind, sub_eq_ok (by omega), ok_bind]
  exact tileBits_eq_ok s _ _ (by omega) rfl

theorem windowCovers_eq_ok (s : Screen) (x : Fin 160) :
    windowCovers s x.val = .ok (s.windowCovers x) := by
  have hlimit := limit_word
  unfold windowCovers Screen.windowCovers
  by_cases h : (s.windowEnabled && decide (s.windowY ≤ s.line)) = true
  · rw [if_pos h, add_eq_ok (by omega), ok_bind, h]
    simp [pure_eq_ok, Bool.and_assoc]
  · rw [if_neg h, Bool.eq_false_iff.2 h]
    rfl

theorem backgroundColor_eq_ok (s : Screen) (x : Fin 160) :
    backgroundColor s x.val = .ok (s.backgroundColor x).val := by
  have hlimit := limit_byte
  unfold backgroundColor Screen.backgroundColor
  split
  · rfl
  rw [windowCovers_eq_ok, ok_bind]
  by_cases hcovers : s.windowCovers x = true
  · have hparts := hcovers
    simp only [Screen.windowCovers, Bool.and_eq_true, decide_eq_true_eq] at hparts
    obtain ⟨⟨⟨⟨_, hy⟩, hx⟩, _⟩, _⟩ := hparts
    have hcolumn : x.val + 7 - s.windowX.toNat = ((x.val + 7).toUInt8 - s.windowX).toNat := by
      have hx8 : (x.val + 7).toUInt8.toNat = x.val + 7 := by
        simp
        omega
      rw [UInt8.toNat_sub_of_le _ _ (UInt8.le_iff_toNat_le.2 (by omega)), hx8]
    have hrow : s.line.toNat - s.windowY.toNat = (s.line - s.windowY).toNat :=
      (UInt8.toNat_sub_of_le _ _ hy).symm
    rw [if_pos hcovers, if_pos hcovers, add_eq_ok (by omega), ok_bind, sub_eq_ok hx, ok_bind,
      sub_eq_ok (UInt8.le_iff_toNat_le.1 hy), ok_bind, hcolumn, hrow]
    exact mapColor_eq_ok s _ _ _
  · rw [if_neg hcovers, if_neg hcovers]
    exact mapColor_eq_ok s _ _ _

/-! ## Sprites -/

section

variable {s : Screen} {sprite : Sprite}

/-- The line counted as the sprites count it. -/
theorem add_line (hline : s.line.toNat < 144) :
    add .byte s.line.toNat 16 = .ok (s.line.toNat + 16) := by
  have hlimit := limit_byte
  exact add_eq_ok (by omega)

theorem covers_iff {height line : Nat} : sprite.covers height line = true ↔
    sprite.y.toNat ≤ line + 16 ∧ line + 16 < sprite.y.toNat + height := by
  simp [Sprite.covers]

theorem spriteRow_eq_ok (hline : s.line.toNat < 144)
    (hcovers : sprite.covers s.spriteHeight s.line.toNat = true) :
    spriteRow s sprite = .ok (s.spriteRow sprite) ∧ s.spriteRow sprite < 16 := by
  have hheight := s.height_le
  obtain ⟨hfrom, hto⟩ := covers_iff.1 hcovers
  unfold spriteRow Screen.spriteRow
  rw [add_line hline, ok_bind, sub_eq_ok hfrom, ok_bind]
  cases sprite.flipY with
  | true =>
    simp only [if_true]
    rw [sub_eq_ok (by omega), ok_bind, sub_eq_ok (by omega)]
    exact ⟨rfl, by omega⟩
  | false => exact ⟨rfl, by simp only [Bool.false_eq_true, if_false]; omega⟩

/-- The column of a sprite that lies at column `x`, computed without a sign:
left of the sprite the difference wraps. -/
theorem column_eq (x : Fin 160) (left : UInt8) :
    ((x.val + 8).toUInt16 - left.toUInt16).toNat =
      if left.toNat ≤ x.val + 8 then x.val + 8 - left.toNat
      else 65536 + x.val + 8 - left.toNat := by
  have hleft := left.toNat_lt
  rw [UInt16.toNat_sub, UInt8.toNat_toUInt16]
  simp
  split <;> omega

theorem spriteTileRow_val (hlt : s.spriteRow sprite < 16) : (s.spriteTileRow sprite).val =
    8 * (if s.spriteHeight = 16 then sprite.tile &&& 0xFE else sprite.tile).toNat +
      s.spriteRow sprite := by
  have htile := (if s.spriteHeight = 16 then sprite.tile &&& 0xFE else sprite.tile).toNat_lt
  rw [Screen.spriteTileRow, Fin.val_ofNat, Nat.mod_eq_of_lt (by omega)]

theorem spriteColor_eq_ok (hline : s.line.toNat < 144)
    (hcovers : sprite.covers s.spriteHeight s.line.toNat = true) (x : Fin 160) :
    spriteColor s sprite x.val = .ok (s.spriteColor sprite x).val := by
  have hleft := sprite.x.toNat_lt
  have hx := x.isLt
  have hword := limit_word
  have hindex := limit_index
  obtain ⟨hrow, hlt⟩ := spriteRow_eq_ok hline hcovers
  unfold spriteColor Screen.spriteColor
  rw [add_eq_ok (by omega), ok_bind]
  simp only [column_eq]
  by_cases hin : sprite.x.toNat ≤ x.val + 8 ∧ x.val + 8 < sprite.x.toNat + 8
  · have htile := spriteTileRow_val hlt
    have htlt := (if s.spriteHeight = 16 then sprite.tile &&& 0xFE else sprite.tile).toNat_lt
    rw [dif_pos hin, if_pos hin.1, if_neg (by omega), hrow, ok_bind]
    cases hflip : sprite.flipX with
    | true =>
      simp only [if_true]
      rw [pure_eq_ok, ok_bind, mul_eq_ok (by omega), ok_bind, mul_eq_ok (by omega), ok_bind,
        add_eq_ok (by omega), ok_bind]
      refine tileBits_eq_ok s _ _ (by omega) ?_
      rw [Fin.val_rev]
      simp only
      omega
    | false =>
      simp only [Bool.false_eq_true, if_false]
      rw [sub_eq_ok (by omega), ok_bind, mul_eq_ok (by omega), ok_bind, mul_eq_ok (by omega),
        ok_bind, add_eq_ok (by omega), ok_bind]
      exact tileBits_eq_ok s _ _ (by omega) rfl
  · rw [dif_neg hin, if_pos]
    · rfl
    · split <;> omega

/-- What a scan has found, with the colour as a plain number. -/
def plainColor (found : Option (Sprite × ColorIndex)) : Option (Sprite × Nat) :=
  found.map fun p => (p.1, p.2.val)

theorem betterSprite_eq_ok (hline : s.line.toNat < 144)
    (hcovers : sprite.covers s.spriteHeight s.line.toNat = true) (x : Fin 160)
    (best : Option (Sprite × ColorIndex)) :
    betterSprite s x.val (plainColor best) sprite =
      .ok (plainColor (s.betterSprite x best sprite)) := by
  unfold betterSprite Screen.betterSprite
  rw [spriteColor_eq_ok hline hcovers x, ok_bind]
  by_cases hzero : s.spriteColor sprite x = 0
  · simp only [hzero, Fin.val_zero, if_true]
    rfl
  · have hval : (s.spriteColor sprite x).val ≠ 0 := fun h => hzero (Fin.ext h)
    simp only [hzero, hval, if_false]
    cases best with
    | none => rfl
    | some other =>
      simp only [plainColor, Option.map_some]
      cases sprite.isOver other.1 <;> rfl

theorem visibleSprite_eq_ok (hline : s.line.toNat < 144) {sprites : List Sprite}
    (hcovers : ∀ t ∈ sprites, t.covers s.spriteHeight s.line.toNat = true) (x : Fin 160) :
    visibleSprite s sprites x.val = .ok (plainColor (s.visibleSprite sprites x)) := by
  have hscan : ∀ best, sprites.foldlM (betterSprite s x.val) (plainColor best) =
      .ok (plainColor (sprites.foldl (s.betterSprite x) best)) := by
    induction sprites with
    | nil => exact fun _ => rfl
    | cons t sprites ih =>
      intro best
      rw [List.foldlM_cons, List.foldl_cons, betterSprite_eq_ok hline (hcovers t (by simp)) x,
        ok_bind]
      exact ih (fun u hu => hcovers u (List.mem_cons_of_mem t hu)) _
  exact hscan none

/-- One more sprite is looked at. -/
theorem addSprite_eq_ok (hline : s.line.toNat < 144) {found : List Sprite}
    (hfound : found.length ≤ 10) (number : Fin 40) :
    addSprite s found number =
      .ok ((found ++ [s.sprites.sprite number].filter
        (·.covers s.spriteHeight s.line.toNat)).take 10) := by
  have hnumber := number.isLt
  have hword := limit_word
  have hindex := limit_index
  have hy : s.sprites.bytes.get ⟨number.val * 4, by omega⟩ = (s.sprites.sprite number).y := by
    simp only [SpriteMemory.sprite, SpriteMemory.yByte, Nat.mul_comm]
  have hlimit : SpriteMemory.lineLimit = 10 := rfl
  unfold addSprite
  rw [hlimit]
  -- a full line takes no more, and else it grows by what covers the line
  by_cases hfull : found.length = 10
  · rw [if_pos hfull, pure_eq_ok, List.take_append_of_le_length (by omega),
      List.take_of_length_le (by omega)]
  rw [if_neg hfull, mul_eq_ok (by omega), ok_bind, get_eq_ok (by omega), ok_bind,
    add_eq_ok (by omega), ok_bind, hy]
  by_cases hfrom : (s.sprites.sprite number).y.toNat ≤ s.line.toNat + 16
  · rw [if_pos hfrom, sub_eq_ok hfrom, ok_bind]
    by_cases hto : s.line.toNat + 16 - (s.sprites.sprite number).y.toNat < s.spriteHeight
    · have hcovers : (s.sprites.sprite number).covers s.spriteHeight s.line.toNat = true :=
        covers_iff.2 ⟨hfrom, by omega⟩
      rw [if_pos hto, add_eq_ok (by omega), ok_bind, get_eq_ok (by omega), ok_bind,
        add_eq_ok (by omega), ok_bind, get_eq_ok (by omega), ok_bind, add_eq_ok (by omega),
        ok_bind, get_eq_ok (by omega), ok_bind, require_eq_ok (by omega), ok_bind, pure_eq_ok,
        List.filter_singleton, hcovers, cond_true, List.take_of_length_le (by simp; omega)]
      simp only [SpriteMemory.sprite, Nat.mul_comm]
    · have hcovers : (s.sprites.sprite number).covers s.spriteHeight s.line.toNat = false := by
        refine Bool.eq_false_iff.2 fun h => ?_
        have := (covers_iff.1 h).2
        omega
      rw [if_neg hto, pure_eq_ok, List.filter_singleton, hcovers, cond_false, List.append_nil,
        List.take_of_length_le hfound]
  · have hcovers : (s.sprites.sprite number).covers s.spriteHeight s.line.toNat = false :=
      Bool.eq_false_iff.2 fun h => hfrom (covers_iff.1 h).1
    rw [if_neg hfrom, pure_eq_ok, List.filter_singleton, hcovers, cond_false, List.append_nil,
      List.take_of_length_le hfound]

theorem take_take_append {α : Type} (l more : List α) (n : Nat) :
    (l.take n ++ more).take n = (l ++ more).take n := by
  have hlength : n - min n l.length = n - l.length := by omega
  rw [List.take_append, List.take_append, List.take_take, List.length_take, hlength, Nat.min_self]

/-- The sprites of a line are looked for in bucket order, until ten are found. -/
theorem foldlM_addSprite (hline : s.line.toNat < 144) (numbers : List (Fin 40)) :
    ∀ found : List Sprite, found.length ≤ 10 →
      numbers.foldlM (addSprite s) found =
        .ok ((found ++ (numbers.map s.sprites.sprite).filter
          (·.covers s.spriteHeight s.line.toNat)).take 10) := by
  induction numbers with
  | nil =>
    intro found hfound
    rw [List.map_nil, List.filter_nil, List.append_nil, List.take_of_length_le hfound]
    rfl
  | cons number numbers ih =>
    intro found hfound
    rw [List.foldlM_cons, addSprite_eq_ok hline hfound, ok_bind,
      ih _ (List.length_take_le 10 _), take_take_append, List.append_assoc, ← List.filter_append]
    rfl

theorem bucket_eq_ok (m : SpriteMemory) (n : Nat) :
    bucket m n = .ok (m.buckets.toList.getD n []) := by
  unfold bucket
  by_cases h : n < 16
  · rw [if_pos h, get_eq_ok h, List.getD_eq_getElem?_getD, List.getElem?_eq_getElem (by simpa)]
    rfl
  · rw [if_neg h, pure_eq_ok, List.getD_eq_getElem?_getD, List.getElem?_eq_none (by simp; omega)]
    rfl

theorem take_two_drop {α : Type} (lists : List (List α)) (n : Nat) :
    ((lists.drop n).take 2).flatten = lists.getD n [] ++ lists.getD (n + 1) [] := by
  induction n generalizing lists with
  | zero => match lists with
    | [] | [_] | _ :: _ :: _ => simp
  | succ n ih => cases lists with
    | nil => simp
    | cons _ lists => simpa using ih lists

theorem lineSprites_eq_ok (hline : s.line.toNat < 144) :
    lineSprites s = .ok s.lineSprites := by
  have hindex := limit_index
  unfold lineSprites Screen.lineSprites
  split
  · have hfirst : s.line.toNat >>> 4 = s.line.toNat / 16 := Nat.shiftRight_eq_div_pow _ 4
    simp only [hfirst, bucket_eq_ok, ok_bind]
    rw [add_eq_ok (by omega), ok_bind, ← take_two_drop, foldlM_addSprite hline _ [] (by simp)]
    rfl
  · rfl

theorem covers_of_mem_lineSprites {t : Sprite} (h : t ∈ s.lineSprites) :
    t.covers s.spriteHeight s.line.toNat = true := by
  unfold Screen.lineSprites at h
  split at h
  · exact (List.mem_filter.1 (List.mem_of_mem_take h)).2
  · cases h

theorem length_lineSprites (s : Screen) : s.lineSprites.length ≤ SpriteMemory.lineLimit := by
  unfold Screen.lineSprites
  split
  · exact List.length_take_le _ _
  · exact Nat.zero_le _

end

/-! ## Lines -/

theorem paletteShade_eq_ok (palette : UInt8) (color : ColorIndex) :
    paletteShade palette color.val = .ok (Handheld.paletteShade palette color).val := by
  have hcolor := color.isLt
  have hlimit := limit_byte
  have hbits : Width.byte.bits = 8 := rfl
  have hmask : ∀ n : Nat, n &&& 3 = n % 4 := fun n => Nat.and_two_pow_sub_one_eq_mod n 2
  rw [paletteShade, require_eq_ok (by omega), ok_bind, Nat.min_eq_left (by omega),
    mul_eq_ok (by omega), ok_bind, shiftRight_eq_ok (by omega), ok_bind, pure_eq_ok, hmask,
    Nat.mul_comm]
  rfl

theorem shade_eq_ok (t : Shade) : shade t.val = .ok t := dif_pos t.isLt

theorem pixel_eq_ok {s : Screen} (hline : s.line.toNat < 144) {sprites : List Sprite}
    (hcovers : ∀ t ∈ sprites, t.covers s.spriteHeight s.line.toNat = true) (x : Fin 160) :
    pixel s sprites x.val = .ok (s.pixel sprites x) := by
  have hindex := limit_index
  unfold pixel Screen.pixel
  rw [mul_eq_ok (by omega), ok_bind, add_eq_ok (by omega), ok_bind, require_eq_ok (by omega),
    ok_bind, backgroundColor_eq_ok, ok_bind, paletteShade_eq_ok, ok_bind,
    visibleSprite_eq_ok hline hcovers, ok_bind]
  cases s.visibleSprite sprites x with
  | none => exact shade_eq_ok _
  | some found =>
    obtain ⟨sprite, color⟩ := found
    simp only [plainColor, Option.map_some]
    have hzero : decide ((s.backgroundColor x).val ≠ 0) = decide (s.backgroundColor x ≠ 0) := by
      rw [decide_eq_decide, ne_eq, ne_eq, Fin.ext_iff]
      rfl
    rw [hzero]
    split
    · exact shade_eq_ok _
    · rw [paletteShade_eq_ok, ok_bind]
      exact shade_eq_ok _

/-- Drawing a line meets no fault. -/
theorem drawLine_eq_ok (s : Screen) : drawLine s = .ok s.drawLine := by
  unfold drawLine Screen.drawLine
  by_cases hline : s.line.toNat < 144
  · have hpixels : (Vector.ofFnM fun x : Fin 160 => pixel s s.lineSprites x.val) =
        .ok s.drawnLine := by
      have hfun : (fun x : Fin 160 => pixel s s.lineSprites x.val) =
          fun x => pure (s.pixel s.lineSprites x) := by
        funext x
        exact pixel_eq_ok hline (fun t ht => covers_of_mem_lineSprites ht) x
      rw [hfun, Vector.ofFnM_pure]
      rfl
    rw [if_neg (by omega), dif_pos hline, lineSprites_eq_ok hline, ok_bind,
      require_eq_ok (length_lineSprites s), ok_bind, hpixels, ok_bind, set_eq_ok hline, ok_bind,
      pure_eq_ok]
  · rw [if_pos (by omega), dif_neg hline, pure_eq_ok]

end Handheld.Checked
