import Handheld.Proofs.Bus.Slot
import Handheld.Proofs.Cartridge.Loading

/-!
# The ROM windows

A program sees the ROM of a cartridge through two windows of one bank each: the
first always shows bank 0, the second the bank that was selected last.  An image
that is not refused is small enough for every byte of it to be seen: the largest
image has as many banks as the register can select.

There are two groups.

* What the windows show: `read_firstWindow` and `read_secondWindow`.
* The window of a byte: `windowAddress` is where a byte of the image appears,
  after the writes `bankWrites`.
-/

namespace Handheld

/-! ## What the windows show -/

namespace Cartridge

theorem read_firstWindow {c : Cartridge} (hbare : c.overlay = none) {address : UInt16}
    (h : address.toNat < 0x4000) : c.read address = c.image.getD address.toNat 0xFF := by
  unfold read romByte?
  rw [hbare]
  simp only [UInt16.lt_iff_toNat_lt, UInt16.reduceToNat]
  rw [if_pos h, Array.getD_eq_getD_getElem?]

theorem read_secondWindow {c : Cartridge} (hbare : c.overlay = none) {address : UInt16}
    (hlow : 0x4000 ≤ address.toNat) (hhigh : address.toNat < 0x8000) :
    c.read address =
      c.image.getD (c.banking.romBank.toNat * 0x4000 + (address.toNat - 0x4000)) 0xFF := by
  unfold read romByte?
  rw [hbare]
  simp only [UInt16.lt_iff_toNat_lt, UInt16.reduceToNat]
  rw [if_neg (by omega), if_pos hhigh, Array.getD_eq_getD_getElem?]
  rfl

/-- No write changes the image, or lays a boot ROM over it. -/
theorem writeAll_image (c : Cartridge) (writes : List (UInt16 × UInt8)) :
    (c.writeAll writes).image = c.image ∧ (c.writeAll writes).overlay = c.overlay := by
  induction writes using List.reverseRecOn with
  | nil => exact ⟨rfl, rfl⟩
  | append_singleton writes w ih =>
    rw [writeAll_concat, write_eq]
    exact ih

end Cartridge

/-! ## The window of a byte -/

/-- The writes that bring the bank of a byte into its window: none if the first
window shows it. -/
def bankWrites (offset : Nat) : List (UInt16 × UInt8) :=
  if offset < 0x4000 then [] else [(0x2000, .ofNat (offset / 0x4000))]

/-- The address at which a byte of the image appears in its window. -/
def windowAddress (offset : Nat) : UInt16 :=
  if offset < 0x4000 then .ofNat offset else .ofNat (0x4000 + offset % 0x4000)

theorem length_bankWrites (offset : Nat) : (bankWrites offset).length ≤ 1 := by
  unfold bankWrites
  split
  · exact Nat.zero_le 1
  · exact Nat.le_refl 1

theorem mem_bankWrites {offset : Nat} {w : UInt16 × UInt8} (h : w ∈ bankWrites offset) :
    w.1 = 0x2000 := by
  unfold bankWrites at h
  split at h
  · cases h
  · rw [List.mem_singleton.1 h]

theorem windowAddress_toNat (offset : Nat) :
    (windowAddress offset).toNat =
      if offset < 0x4000 then offset else 0x4000 + offset % 0x4000 := by
  unfold windowAddress
  split <;> rw [UInt16.toNat_ofNat'] <;> omega

theorem windowAddress_lt (offset : Nat) : (windowAddress offset).toNat < 0x8000 := by
  rw [windowAddress_toNat]
  split <;> omega

/-- The writes select the bank of the byte.  The register is wide enough for the
last bank that the controller can address. -/
theorem romBankAfter_bankWrites (k : Controller) (writes : List (UInt16 × UInt8)) {offset : Nat}
    (hmin : 0x4000 ≤ offset) (hmax : offset < k.maxRomSize) :
    k.romBankAfter (writes ++ bankWrites offset) = offset / 0x4000 := by
  cases k with
  | romOnly =>
    simp only [Controller.maxRomSize, romBankSize] at hmax
    simp only [Controller.romBankAfter]
    omega
  | mbc1 =>
    simp only [Controller.maxRomSize, romBankSize] at hmax
    have hbank : (UInt8.ofNat (offset / 0x4000)).toNat = offset / 0x4000 := by
      rw [UInt8.toNat_ofNat']
      omega
    rw [bankWrites, if_neg (by omega), Controller.romBankAfter, lastWritten_concat,
      if_pos (by simp)]
    simp only [hbank]
    rw [if_neg (by omega)]
    omega

/-! ## An image and its windows -/

namespace Cartridge

/-- A cartridge that is inserted without a boot ROM takes every write to the
bus. -/
theorem cartridge_writeAll_insert {b : Bus} (hb : b.bootRom = none ∨ b.bootDisabled = true)
    (image : Array UInt8) (writes : List (UInt16 × UInt8)) :
    ((b.insert (ofImage image)).writeAll writes).cartridge =
      some ((ofImage image).writeAll writes) := by
  have hunder : b.underBoot (ofImage image) = ofImage image := by
    unfold Bus.underBoot
    rcases hb with hnone | hdisabled
    · rw [hnone]
    · rw [hdisabled]
      cases b.bootRom <;> rfl
  have hinserted : (b.insert (ofImage image)).cartridge = some (ofImage image) :=
    congrArg some hunder
  exact Bus.cartridge_writeAll hinserted rfl writes

/-- The two windows on an image, after any writes. -/
theorem read_windows (image : Array UInt8) (writes : List (UInt16 × UInt8)) {address : UInt16}
    (h : address.toNat < 0x8000) :
    ((ofImage image).writeAll writes).read address =
      image.getD (if address.toNat < 0x4000 then address.toNat
        else (ofImage image).controller.romBankAfter writes * 0x4000 +
          (address.toNat - 0x4000)) 0xFF := by
  obtain ⟨himage, hoverlay⟩ := (ofImage image).writeAll_image writes
  split
  · rw [read_firstWindow hoverlay (by assumption), himage]
    rfl
  · rw [read_secondWindow hoverlay (by omega) h, himage, romBank_writeAll rfl]
    rfl

/-- Every byte of an image that is not refused appears in its window. -/
theorem read_windowAddress {image : Array UInt8} (hmax : image.size ≤ sizeLimit image)
    (writes : List (UInt16 × UInt8)) {offset : Nat} (h : offset < image.size) :
    ((ofImage image).writeAll (writes ++ bankWrites offset)).read (windowAddress offset) =
      image[offset] := by
  have hlimit : (ofImage image).controller.maxRomSize = sizeLimit image :=
    maxRomSize_controller image
  rw [read_windows image _ (windowAddress_lt offset), windowAddress_toNat]
  by_cases hfirst : offset < 0x4000
  · rw [if_pos hfirst, if_pos hfirst]
    simp [h]
  · rw [if_neg hfirst, if_neg (by omega), romBankAfter_bankWrites _ _ (by omega) (by omega)]
    have hoffset : offset / 0x4000 * 0x4000 + (0x4000 + offset % 0x4000 - 0x4000) = offset := by
      omega
    rw [hoffset]
    simp [h]

/-- The limit on the size of an image and the two windows fit together.  An
image is refused exactly if it is too small for a header or too large for its
type.  After any writes, the first window shows the start of the image, and the
second the bank that was selected last, which is the one that the register
holds; and every byte of the image appears in one of them, after at most one
more write. -/
theorem rom_windows (image : Array UInt8) :
    (∀ e, load image = .error e ↔
      image.size < 0x150 ∧ e = .tooSmall image.size ∨
      0x150 ≤ image.size ∧ sizeLimit image < image.size ∧
        e = .tooLarge image.size (sizeLimit image)) ∧
    ∀ c, load image = .ok c → ∀ b : Bus, b.bootRom = none ∨ b.bootDisabled = true →
      ∀ writes : List (UInt16 × UInt8),
        let now := (b.insert c).writeAll writes
        let bank := c.controller.romBankAfter writes
        (now.cartridge.map (·.banking.romBank.toNat) = some bank ∧
          1 ≤ bank ∧ bank ≤ 31) ∧
        (∀ address, address < 0x4000 → now.read address = image.getD address.toNat 0xFF) ∧
        (∀ address, 0x4000 ≤ address → address < 0x8000 →
          now.read address = image.getD (bank * 0x4000 + (address.toNat - 0x4000)) 0xFF) ∧
        ∀ (offset : Nat) (_ : offset < image.size),
          (bankWrites offset).length ≤ 1 ∧
          (∀ w ∈ bankWrites offset, 0x2000 ≤ w.1 ∧ w.1 < 0x4000) ∧
          windowAddress offset < 0x8000 ∧
          ((b.insert c).writeAll (writes ++ bankWrites offset)).read (windowAddress offset) =
            image[offset] := by
  refine ⟨fun e => load_eq_error_iff, ?_⟩
  intro c hload b hb writes now bank
  obtain ⟨-, hmax, rfl⟩ := load_eq_ok_iff.1 hload
  simp only [UInt16.lt_iff_toNat_lt, UInt16.le_iff_toNat_le, UInt16.reduceToNat]
  have hcartridge := cartridge_writeAll_insert hb image
  refine ⟨⟨?_, Controller.romBankAfter_bounds _ writes⟩, ?_, ?_, ?_⟩
  · rw [hcartridge writes, Option.map_some, romBank_writeAll rfl]
  · intro address hlow
    have hrom : address.toNat < 0x8000 := by omega
    rw [Bus.read_rom (hcartridge writes) hrom, read_windows image writes hrom, if_pos hlow]
  · intro address hlow hhigh
    rw [Bus.read_rom (hcartridge writes) hhigh, read_windows image writes hhigh,
      if_neg (by omega)]
  · intro offset hoffset
    have hrom := windowAddress_lt offset
    refine ⟨length_bankWrites offset, ?_, hrom, ?_⟩
    · intro w hw
      rw [mem_bankWrites hw]
      decide
    · rw [Bus.read_rom (hcartridge _) hrom, read_windowAddress hmax writes hoffset]

/-- An image with a byte in its third bank, which is not selected at first. -/
theorem rom_windows_third_bank :
    let image := (Array.replicate 0x8150 0x01).push 0x77
    ∃ c, load image = .ok c ∧
      ((Bus.powerOn.insert c).writeAll [(0x3FFF, 0xE0)]).read 0x4150 = 0x01 ∧
      ((Bus.powerOn.insert c).writeAll [(0x3FFF, 0xE0), (0x2000, 0x02)]).read 0x4150 = 0x77 := by
  intro image
  have htype : image.getD 0x0147 0 = 0x01 := by
    simp [image, Array.getElem_push]
  have hload : load image = .ok (ofImage image) := by
    rw [load_eq_ok_iff, sizeLimit, htype]
    simp [image]
  have hcontroller : (ofImage image).controller = .mbc1 := by
    simp [ofImage, Header.ofImage, Header.controller, Header.controller?, htype]
  have hbank : (ofImage image).controller.romBankAfter [(0x3FFF, 0xE0)] = 1 := by
    rw [hcontroller]
    decide
  obtain ⟨-, -, hsecond, hbyte⟩ :=
    (rom_windows image).2 _ hload Bus.powerOn (Or.inl rfl) [(0x3FFF, 0xE0)]
  refine ⟨_, hload, ?_, ?_⟩
  · rw [hsecond 0x4150 (by decide) (by decide), hbank]
    simp [image, Array.getElem_push]
  · obtain ⟨-, -, -, hread⟩ := hbyte 0x8150 (by simp [image])
    refine hread.trans ?_
    simp [image, Array.getElem_push]

end Cartridge
end Handheld
