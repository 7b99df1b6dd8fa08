import Handheld.Checked.Cartridge

/-!
# Cartridges meet no fault

Copying a boot ROM into the ROM and back again is laying it over the image and
taking it off.  Every access to a cartridge by checked arithmetic has a result,
and it is that of the access without checks.
-/

namespace Handheld

/-! ## Overlays -/

/-- A boot ROM over the ROM is no longer than the ROM. -/
def Cartridge.OverlayFits (c : Cartridge) : Prop :=
  ∀ boot ∈ c.overlay, boot.size ≤ c.image.size

theorem Cartridge.overlayFits_mapBoot (c : Cartridge) (boot : Array UInt8) :
    (c.mapBoot boot).OverlayFits := by
  rintro _ ⟨⟩
  rw [Array.size_extract, Nat.sub_zero]
  exact Nat.min_le_left _ _

theorem Cartridge.overlayFits_of_none {c : Cartridge} (h : c.overlay = none) : c.OverlayFits := by
  intro boot hboot
  rw [h] at hboot
  cases hboot

theorem Cartridge.OverlayFits.write {c : Cartridge} (h : c.OverlayFits) (address : UInt16)
    (value : UInt8) : (c.write address value).OverlayFits := by
  unfold Cartridge.write
  split
  · cases c.controller <;> exact h
  · split
    · cases c.ramOffset? address <;> exact h
    · exact h

namespace Checked

/-! ## The ROM as one array -/

theorem getD_rom (c : Cartridge) (offset : Nat) :
    c.rom.getD offset 0xFF = (c.romByte? offset).getD 0xFF := by
  rw [Array.getD_eq_getD_getElem?]
  unfold Cartridge.rom Cartridge.romByte?
  cases c.overlay with
  | none => rfl
  | some boot =>
    simp only
    by_cases h : offset < boot.size
    · rw [dif_pos h, Array.getElem?_append_left h, Array.getElem?_eq_getElem h]
    · rw [dif_neg h, Array.getElem?_append_right (by omega), Array.getElem?_extract]
      have hsum : boot.size + (offset - boot.size) = offset := by omega
      by_cases hin : offset < c.image.size
      · rw [if_pos (by omega), hsum]
      · rw [if_neg (by omega), Array.getElem?_eq_none (by omega)]

theorem copyOver_eq_ok {bytes start : Array UInt8} (h : start.size ≤ bytes.size) :
    copyOver bytes start = .ok (start ++ bytes.extract start.size bytes.size) := by
  rw [copyOver, require_eq_ok h]
  rfl

theorem front_eq_ok {bytes : Array UInt8} {count : Nat} (h : count ≤ bytes.size) :
    front bytes count = .ok (bytes.extract 0 count) := by
  rw [front, require_eq_ok h]
  rfl

theorem patchedRom_of_bare {c : Cartridge} (h : c.overlay = none) :
    patchedRom c = { rom := c.image, hidden := none } := by
  rw [patchedRom, Cartridge.rom, h]
  rfl

/-- Copying the hidden bytes back gives the image. -/
theorem unmap_patchedRom {c : Cartridge} (h : c.OverlayFits) :
    (patchedRom c).unmap = .ok { rom := c.image, hidden := none } := by
  unfold PatchedRom.unmap patchedRom Cartridge.rom
  cases hover : c.overlay with
  | none => rfl
  | some boot =>
    have hfits : boot.size ≤ c.image.size := h boot hover
    have hhidden : (c.image.extract 0 boot.size).size = boot.size := by
      rw [Array.size_extract]
      omega
    have hrom : (boot ++ c.image.extract boot.size c.image.size).size = c.image.size := by
      rw [Array.size_append, Array.size_extract]
      omega
    have hback : c.image.extract 0 boot.size ++
        (boot ++ c.image.extract boot.size c.image.size).extract boot.size c.image.size =
          c.image := by
      simp [Array.extract_append]
      omega
    simp only [Option.map_some]
    rw [copyOver_eq_ok (by omega), hhidden, hrom, hback]
    rfl

theorem unmapBoot_eq_ok {c : Cartridge} (h : c.OverlayFits) :
    unmapBoot c = .ok c.unmapBoot := by
  rw [unmapBoot, unmap_patchedRom h]
  rfl

/-- Copying a boot ROM over the ROM lays it over the image. -/
theorem map_patchedRom {c : Cartridge} (h : c.OverlayFits) (boot : Array UInt8) :
    (patchedRom c).map boot = .ok (patchedRom (c.mapBoot boot)) := by
  have hsize : (boot.extract 0 c.image.size).size = min boot.size c.image.size := by
    rw [Array.size_extract, Nat.sub_zero, Nat.min_comm]
  have hcut : boot.extract 0 (min boot.size c.image.size) = boot.extract 0 c.image.size := by
    simp [Array.extract_eq_extract_right, Nat.min_comm]
  rw [PatchedRom.map, unmap_patchedRom h, ok_bind]
  simp only
  rw [front_eq_ok (Nat.min_le_right _ _), ok_bind, front_eq_ok (Nat.min_le_left _ _), ok_bind,
    hcut, copyOver_eq_ok (by omega), ok_bind, pure_eq_ok, patchedRom, Cartridge.rom]
  simp only [Cartridge.mapBoot, Option.map_some, hsize]

/-! ## Access to a cartridge -/

theorem ramIndex_eq_ok (c : Cartridge) {address : UInt16} (h : 0xA000 ≤ address.toNat) :
    ramIndex c address.toNat = .ok (c.ramOffset? address) := by
  have hbank := c.banking.ramBank.toNat_lt
  have haddress := address.toNat_lt
  have hlimit : Width.index.limit = 0x100000000 := rfl
  have hsize : ramBankSize = 0x2000 := rfl
  have hmapped : c.mappedRamBank ≤ 255 := by
    unfold Cartridge.mappedRamBank
    split <;> omega
  have hstart : c.mappedRamBank * ramBankSize ≤ 255 * 0x2000 := Nat.mul_le_mul hmapped (by omega)
  unfold ramIndex Cartridge.ramOffset?
  cases henabled : c.banking.ramEnabled with
  | false => simp [pure_eq_ok]
  | true =>
    by_cases hempty : c.ram = #[]
    · simp [hempty, pure_eq_ok]
    · simp only [Bool.not_true, Bool.false_or, Array.isEmpty_iff, hempty, if_false,
        Bool.true_and, decide_eq_true_eq]
      change (mul _ c.mappedRamBank ramBankSize >>= _) = _
      rw [mul_eq_ok (by omega), ok_bind, sub_eq_ok h, ok_bind, add_eq_ok (by omega), ok_bind]
      rfl

theorem ramOffset?_lt {c : Cartridge} {address : UInt16} {offset : Nat}
    (h : c.ramOffset? address = some offset) : offset < c.ram.size := by
  unfold Cartridge.ramOffset? at h
  simp only at h
  split at h
  · simp_all
  · cases h

theorem readCartridge_eq_ok (c : Cartridge) (address : UInt16) :
    readCartridge c address = .ok (c.read address) := by
  have hbank := c.banking.romBank.toNat_lt
  have haddress := address.toNat_lt
  have hlimit : Width.index.limit = 0x100000000 := rfl
  have hsize : romBankSize = 0x4000 := rfl
  have hstart : c.banking.romBank.toNat * romBankSize ≤ 255 * 0x4000 :=
    Nat.mul_le_mul (by omega) (by omega)
  unfold readCartridge Cartridge.read
  simp only [UInt16.lt_iff_toNat_lt, UInt16.le_iff_toNat_le, UInt16.reduceToNat]
  split
  · rw [getD_rom, pure_eq_ok]
  · split
    · rw [mul_eq_ok (by omega), ok_bind, sub_eq_ok (by omega), ok_bind, add_eq_ok (by omega),
        ok_bind, getD_rom, pure_eq_ok]
    · split
      · rw [ramIndex_eq_ok c (by omega), ok_bind]
        cases hoffset : c.ramOffset? address with
        | none => rfl
        | some offset =>
          have hlt := ramOffset?_lt hoffset
          simp only
          rw [getArray_eq_ok hlt, Array.getD_eq_getD_getElem?, Array.getElem?_eq_getElem hlt]
          rfl
      · rfl

theorem writeCartridge_eq_ok (c : Cartridge) (address : UInt16) (value : UInt8) :
    writeCartridge c address value = .ok (c.write address value) := by
  unfold writeCartridge Cartridge.write
  simp only [UInt16.lt_iff_toNat_lt, UInt16.le_iff_toNat_le, UInt16.reduceToNat]
  by_cases hrom : address.toNat < 0x8000
  · have hram : ¬ (0xA000 ≤ address.toNat ∧ address.toNat < 0xC000) := by omega
    cases hcontroller : c.controller <;> simp [hrom, hram, pure_eq_ok]
  · simp only [hrom, and_false, if_false]
    split
    · rw [ramIndex_eq_ok c (by omega), ok_bind]
      cases hoffset : c.ramOffset? address with
      | none => rfl
      | some offset =>
        have hlt := ramOffset?_lt hoffset
        simp only
        rw [setArray_eq_ok hlt, ok_bind, Array.setIfInBounds, dif_pos hlt]
        rfl
    · rfl

end Checked
end Handheld
