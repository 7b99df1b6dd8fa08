import Mathlib.Logic.Basic
import Handheld.Cartridge.Basic

/-!
# Loading an image

An image is refused if it has no room for a header, or if it is larger than
what its controller can address.  The byte at 0147 alone tells the limit.
Every other image loads, and `ofImage` is the cartridge that it loads as.  `filled`
is the smallest one, with the same byte everywhere.
-/

namespace Handheld.Cartridge

/-- The most bytes that an image of its type may have. -/
def sizeLimit (image : Array UInt8) : Nat :=
  if image.getD 0x0147 0 ∈ [0x00, 0x08, 0x09] then 0x8000 else 0x80000

/-- The limit of the type is what the controller of the type can address. -/
theorem maxRomSize_controller (image : Array UInt8) :
    (Header.ofImage image).controller.maxRomSize = sizeLimit image := by
  have htype : (Header.ofImage image).typeCode = image.getD 0x0147 0 := rfl
  unfold Header.controller Header.controller? sizeLimit
  rw [htype]
  generalize image.getD 0x0147 0 = code
  simp only [List.mem_cons, List.not_mem_nil, or_false, ← UInt8.toNat_inj, UInt8.reduceToNat]
  split <;> simp_all [Controller.maxRomSize, romBankSize]

/-- The cartridge that an image loads as. -/
def ofImage (image : Array UInt8) : Cartridge where
  image := image
  header := .ofImage image
  controller := (Header.ofImage image).controller
  ram := .replicate
    (min (Header.ofImage image).ramSize (Header.ofImage image).controller.maxRamSize) 0
  banking := .initial (Header.ofImage image).controller

theorem load_eq (image : Array UInt8) :
    load image =
      if image.size < 0x150 then .error (.tooSmall image.size)
      else if sizeLimit image < image.size then
        .error (.tooLarge image.size (sizeLimit image))
      else .ok (ofImage image) := by
  rw [← maxRomSize_controller]
  rfl

theorem load_eq_ok_iff {image : Array UInt8} {c : Cartridge} :
    load image = .ok c ↔
      0x150 ≤ image.size ∧ image.size ≤ sizeLimit image ∧ c = ofImage image := by
  rw [load_eq]
  by_cases hsmall : image.size < 0x150
  · rw [if_pos hsmall]
    exact ⟨nofun, fun h => absurd h.1 (by omega)⟩
  by_cases hlarge : sizeLimit image < image.size
  · rw [if_neg hsmall, if_pos hlarge]
    exact ⟨nofun, fun h => absurd h.2.1 (by omega)⟩
  · rw [if_neg hsmall, if_neg hlarge, Except.ok.injEq, eq_comm]
    exact ⟨fun h => ⟨by omega, by omega, h⟩, fun h => h.2.2⟩

/-- Loading fails for two reasons only. -/
theorem load_eq_error_iff {image : Array UInt8} {e : LoadError} :
    load image = .error e ↔
      image.size < 0x150 ∧ e = .tooSmall image.size ∨
      0x150 ≤ image.size ∧ sizeLimit image < image.size ∧
        e = .tooLarge image.size (sizeLimit image) := by
  rw [load_eq]
  by_cases hsmall : image.size < 0x150
  · rw [if_pos hsmall, Except.error.injEq, eq_comm]
    exact ⟨fun h => Or.inl ⟨hsmall, h⟩,
      fun h => h.elim (·.2) fun h => absurd h.1 (by omega)⟩
  by_cases hlarge : sizeLimit image < image.size
  · rw [if_neg hsmall, if_pos hlarge, Except.error.injEq, eq_comm]
    exact ⟨fun h => Or.inr ⟨by omega, hlarge, h⟩,
      fun h => h.elim (fun h => absurd h.1 hsmall) (·.2.2)⟩
  · rw [if_neg hsmall, if_neg hlarge]
    exact ⟨nofun, fun h => h.elim (fun h => absurd h.1 hsmall) fun h => absurd h.2.1 hlarge⟩

/-- The smallest cartridge with the same byte everywhere, also where its controller and its
memory are told. -/
def filled (byte : UInt8) : Cartridge :=
  ofImage (.replicate 0x150 byte)

theorem load_filled (byte : UInt8) : load (.replicate 0x150 byte) = .ok (filled byte) := by
  refine load_eq_ok_iff.2 ⟨by simp, ?_, rfl⟩
  rw [sizeLimit, Array.size_replicate]
  split <;> decide

theorem read_filled (byte : UInt8) : (filled byte).read 0x0100 = byte := by
  simp [filled, ofImage, read, romByte?]

end Handheld.Cartridge
