import Handheld.Proofs.Cartridge.Overlay
import Handheld.Proofs.Cartridge.RamStore

/-!
# What the registers of a cartridge can be

Whatever is written to a cartridge, and however often it is reset, its banks are
banks that there are.  Without banking the registers stay as they were when the
cartridge was loaded.

`Cartridge.WellFormed` holds of a loaded cartridge and is kept by every operation.
-/

namespace Handheld

/-- The values that the registers of a controller can have. -/
structure Banking.InBounds (banking : Banking) : Prop where
  romBank_pos : 1 ≤ banking.romBank.toNat
  romBank_le : banking.romBank.toNat ≤ 31
  ramBank_le : banking.ramBank.toNat ≤ 3

theorem Banking.inBounds_initial (controller : Controller) : (initial controller).InBounds where
  romBank_pos := Nat.le_refl 1
  romBank_le := (by decide : 1 ≤ 31)
  ramBank_le := Nat.zero_le 3

/-- The sizes of RAM that a header can declare. -/
theorem Header.ramSize_cases (h : Header) : h.ramSize = 0 ∨ h.ramSize = 0x2000 ∨
    h.ramSize = 0x8000 ∨ h.ramSize = 0x10000 ∨ h.ramSize = 0x20000 := by
  unfold ramSize
  split <;> simp [ramBankSize]

namespace Cartridge

/-- The values that the registers of a cartridge and the length of its RAM can have. -/
structure WellFormed (c : Cartridge) : Prop where
  banking : c.banking.InBounds
  ramSize : c.ram.size = 0 ∨ c.ram.size = 0x2000 ∨ c.ram.size = 0x8000
  /-- Without banking the one bank of the ROM and the RAM always show. -/
  romOnly : c.controller = .romOnly → c.banking.romBank = 1 ∧ c.banking.ramEnabled = true ∧
    c.banking.ramBanking = false ∧ c.ram.size ≤ 0x2000

theorem selectedRomBank_bounds (value : UInt8) :
    1 ≤ (selectedRomBank value).toNat ∧ (selectedRomBank value).toNat ≤ 31 := by
  have hle : (value &&& 0x1F).toNat ≤ 31 := by
    rw [UInt8.toNat_and]
    exact Nat.and_le_right
  unfold selectedRomBank
  split
  · decide
  · next hzero =>
    rw [← UInt8.toNat_inj] at hzero
    exact ⟨Nat.pos_of_ne_zero hzero, hle⟩

/-- A write to a register puts a bank there that there is. -/
theorem inBounds_control {banking : Banking} (h : banking.InBounds) (address : UInt16)
    (value : UInt8) : (control banking address value).InBounds := by
  have hram : (value &&& 0x03).toNat ≤ 3 := by
    rw [UInt8.toNat_and]
    exact Nat.and_le_right
  unfold control
  split
  · exact ⟨h.romBank_pos, h.romBank_le, h.ramBank_le⟩
  split
  · obtain ⟨hpos, hle⟩ := selectedRomBank_bounds value
    exact ⟨hpos, hle, h.ramBank_le⟩
  split
  · exact ⟨h.romBank_pos, h.romBank_le, hram⟩
  · exact ⟨h.romBank_pos, h.romBank_le, h.ramBank_le⟩

namespace WellFormed

variable {c : Cartridge}

/-- A cartridge with the registers as at the start. -/
theorem of_initial (hbanking : c.banking = .initial c.controller)
    (hsize : c.ram.size = 0 ∨ c.ram.size = 0x2000 ∨ c.ram.size = 0x8000)
    (hromOnly : c.controller = .romOnly → c.ram.size ≤ 0x2000) : c.WellFormed := by
  refine ⟨hbanking ▸ Banking.inBounds_initial c.controller, hsize, fun hcontroller => ?_⟩
  rw [hbanking, hcontroller]
  exact ⟨rfl, rfl, rfl, hromOnly hcontroller⟩

/-- A loaded cartridge has no RAM, or one bank of it, or four. -/
theorem ofImage (image : Array UInt8) : (Cartridge.ofImage image).WellFormed := by
  have hsize : (Cartridge.ofImage image).ram.size =
      min (Header.ofImage image).ramSize (Header.ofImage image).controller.maxRamSize :=
    Array.size_replicate
  have hcases := (Header.ofImage image).ramSize_cases
  have hromOnly : Controller.romOnly.maxRamSize = 0x2000 := rfl
  have hmbc1 : Controller.mbc1.maxRamSize = 0x8000 := rfl
  refine of_initial rfl ?_ ?_
  · rw [hsize]
    cases (Header.ofImage image).controller <;> omega
  · intro hcontroller
    have hkind : (Header.ofImage image).controller = .romOnly := hcontroller
    rw [hsize, hkind, hromOnly]
    exact Nat.min_le_right _ _

theorem write (h : c.WellFormed) (address : UInt16) (value : UInt8) :
    (c.write address value).WellFormed := by
  have hsize := c.size_ram_write address value
  have hcontroller := c.write_controller address value
  have hbanking := c.write_banking address value
  refine ⟨?_, hsize ▸ h.ramSize, ?_⟩
  · rw [hbanking]
    split
    · exact inBounds_control h.banking address value
    · exact h.banking
  · intro hromOnly
    rw [hcontroller] at hromOnly
    have hmbc1 : ¬ (c.controller = .mbc1 ∧ address < 0x8000) := by
      rw [hromOnly]
      exact fun hbanked => nomatch hbanked.1
    rw [hbanking, if_neg hmbc1, hsize]
    exact h.romOnly hromOnly

theorem reset (h : c.WellFormed) : c.reset.WellFormed :=
  of_initial rfl h.ramSize fun hcontroller => (h.romOnly hcontroller).2.2.2

theorem apply (h : c.WellFormed) (op : CartridgeOp) : (c.apply op).WellFormed := by
  cases op with
  | reset => exact h.reset
  | write address value => exact h.write address value
  | mapBoot boot => exact ⟨h.banking, h.ramSize, h.romOnly⟩
  | unmapBoot => exact ⟨h.banking, h.ramSize, h.romOnly⟩

theorem run (h : c.WellFormed) (ops : List CartridgeOp) : (c.run ops).WellFormed := by
  induction ops using List.reverseRecOn with
  | nil => exact h
  | append_singleton ops op ih =>
    rw [run_concat]
    exact ih.apply op

end WellFormed
end Cartridge
end Handheld
