import Handheld.Proofs.Cartridge.Control
import Handheld.Proofs.Checked.Bus

/-!
# The cartridge and the timer on the bus

What a write to the bus does to the inserted cartridge.  It reaches the
cartridge as a write to it, wherever it goes; only the boot switch does
something else, it takes the boot ROM off.  The timer is reached in the
same way.

* `cartridge_write` is about every address but that of the switch,
  `write_bootSwitch` about the switch.
* `cartridge_writeAll` follows the cartridge through a history of writes, when
  there is no boot ROM over it to take off.
* `read_rom` says which addresses show the cartridge's ROM.
* `timer_write` is about the timer.
-/

namespace Handheld

/-- At the addresses of other components a cartridge takes no write. -/
theorem Cartridge.write_elsewhere (c : Cartridge) {address : UInt16} (value : UInt8)
    (h : ¬ (address.toNat < 0x8000 ∨ 0xA000 ≤ address.toNat ∧ address.toNat < 0xC000)) :
    c.write address value = c := by
  unfold write
  simp only [UInt16.lt_iff_toNat_lt, UInt16.le_iff_toNat_le, UInt16.reduceToNat]
  rw [if_neg (by omega), if_neg (by omega)]

/-- The addresses below 8000 are those of the cartridge's ROM. -/
theorem Place.ofAddress_rom {address : UInt16} (h : address.toNat < 0x8000) :
    Place.ofAddress address = .cartridge := by
  unfold Place.ofAddress
  exact if_pos h

namespace Bus

/-- A copy on to the sprite memory changes that memory and nothing else. -/
theorem copyToOam_sprites (b : Bus) (page : UInt8) :
    b.copyToOam page = { b with screen.sprites := (b.copyToOam page).screen.sprites } := by
  have hkept : ∃ sprites, b.copyToOam page = { b with screen.sprites := sprites } := by
    refine copyToOam_induction
      (P := fun other => ∃ sprites, other = { b with screen.sprites := sprites })
      ?_ ⟨b.screen.sprites, rfl⟩ page
    rintro _ offset value ⟨sprites, rfl⟩
    exact ⟨_, rfl⟩
  obtain ⟨sprites, hcopy⟩ := hkept
  rw [hcopy]

theorem copyToOam_eq (b : Bus) (page : UInt8) :
    b.copyToOam page = { b with screen := (b.copyToOam page).screen } := by
  rw [copyToOam_sprites]

theorem write_bootSwitch (b : Bus) (value : UInt8) : b.write 0xFF50 value = b.switchBoot value := by
  have hplace : Place.ofAddress 0xFF50 = .bootSwitch :=
    Place.ofAddress_register (n := 0x50) rfl (by decide)
  rw [write, hplace]

/-- No write installs a boot ROM. -/
theorem bootRom_write (b : Bus) (address : UInt16) (value : UInt8) :
    (b.write address value).bootRom = b.bootRom := by
  unfold write
  cases Place.ofAddress address with
  | screen r =>
    cases r with
    | dma =>
      simp only
      rw [copyToOam_eq]
      rfl
    | _ => rfl
  | bootSwitch =>
    simp only [switchBoot]
    split <;> rfl
  | _ => rfl

/-- A write beside the boot switch reaches the cartridge as a write to it. -/
theorem cartridge_write (b : Bus) {address : UInt16} (value : UInt8) (h : address ≠ 0xFF50) :
    (b.write address value).cartridge = b.cartridge.map (·.write address value) ∧
      (b.write address value).bootDisabled = b.bootDisabled := by
  have hanswers := Place.answers_ofAddress address
  have helsewhere : ¬ (address.toNat < 0x8000 ∨
      0xA000 ≤ address.toNat ∧ address.toNat < 0xC000) →
      b.cartridge = b.cartridge.map (·.write address value) := by
    intro hother
    cases b.cartridge with
    | none => rfl
    | some c => rw [Option.map_some, c.write_elsewhere value hother]
  unfold write
  cases hplace : Place.ofAddress address with
  | cartridge => exact ⟨rfl, rfl⟩
  | bootSwitch =>
    rw [hplace] at hanswers
    have hswitch : address.toNat = 0xFF50 := hanswers
    exact absurd (UInt16.toNat_inj.1 hswitch) h
  | screen r =>
    rw [hplace] at hanswers
    obtain ⟨⟨hlow, hhigh⟩, -⟩ := hanswers
    cases r with
    | dma =>
      simp only
      rw [copyToOam_eq]
      exact ⟨helsewhere (by omega), rfl⟩
    | _ => exact ⟨helsewhere (by omega), rfl⟩
  | _ =>
    rw [hplace] at hanswers
    refine ⟨helsewhere ?_, rfl⟩
    simp only [Place.Answers] at hanswers
    omega

/-- Under a cartridge without a boot ROM over it, the switch does nothing to
it, so that every write reaches it as a write to it. -/
theorem cartridge_write_of_bare {b : Bus} {c : Cartridge} (h : b.cartridge = some c)
    (hbare : c.overlay = none) (address : UInt16) (value : UInt8) :
    (b.write address value).cartridge = some (c.write address value) := by
  by_cases hswitch : address = 0xFF50
  · subst hswitch
    have hunmap : c.unmapBoot = c := by
      rw [Cartridge.unmapBoot, ← hbare]
    rw [write_bootSwitch, switchBoot, c.write_elsewhere value (by decide)]
    split
    · simp only [h, Option.map_some, hunmap]
    · exact h
  · rw [(b.cartridge_write value hswitch).1, h, Option.map_some]

theorem cartridge_writeAll {b : Bus} {c : Cartridge} (h : b.cartridge = some c)
    (hbare : c.overlay = none) (writes : List (UInt16 × UInt8)) :
    (b.writeAll writes).cartridge = some (c.writeAll writes) := by
  induction writes generalizing b c with
  | nil => exact h
  | cons w writes ih =>
    have hstill : (c.write w.1 w.2).overlay = none := by rw [Cartridge.write_eq, hbare]
    exact ih (cartridge_write_of_bare h hbare w.1 w.2) hstill

/-- The addresses below 8000 show the ROM of the cartridge. -/
theorem read_rom {b : Bus} {c : Cartridge} (h : b.cartridge = some c) {address : UInt16}
    (hrom : address.toNat < 0x8000) : b.read address = c.read address := by
  simp only [read, Place.ofAddress_rom hrom, h]

/-- Every write reaches the timer as a write to it. -/
theorem timer_write (b : Bus) (address : UInt16) (value : UInt8) :
    (b.write address value).timer = b.timer.writeAt address value := by
  have hanswers := Place.answers_ofAddress address
  have helsewhere : ¬ (0xFF04 ≤ address.toNat ∧ address.toNat ≤ 0xFF07) →
      b.timer = b.timer.writeAt address value := by
    intro hother
    unfold Timer.writeAt TimerRegister.ofAddress?
    simp only [← UInt16.toNat_inj, UInt16.reduceToNat]
    rw [if_neg (by omega), if_neg (by omega), if_neg (by omega), if_neg (by omega)]
  unfold write
  cases hplace : Place.ofAddress address with
  | timer r =>
    rw [hplace] at hanswers
    have hregister : TimerRegister.ofAddress? (.ofNat address.toNat) = some r := hanswers.2
    rw [UInt16.ofNat_toNat] at hregister
    rw [Timer.writeAt, hregister]
  | screen r =>
    rw [hplace] at hanswers
    obtain ⟨⟨hlow, -⟩, -⟩ := hanswers
    cases r with
    | dma =>
      simp only
      rw [copyToOam_eq]
      exact helsewhere (by omega)
    | _ => exact helsewhere (by omega)
  | bootSwitch =>
    rw [hplace] at hanswers
    have hswitch : address.toNat = 0xFF50 := hanswers
    simp only [switchBoot]
    split <;> exact helsewhere (by omega)
  | _ =>
    rw [hplace] at hanswers
    refine helsewhere ?_
    simp only [Place.Answers] at hanswers
    omega

end Bus
end Handheld
