import Handheld.Proofs.Bus.Slot
import Handheld.Proofs.Cartridge.Loading
import Handheld.Proofs.Checked.Cartridge

/-!
# The boot ROM on the bus

A boot ROM lies over the start of the ROM until a program takes it off for good.
It may be installed before the cartridge or after it, and both may be replaced:
what shows is known from the boot ROM installed last, the image inserted last,
and whether the switch was thrown.

There are four groups.

* Histories.  `BusOp` is what can be done to the bus from outside, and
  `bootOf`, `imageOf` and `thrown` are what of a history matters.
* The bus.  `BootInPlace` says that the boot ROM lies where it belongs, and
  `BootInPlace.apply` that every operation keeps it there.
* The ROM as one array, into which a boot ROM is copied.  `Checked.RomSlot` goes
  through the same history, and `Checked.RomSlot.run_ofBus` says that it meets
  no fault and comes to the same ROM.
* The result, `rom_of_history`.
-/

namespace Handheld

/-! ## Histories -/

/-- What can be done to the bus: a boot ROM is installed, the cartridge with an
image is inserted if the image can be loaded, or a byte is written. -/
inductive BusOp where
  | installBoot (boot : Array UInt8)
  | insert (image : Array UInt8)
  | write (address : UInt16) (value : UInt8)

namespace BusOp

/-- The boot ROM that is installed. -/
def boot? : BusOp → Option (Array UInt8)
  | installBoot boot => some boot
  | _ => none

/-- The image that is inserted. -/
def image? : BusOp → Option (Array UInt8)
  | insert image => (Cartridge.load image).toOption.map fun _ => image
  | _ => none

/-- Whether the boot ROM is taken off: a byte other than zero is written to the
switch. -/
def throwsSwitch : BusOp → Bool
  | write address value => address == 0xFF50 && value != 0
  | _ => false

end BusOp

/-- The boot ROM installed last. -/
def bootOf (ops : List BusOp) : Option (Array UInt8) :=
  (ops.filterMap BusOp.boot?).getLast?

/-- The image inserted last. -/
def imageOf (ops : List BusOp) : Option (Array UInt8) :=
  (ops.filterMap BusOp.image?).getLast?

/-- Whether the switch was thrown. -/
def thrown (ops : List BusOp) : Bool :=
  ops.any BusOp.throwsSwitch

/-- An image under a boot ROM: each byte is that of the boot ROM where it has
one. -/
def underBootRom (image boot : Array UInt8) : Array UInt8 :=
  image.mapIdx fun offset byte => boot.getD offset byte

theorem getD_underBootRom {image boot : Array UInt8} {offset : Nat} (h : offset < image.size)
    (fallback : UInt8) :
    (underBootRom image boot).getD offset fallback = boot.getD offset image[offset] := by
  simp [underBootRom, h]

/-- The ROM that shows after a history. -/
def romAfter (ops : List BusOp) : Option (Array UInt8) :=
  (imageOf ops).map fun image =>
    match bootOf ops with
    | some boot => if thrown ops then image else underBootRom image boot
    | none => image

section

variable (ops : List BusOp) (op : BusOp)

theorem bootOf_concat : bootOf (ops ++ [op]) = op.boot?.or (bootOf ops) := by
  unfold bootOf
  cases h : op.boot? <;> simp [h]

theorem imageOf_concat : imageOf (ops ++ [op]) = op.image?.or (imageOf ops) := by
  unfold imageOf
  cases h : op.image? <;> simp [h]

theorem thrown_concat : thrown (ops ++ [op]) = (thrown ops || op.throwsSwitch) := by
  simp [thrown]

end

/-- What follows the switch does not bring a boot ROM back. -/
theorem romAfter_thrown {ops : List BusOp} (h : thrown ops = true) :
    romAfter ops = imageOf ops := by
  unfold romAfter
  rw [h]
  cases bootOf ops <;> simp

/-! ## The bus -/

namespace Cartridge

/-- A boot ROM that was laid over the image hides its start. -/
theorem rom_of_overlay {c : Cartridge} {boot : Array UInt8}
    (h : c.overlay = some (boot.extract 0 c.image.size)) : c.rom = underBootRom c.image boot := by
  have hcut : (boot.extract 0 c.image.size).size = min c.image.size boot.size := by
    rw [Array.size_extract, Nat.sub_zero]
  apply Array.ext
  · simp only [rom, h, underBootRom, Array.size_append, Array.size_extract, Array.size_mapIdx]
    omega
  · intro offset hrom hunder
    have hin : offset < c.image.size := by simpa [underBootRom] using hunder
    simp only [rom, h, underBootRom, Array.getElem_mapIdx, Array.getElem_append, hcut]
    by_cases hboot : offset < boot.size
    · rw [dif_pos (by omega)]
      simp [hboot]
    · have hsum : boot.size + (offset - boot.size) = offset := by omega
      have hmin : min c.image.size boot.size = boot.size := by omega
      rw [dif_neg (by omega)]
      simp [hboot, hmin, hsum]

theorem overlay_of_load {image : Array UInt8} {c : Cartridge} (h : load image = .ok c) :
    c.image = image ∧ c.overlay = none := by
  obtain ⟨-, -, rfl⟩ := load_eq_ok_iff.1 h
  exact ⟨rfl, rfl⟩

end Cartridge

namespace Bus

/-- The bus after an operation. -/
def apply (b : Bus) : BusOp → Bus
  | .installBoot boot => b.installBoot boot
  | .insert image =>
    match Cartridge.load image with
    | .ok c => b.insert c
    | .error _ => b
  | .write address value => b.write address value

/-- The bus after a history. -/
def run (b : Bus) (ops : List BusOp) : Bus :=
  ops.foldl apply b

theorem run_concat (b : Bus) (ops : List BusOp) (op : BusOp) :
    b.run (ops ++ [op]) = (b.run ops).apply op := by
  simp [run]

/-- What the bus lays over an image. -/
def overlayOf (b : Bus) (image : Array UInt8) : Option (Array UInt8) :=
  if b.bootDisabled then none else b.bootRom.map (·.extract 0 image.size)

/-- The boot ROM lies over the inserted cartridge, cut to its length, unless it
was taken off. -/
def BootInPlace (b : Bus) : Prop :=
  ∀ c ∈ b.cartridge, c.overlay = b.overlayOf c.image

theorem underBoot_overlay (b : Bus) {c : Cartridge} (h : c.overlay = none) :
    (b.underBoot c).overlay = b.overlayOf c.image := by
  unfold underBoot overlayOf
  cases b.bootRom <;> cases b.bootDisabled <;> first | exact h | rfl

theorem underBoot_image (b : Bus) (c : Cartridge) : (b.underBoot c).image = c.image := by
  unfold underBoot
  split
  · split <;> rfl
  · rfl

theorem bootDisabled_switchBoot (b : Bus) (value : UInt8) :
    (b.switchBoot value).bootDisabled = (b.bootDisabled || value != 0) := by
  unfold switchBoot
  cases hdisabled : b.bootDisabled with
  | true =>
    rw [if_neg (by simp), hdisabled, Bool.true_or]
  | false =>
    by_cases hzero : value = 0
    · rw [if_neg (by simp [hzero]), hdisabled, hzero]
      rfl
    · rw [if_pos ⟨hzero, rfl⟩, bne_iff_ne.2 hzero]
      rfl

section

variable (b : Bus) (op : BusOp)

theorem bootRom_apply : (b.apply op).bootRom = op.boot?.or b.bootRom := by
  cases op with
  | installBoot boot =>
    show (b.installBoot boot).bootRom = some boot
    unfold installBoot
    split <;> rfl
  | insert image =>
    simp only [apply]
    split <;> rfl
  | write address value => exact b.bootRom_write address value

theorem bootDisabled_apply : (b.apply op).bootDisabled = (b.bootDisabled || op.throwsSwitch) := by
  cases op with
  | installBoot boot =>
    show (b.installBoot boot).bootDisabled = (b.bootDisabled || false)
    unfold installBoot
    split <;> simp
  | insert image =>
    simp only [apply, BusOp.throwsSwitch, Bool.or_false]
    split <;> rfl
  | write address value =>
    simp only [apply, BusOp.throwsSwitch]
    by_cases hswitch : address = 0xFF50
    · rw [hswitch, write_bootSwitch, bootDisabled_switchBoot]
      rfl
    · rw [(b.cartridge_write value hswitch).2]
      simp [hswitch]

theorem image_apply :
    (b.apply op).cartridge.map (·.image) = op.image?.or (b.cartridge.map (·.image)) := by
  cases op with
  | installBoot boot =>
    show (b.installBoot boot).cartridge.map (·.image) = b.cartridge.map (·.image)
    unfold installBoot
    split
    · rfl
    · cases b.cartridge <;> rfl
  | insert image =>
    cases hload : Cartridge.load image with
    | error e => simp [apply, BusOp.image?, hload, Except.toOption]
    | ok c =>
      simp [apply, BusOp.image?, hload, Except.toOption, insert, underBoot_image,
        (Cartridge.overlay_of_load hload).1]
  | write address value =>
    show (b.write address value).cartridge.map (·.image) = b.cartridge.map (·.image)
    by_cases hswitch : address = 0xFF50
    · rw [hswitch, write_bootSwitch, switchBoot]
      split
      · cases b.cartridge <;> rfl
      · rfl
    · rw [(b.cartridge_write value hswitch).1]
      cases b.cartridge with
      | none => rfl
      | some c =>
        have himage : (c.write address value).image = c.image := by rw [c.write_eq]
        simp only [Option.map_some, himage]

end

namespace BootInPlace

variable {b : Bus}

theorem installBoot (h : b.BootInPlace) (boot : Array UInt8) :
    (b.installBoot boot).BootInPlace := by
  intro c hc
  unfold Bus.installBoot at hc ⊢
  cases hdisabled : b.bootDisabled with
  | true =>
    -- neither the boot ROM before nor the one behind shows
    rw [hdisabled] at hc
    rw [h c hc, overlayOf, overlayOf, hdisabled]
    rfl
  | false =>
    rw [hdisabled] at hc
    obtain ⟨before, -, rfl⟩ := Option.map_eq_some_iff.1 hc
    rw [overlayOf]
    rfl

theorem insert {image : Array UInt8} {c : Cartridge} (hload : Cartridge.load image = .ok c) :
    (b.insert c).BootInPlace := by
  rintro _ ⟨⟩
  rw [underBoot_overlay b (Cartridge.overlay_of_load hload).2, underBoot_image]
  rfl

theorem write (h : b.BootInPlace) (address : UInt16) (value : UInt8) :
    (b.write address value).BootInPlace := by
  intro c hc
  by_cases hswitch : address = 0xFF50
  · rw [hswitch, write_bootSwitch] at hc ⊢
    unfold switchBoot at hc ⊢
    split at hc
    · next hthrow =>
      rw [if_pos hthrow]
      obtain ⟨before, -, rfl⟩ := Option.map_eq_some_iff.1 hc
      rfl
    · next hthrow =>
      rw [if_neg hthrow]
      exact h c hc
  · obtain ⟨hcartridge, hdisabled⟩ := b.cartridge_write value hswitch
    rw [hcartridge] at hc
    obtain ⟨before, hbefore, rfl⟩ := Option.map_eq_some_iff.1 hc
    rw [before.write_eq, overlayOf, hdisabled, b.bootRom_write]
    exact h before hbefore

/-- Every operation leaves the boot ROM where it belongs. -/
theorem apply (h : b.BootInPlace) (op : BusOp) : (b.apply op).BootInPlace := by
  cases op with
  | installBoot boot => exact h.installBoot boot
  | insert image =>
    simp only [Bus.apply]
    split
    · next hload => exact insert hload
    · exact h
  | write address value => exact h.write address value

theorem overlayFits (h : b.BootInPlace) : ∀ c ∈ b.cartridge, c.OverlayFits := by
  intro c hc boot hboot
  rw [h c hc, overlayOf] at hboot
  split at hboot
  · cases hboot
  · obtain ⟨whole, -, rfl⟩ := Option.map_eq_some_iff.1 hboot
    rw [Array.size_extract]
    omega

/-- What shows of a cartridge under the boot ROM. -/
theorem rom (h : b.BootInPlace) {c : Cartridge} (hc : b.cartridge = some c) :
    c.rom =
      match b.bootRom with
      | some boot => if b.bootDisabled then c.image else underBootRom c.image boot
      | none => c.image := by
  have hoverlay := h c hc
  unfold overlayOf at hoverlay
  cases hboot : b.bootRom with
  | none =>
    have hnone : c.overlay = none := by simpa [hboot] using hoverlay
    rw [Cartridge.rom, hnone]
  | some boot =>
    rw [hboot] at hoverlay
    cases hdisabled : b.bootDisabled with
    | true =>
      have hnone : c.overlay = none := by simpa [hdisabled] using hoverlay
      rw [Cartridge.rom, hnone]
      rfl
    | false =>
      exact Cartridge.rom_of_overlay (by simpa [hdisabled] using hoverlay)

end BootInPlace

/-! ## Histories from power-on -/

section

variable (ops : List BusOp)

theorem bootRom_run : (powerOn.run ops).bootRom = bootOf ops := by
  induction ops using List.reverseRecOn with
  | nil => rfl
  | append_singleton ops op ih => rw [run_concat, bootRom_apply, bootOf_concat, ih]

theorem bootDisabled_run : (powerOn.run ops).bootDisabled = thrown ops := by
  induction ops using List.reverseRecOn with
  | nil => rfl
  | append_singleton ops op ih => rw [run_concat, bootDisabled_apply, thrown_concat, ih]

theorem image_run : (powerOn.run ops).cartridge.map (·.image) = imageOf ops := by
  induction ops using List.reverseRecOn with
  | nil => rfl
  | append_singleton ops op ih => rw [run_concat, image_apply, imageOf_concat, ih]

theorem bootInPlace_run : (powerOn.run ops).BootInPlace := by
  induction ops using List.reverseRecOn with
  | nil => rintro _ ⟨⟩
  | append_singleton ops op ih =>
    rw [run_concat]
    exact ih.apply op

/-- The bus shows the ROM that its history says. -/
theorem rom_run : (powerOn.run ops).cartridge.map (·.rom) = romAfter ops := by
  unfold romAfter
  rw [← image_run, ← bootRom_run, ← bootDisabled_run]
  cases hcartridge : (powerOn.run ops).cartridge with
  | none => rfl
  | some c => exact congrArg some ((bootInPlace_run ops).rom hcartridge)

end

end Bus

/-! ## The ROM as one array -/

namespace Checked

/-- The ROM of the inserted cartridge as one array, the boot ROM, and whether it
was taken off.  Here a boot ROM is copied over the ROM itself, so the bytes that
it hides are only kept beside it. -/
structure RomSlot where
  rom : Option PatchedRom := none
  bootRom : Option (Array UInt8) := none
  bootDisabled : Bool := false

namespace RomSlot

/-- Copies the boot ROM over a ROM, if there is one that was not taken off. -/
def underBoot (s : RomSlot) (p : PatchedRom) : Result PatchedRom :=
  match s.bootRom with
  | some boot => if s.bootDisabled then return p else p.map boot
  | none => return p

/-- Puts a ROM in. -/
def put (s : RomSlot) (p : PatchedRom) : Result RomSlot := do
  return { s with rom := some (← s.underBoot p) }

/-- Inserts a cartridge with an image. -/
def insert (s : RomSlot) (image : Array UInt8) : Result RomSlot :=
  s.put { rom := image, hidden := none }

/-- Installs a boot ROM. -/
def installBoot (s : RomSlot) (boot : Array UInt8) : Result RomSlot := do
  match s.rom with
  | some p =>
    if s.bootDisabled then return { s with bootRom := some boot }
    else return { s with rom := some (← p.map boot), bootRom := some boot }
  | none => return { s with bootRom := some boot }

/-- Writes the boot switch. -/
def switchBoot (s : RomSlot) (value : UInt8) : Result RomSlot := do
  if value ≠ 0 ∧ s.bootDisabled = false then
    match s.rom with
    | some p => return { s with rom := some (← p.unmap), bootDisabled := true }
    | none => return { s with bootDisabled := true }
  else return s

/-- The slot after an operation.  No write but that of the boot switch changes
it. -/
def apply (s : RomSlot) : BusOp → Result RomSlot
  | .installBoot boot => s.installBoot boot
  | .insert image =>
    match Cartridge.load image with
    | .ok c => s.insert c.image
    | .error _ => return s
  | .write address value => if address = 0xFF50 then s.switchBoot value else return s

/-- The slot after a history. -/
def run (s : RomSlot) (ops : List BusOp) : Result RomSlot :=
  ops.foldlM apply s

/-- The slot of a bus. -/
def ofBus (b : Bus) : RomSlot where
  rom := b.cartridge.map patchedRom
  bootRom := b.bootRom
  bootDisabled := b.bootDisabled

theorem underBoot_ofBus (b : Bus) {c : Cartridge} (h : c.overlay = none) :
    (ofBus b).underBoot (patchedRom c) = .ok (patchedRom (b.underBoot c)) := by
  have hmap := map_patchedRom (Cartridge.overlayFits_of_none h)
  unfold underBoot Bus.underBoot ofBus
  cases b.bootRom with
  | none => rfl
  | some boot =>
    cases b.bootDisabled with
    | true => rfl
    | false => exact hmap boot

theorem put_ofBus (b : Bus) {c : Cartridge} (h : c.overlay = none) :
    (ofBus b).put (patchedRom c) = .ok (ofBus (b.insert c)) := by
  rw [put, underBoot_ofBus b h]
  rfl

theorem patchedRom_write (c : Cartridge) (address : UInt16) (value : UInt8) :
    patchedRom (c.write address value) = patchedRom c := by
  rw [c.write_eq]
  rfl

section

variable {b : Bus} (h : ∀ c ∈ b.cartridge, c.OverlayFits)
include h

theorem installBoot_ofBus (boot : Array UInt8) :
    (ofBus b).installBoot boot = .ok (ofBus (b.installBoot boot)) := by
  unfold installBoot Bus.installBoot ofBus
  cases hcartridge : b.cartridge with
  | none => cases b.bootDisabled <;> rfl
  | some c =>
    have hmap := map_patchedRom (h c hcartridge) boot
    cases hdisabled : b.bootDisabled with
    | true => rfl
    | false => simp [hmap, ok_bind, pure_eq_ok]

theorem switchBoot_ofBus (value : UInt8) :
    (ofBus b).switchBoot value = .ok (ofBus (b.switchBoot value)) := by
  unfold switchBoot Bus.switchBoot
  by_cases hthrow : value ≠ 0 ∧ b.bootDisabled = false
  · have hthrow' : value ≠ 0 ∧ (ofBus b).bootDisabled = false := hthrow
    rw [if_pos hthrow, if_pos hthrow', ofBus, ofBus]
    cases hcartridge : b.cartridge with
    | none => rfl
    | some c =>
      have hunmap := unmap_patchedRom (h c hcartridge)
      simp only [Option.map_some, hunmap, ok_bind, pure_eq_ok]
      rfl
  · have hthrow' : ¬ (value ≠ 0 ∧ (ofBus b).bootDisabled = false) := hthrow
    rw [if_neg hthrow, if_neg hthrow']
    rfl

/-- An operation on a bus whose overlay fits meets no fault on its slot. -/
theorem apply_ofBus (op : BusOp) : (ofBus b).apply op = .ok (ofBus (b.apply op)) := by
  cases op with
  | installBoot boot => exact installBoot_ofBus h boot
  | insert image =>
    simp only [apply, Bus.apply]
    cases hload : Cartridge.load image with
    | error e => rfl
    | ok c =>
      have hbare := (Cartridge.overlay_of_load hload).2
      simp only [insert]
      rw [← patchedRom_of_bare hbare, put_ofBus b hbare]
  | write address value =>
    simp only [apply, Bus.apply]
    by_cases hswitch : address = 0xFF50
    · rw [if_pos hswitch, hswitch, Bus.write_bootSwitch]
      exact switchBoot_ofBus h value
    · obtain ⟨hcartridge, hdisabled⟩ := b.cartridge_write value hswitch
      have hrom : (b.cartridge.map (·.write address value)).map patchedRom =
          b.cartridge.map patchedRom := by
        rw [Option.map_map]
        congr 1
        funext c
        exact patchedRom_write c address value
      rw [if_neg hswitch, ofBus, ofBus, hcartridge, hrom, hdisabled, b.bootRom_write]
      rfl

end

/-- From power-on no operation meets a fault. -/
theorem run_ofBus (ops : List BusOp) : run {} ops = .ok (ofBus (Bus.powerOn.run ops)) := by
  induction ops using List.reverseRecOn with
  | nil => rfl
  | append_singleton ops op ih =>
    -- a boot ROM in its place is no longer than the ROM, so that it can be copied back
    have hlast := apply_ofBus (Bus.bootInPlace_run ops).overlayFits op
    rw [Bus.run_concat, ← hlast]
    simp only [run, List.foldlM_append] at ih ⊢
    rw [ih, ok_bind]
    simp

end RomSlot
end Checked

/-! ## The result -/

namespace Bus

/-- The boot ROM and the cartridge can be put on the bus in either order. -/
theorem run_installBoot_insert (b : Bus) (boot image : Array UInt8) :
    b.run [.installBoot boot, .insert image] = b.run [.insert image, .installBoot boot] := by
  simp only [run, List.foldl_cons, List.foldl_nil, apply]
  cases Cartridge.load image with
  | error e => rfl
  | ok c =>
    show (b.installBoot boot).insert c = (b.insert c).installBoot boot
    cases hdisabled : b.bootDisabled with
    | true =>
      simp only [installBoot, insert, underBoot, hdisabled, if_true]
      cases b.bootRom <;> rfl
    | false =>
      simp only [installBoot, insert, underBoot, hdisabled, Bool.false_eq_true, if_false]
      cases b.bootRom <;> rfl

/-- The addresses of the first window show the start of the ROM. -/
theorem read_lowRom (b : Bus) {address : UInt16} (h : address < 0x4000) :
    b.read address = (b.cartridge.map (·.rom)).elim 0xFF (·.getD address.toNat 0xFF) := by
  have hrom : address.toNat < 0x8000 := by
    simp only [UInt16.lt_iff_toNat_lt, UInt16.reduceToNat] at h
    omega
  simp only [read, Place.ofAddress_rom hrom]
  cases b.cartridge with
  | none => rfl
  | some c =>
    simp only [Option.map_some, Option.elim_some, Checked.getD_rom, Cartridge.read]
    rw [if_pos h]

theorem write_bootSwitch_zero (b : Bus) : b.write 0xFF50 0 = b := by
  rw [write_bootSwitch, switchBoot, if_neg (by simp)]

/-- The ROM that shows is known from the history: the boot ROM installed last
over the image inserted last, until the switch is thrown, and the image alone
from then on.  The same ROM is in the one array into which boot ROMs are copied,
and programs read it. -/
theorem rom_of_history (ops : List BusOp) :
    let now := powerOn.run ops
    now.cartridge.map (·.rom) = romAfter ops ∧
    (∃ slot, Checked.RomSlot.run {} ops = .ok slot ∧ slot.rom.map (·.rom) = romAfter ops) ∧
    (∀ address, address < 0x4000 →
      now.read address = (romAfter ops).elim 0xFF (·.getD address.toNat 0xFF)) ∧
    (∀ boot image,
      now.run [.installBoot boot, .insert image] = now.run [.insert image, .installBoot boot]) ∧
    now.write 0xFF50 0 = now ∧
    ∀ value later, value ≠ 0 →
      (powerOn.run (ops ++ .write 0xFF50 value :: later)).cartridge.map (·.rom) =
        imageOf (ops ++ later) := by
  intro now
  have hrom : now.cartridge.map (·.rom) = romAfter ops := rom_run ops
  refine ⟨hrom, ⟨_, Checked.RomSlot.run_ofBus ops, ?_⟩, ?_, now.run_installBoot_insert,
    now.write_bootSwitch_zero, ?_⟩
  · rw [← hrom]
    simp only [Checked.RomSlot.ofBus, Option.map_map]
    rfl
  · intro address hlow
    rw [now.read_lowRom hlow, hrom]
  · intro value later hvalue
    have hthrown : thrown (ops ++ .write 0xFF50 value :: later) = true := by
      simp [thrown, BusOp.throwsSwitch, hvalue]
    rw [rom_run, romAfter_thrown hthrown]
    simp [imageOf, BusOp.image?]

/-- A boot ROM of two bytes shows over an image.  Once it was taken off, no
other boot ROM shows over the image inserted then. -/
theorem rom_of_history_two_boots :
    let image := Array.replicate 0x150 0x11
    let ops : List BusOp := [.insert image, .installBoot #[0xAA, 0xBB]]
    let later : List BusOp := [.installBoot #[0xCC], .insert image]
    (powerOn.run ops).read 0x0001 = 0xBB ∧ (powerOn.run ops).read 0x0002 = 0x11 ∧
      (powerOn.run (ops ++ .write 0xFF50 0x01 :: later)).cartridge.map (·.rom) = some image := by
  intro image ops later
  have hload : Cartridge.load image = .ok (.ofImage image) := by
    rw [Cartridge.load_eq_ok_iff, Cartridge.sizeLimit]
    simp [image]
  have himage : BusOp.image? (.insert image) = some image := by
    rw [BusOp.image?, hload]
    rfl
  have hinserted : imageOf ops = some image := by
    rw [imageOf, List.filterMap_cons_some himage]
    rfl
  have hboot : bootOf ops = some #[0xAA, 0xBB] := rfl
  have hthrown : thrown ops = false := rfl
  have hrom : romAfter ops = some (underBootRom image #[0xAA, 0xBB]) := by
    simp [romAfter, hinserted, hboot, hthrown]
  obtain ⟨-, -, hread, -, -, hoff⟩ := rom_of_history ops
  refine ⟨?_, ?_, ?_⟩
  · rw [hread 0x0001 (by decide), hrom, Option.elim_some, getD_underBootRom (by simp [image])]
    rfl
  · rw [hread 0x0002 (by decide), hrom, Option.elim_some, getD_underBootRom (by simp [image])]
    simp [image]
  · rw [hoff 0x01 later (by decide)]
    simp [imageOf, later, himage]

end Bus
end Handheld
