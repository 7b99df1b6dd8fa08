import Handheld.Proofs.Bus.BootRom

/-!
# A boot ROM over a cartridge

A boot ROM is laid over a cartridge and taken off again, any number of times and
in any order, with writes and resets in between.  What lies over the ROM is known
from the last of these operations that is not a write, and below it the image is
always whole.

There are four groups.

* Histories.  `CartridgeOp` is what can be done to a cartridge, and `lastPlacing`
  the one operation of a history that decides what lies over the ROM.
* The cartridge.  `overlay_run` says what lies over it, and `unmapBoot_run` that
  without the boot ROM it is as if there had never been one.
* The ROM as one array, into which boot ROMs are copied.  `patchedRom_run` says
  what is kept beside it.
* The result, `overlay_of_history`.
-/

namespace Handheld

/-! ## Histories -/

/-- What can be done to a cartridge: a boot ROM is laid over it or taken off, it is
reset, or a byte is written to it. -/
inductive CartridgeOp where
  | mapBoot (boot : Array UInt8)
  | unmapBoot
  | reset
  | write (address : UInt16) (value : UInt8)

namespace CartridgeOp

/-- Whether the operation decides what lies over the ROM. -/
def places : CartridgeOp → Bool
  | write _ _ => false
  | _ => true

/-- Whether the operation does nothing else. -/
def onlyPlaces : CartridgeOp → Bool
  | mapBoot _ | unmapBoot => true
  | _ => false

/-- The boot ROM that the operation lays over the ROM. -/
def boot? : CartridgeOp → Option (Array UInt8)
  | mapBoot boot => some boot
  | _ => none

theorem boot?_eq_some_iff {op : CartridgeOp} {boot : Array UInt8} :
    op.boot? = some boot ↔ op = mapBoot boot := by
  cases op <;> simp [boot?]

end CartridgeOp

/-- The last operation of a history that decides what lies over the ROM. -/
def lastPlacing (ops : List CartridgeOp) : Option CartridgeOp :=
  (ops.filter CartridgeOp.places).getLast?

theorem lastPlacing_concat (ops : List CartridgeOp) (op : CartridgeOp) :
    lastPlacing (ops ++ [op]) = if op.places then some op else lastPlacing ops := by
  unfold lastPlacing
  rw [List.filter_append]
  split
  · next h => simp [h]
  · next h => simp [h]

/-- The boot ROM that a history leaves over the ROM. -/
def bootLeft (ops : List CartridgeOp) : Option (Array UInt8) :=
  (lastPlacing ops).bind CartridgeOp.boot?

theorem bootLeft_concat (ops : List CartridgeOp) (op : CartridgeOp) :
    bootLeft (ops ++ [op]) = if op.places then op.boot? else bootLeft ops := by
  unfold bootLeft
  rw [lastPlacing_concat]
  split <;> rfl

theorem bootLeft_eq_some_iff {ops : List CartridgeOp} {boot : Array UInt8} :
    bootLeft ops = some boot ↔ lastPlacing ops = some (.mapBoot boot) := by
  simp [bootLeft, Option.bind_eq_some_iff, CartridgeOp.boot?_eq_some_iff]

/-! ## The cartridge -/

namespace Cartridge

/-- The cartridge after an operation. -/
def apply (c : Cartridge) : CartridgeOp → Cartridge
  | .mapBoot boot => c.mapBoot boot
  | .unmapBoot => c.unmapBoot
  | .reset => c.reset
  | .write address value => c.write address value

/-- The cartridge after a history. -/
def run (c : Cartridge) (ops : List CartridgeOp) : Cartridge :=
  ops.foldl apply c

theorem run_concat (c : Cartridge) (ops : List CartridgeOp) (op : CartridgeOp) :
    c.run (ops ++ [op]) = (c.run ops).apply op := by
  simp [run]

/-- No operation changes the image below. -/
theorem image_apply (c : Cartridge) (op : CartridgeOp) : (c.apply op).image = c.image := by
  cases op with
  | write address value => rw [apply, write_eq]
  | _ => rfl

theorem image_run (c : Cartridge) (ops : List CartridgeOp) : (c.run ops).image = c.image := by
  induction ops using List.reverseRecOn with
  | nil => rfl
  | append_singleton ops op ih => rw [run_concat, image_apply, ih]

/-- What lies over the ROM after an operation. -/
theorem overlay_apply (c : Cartridge) (op : CartridgeOp) :
    (c.apply op).overlay =
      if op.places then op.boot?.map (·.extract 0 c.image.size) else c.overlay := by
  cases op with
  | write address value =>
    rw [apply, write_eq]
    rfl
  | _ => rfl

theorem overlay_run {c : Cartridge} (h : c.overlay = none) (ops : List CartridgeOp) :
    (c.run ops).overlay = (bootLeft ops).map (·.extract 0 c.image.size) := by
  induction ops using List.reverseRecOn with
  | nil => exact h
  | append_singleton ops op ih =>
    rw [run_concat, overlay_apply, image_run, ih, bootLeft_concat]
    split <;> rfl

theorem overlayFits_run {c : Cartridge} (h : c.overlay = none) (ops : List CartridgeOp) :
    (c.run ops).OverlayFits := by
  intro boot hboot
  rw [overlay_run h] at hboot
  obtain ⟨whole, -, rfl⟩ := Option.map_eq_some_iff.1 hboot
  rw [image_run, Array.size_extract]
  omega

/-- A write does the same whatever lies over the ROM. -/
theorem unmapBoot_write (c : Cartridge) (address : UInt16) (value : UInt8) :
    (c.write address value).unmapBoot = c.unmapBoot.write address value := by
  have hoffset : c.unmapBoot.ramOffset? address = c.ramOffset? address := rfl
  unfold write
  rw [hoffset]
  split
  · cases hcontroller : c.controller <;> simp [unmapBoot, hcontroller]
  · split
    · cases c.ramOffset? address <;> rfl
    · rfl

theorem unmapBoot_apply (c : Cartridge) (op : CartridgeOp) :
    (c.apply op).unmapBoot = if op.onlyPlaces then c.unmapBoot else c.unmapBoot.apply op := by
  cases op with
  | write address value => exact c.unmapBoot_write address value
  | _ => rfl

/-- Without its boot ROM the cartridge is as if there had never been one. -/
theorem unmapBoot_run {c : Cartridge} (h : c.overlay = none) (ops : List CartridgeOp) :
    (c.run ops).unmapBoot = c.run (ops.filter fun op => !op.onlyPlaces) := by
  induction ops using List.reverseRecOn with
  | nil =>
    rw [run, List.foldl_nil, unmapBoot, ← h]
    rfl
  | append_singleton ops op ih =>
    rw [run_concat, unmapBoot_apply, ih, List.filter_append]
    cases hop : op.onlyPlaces with
    | true => simp [hop]
    | false => simp [hop, run_concat]

/-- A boot ROM is cut to the length of the ROM, and the rest of the image shows
behind it. -/
theorem rom_eq_append {c : Cartridge} {boot : Array UInt8}
    (h : c.overlay = some (boot.extract 0 c.image.size)) :
    c.rom = boot.extract 0 c.image.size ++ c.image.extract boot.size c.image.size := by
  rw [rom, h]
  simp only [Array.size_extract, Nat.sub_zero]
  by_cases hlonger : c.image.size ≤ boot.size
  · rw [Nat.min_eq_left hlonger]
    simp [hlonger]
  · rw [Nat.min_eq_right (by omega)]

end Cartridge

/-! ## The ROM as one array -/

namespace Checked.PatchedRom

/-- The ROM after an operation.  A write leaves it alone. -/
def apply (p : PatchedRom) : CartridgeOp → Result PatchedRom
  | .mapBoot boot => p.map boot
  | .unmapBoot | .reset => p.unmap
  | .write _ _ => return p

/-- The ROM after a history. -/
def run (p : PatchedRom) (ops : List CartridgeOp) : Result PatchedRom :=
  ops.foldlM apply p

/-- On the ROM of a cartridge whose overlay fits, no operation meets a fault. -/
theorem apply_patchedRom {c : Cartridge} (h : c.OverlayFits) (op : CartridgeOp) :
    (patchedRom c).apply op = .ok (patchedRom (c.apply op)) := by
  cases op with
  | mapBoot boot => exact map_patchedRom h boot
  | unmapBoot | reset => exact unmap_patchedRom h
  | write address value =>
    simp only [apply, Cartridge.apply, RomSlot.patchedRom_write]
    rfl

/-- On the ROM of a fresh cartridge, no history meets a fault. -/
theorem run_patchedRom {c : Cartridge} (h : c.overlay = none) (ops : List CartridgeOp) :
    (patchedRom c).run ops = .ok (patchedRom (c.run ops)) := by
  induction ops using List.reverseRecOn with
  | nil => rfl
  | append_singleton ops op ih =>
    -- what the history so far has laid over the ROM fits, so it can be copied back
    have hlast := apply_patchedRom (Cartridge.overlayFits_run h ops) op
    rw [Cartridge.run_concat, ← hlast]
    simp only [run, List.foldlM_append] at ih ⊢
    rw [ih, ok_bind]
    simp

/-- The bytes kept beside the ROM are those that the boot ROM hides. -/
theorem patchedRom_run {c : Cartridge} (h : c.overlay = none) (ops : List CartridgeOp) :
    patchedRom (c.run ops) =
      { rom := (c.run ops).rom
        hidden := (bootLeft ops).map fun boot => c.image.extract 0 boot.size } := by
  rw [patchedRom, Cartridge.overlay_run h, Cartridge.image_run]
  cases bootLeft ops with
  | none => rfl
  | some boot => simp [Array.extract_eq_extract_right, Nat.min_comm]

end Checked.PatchedRom

/-! ## The result -/

namespace Cartridge

/-- What lies over a cartridge after any history is the boot ROM that was laid over
it last, unless it was taken off since.  The rest of the image shows behind it, and
all of it once it is off.  The same holds of the one array into which boot ROMs are
copied, where the hidden bytes are kept beside it.  Laying a boot ROM over the ROM
and taking it off leaves no trace but this. -/
theorem overlay_of_history {image : Array UInt8} {c : Cartridge} (hload : load image = .ok c)
    (ops : List CartridgeOp) :
    let now := c.run ops
    (now.bootMapped = true ↔ ∃ boot, lastPlacing ops = some (.mapBoot boot)) ∧
    (∀ boot, lastPlacing ops = some (.mapBoot boot) →
      now.rom = boot.extract 0 image.size ++ image.extract boot.size image.size) ∧
    ((∀ boot, lastPlacing ops ≠ some (.mapBoot boot)) → now.rom = image) ∧
    now.rom.size = image.size ∧
    Checked.PatchedRom.run { rom := image, hidden := none } ops =
      .ok { rom := now.rom, hidden := (bootLeft ops).map fun boot => image.extract 0 boot.size } ∧
    now.unmapBoot = c.run (ops.filter fun op => !op.onlyPlaces) ∧
    (∀ op, op.places = true → (now.apply op).ram = now.ram) ∧
    (∀ op, op.onlyPlaces = true → (now.apply op).banking = now.banking) := by
  intro now
  obtain ⟨himage, hbare⟩ := overlay_of_load hload
  have hover : now.overlay = (bootLeft ops).map (·.extract 0 image.size) := by
    rw [← himage]
    exact overlay_run hbare ops
  have hbelow : now.image = image := (image_run c ops).trans himage
  have hunder : ∀ boot, bootLeft ops = some boot →
      now.rom = boot.extract 0 image.size ++ image.extract boot.size image.size := by
    intro boot hboot
    rw [hboot, ← hbelow] at hover
    rw [rom_eq_append hover, hbelow]
  have hoff : bootLeft ops = none → now.rom = image := by
    intro hnone
    rw [hnone] at hover
    rw [rom, hover, hbelow]
    rfl
  refine ⟨?_, ?_, ?_, ?_, ?_, unmapBoot_run hbare ops, ?_, ?_⟩
  · simp only [bootMapped, hover, Option.isSome_map, Option.isSome_iff_exists,
      bootLeft_eq_some_iff]
  · intro boot hlast
    exact hunder boot (bootLeft_eq_some_iff.2 hlast)
  · intro hlast
    refine hoff (Option.eq_none_iff_forall_ne_some.2 fun boot hboot => ?_)
    exact hlast boot (bootLeft_eq_some_iff.1 hboot)
  · cases hboot : bootLeft ops with
    | none => rw [hoff hboot]
    | some boot =>
      rw [hunder boot hboot, Array.size_append, Array.size_extract, Array.size_extract]
      omega
  · rw [← himage, ← Checked.patchedRom_of_bare hbare, Checked.PatchedRom.run_patchedRom hbare,
      Checked.PatchedRom.patchedRom_run hbare]
  · intro op hplaces
    cases op with
    | write address value => cases hplaces
    | _ => rfl
  · intro op honly
    cases op with
    | mapBoot _ | unmapBoot => rfl
    | _ => cases honly

/-- A boot ROM longer than the ROM gives way to a short one, and that one comes off
when the cartridge is reset. -/
theorem overlay_of_two_boots :
    let image := Array.replicate 0x150 0x11
    let ops : List CartridgeOp :=
      [.mapBoot (.replicate 0x200 0xAA), .write 0x2000 0x02, .mapBoot #[0xBB, 0xCC]]
    load image = .ok (.ofImage image) ∧
      ((ofImage image).run ops).rom = #[0xBB, 0xCC] ++ image.extract 2 0x150 ∧
      ((ofImage image).run (ops ++ [.reset, .write 0x0000 0x0A])).rom = image := by
  intro image ops
  have hload : load image = .ok (.ofImage image) := by
    rw [load_eq_ok_iff, sizeLimit]
    simp [image]
  have hsize : image.size = 0x150 := Array.size_replicate
  obtain ⟨-, hunder, -⟩ := overlay_of_history hload ops
  obtain ⟨-, -, hoff, -⟩ := overlay_of_history hload (ops ++ [.reset, .write 0x0000 0x0A])
  refine ⟨hload, ?_, hoff fun boot hlast => ?_⟩
  · rw [hunder #[0xBB, 0xCC] rfl, hsize]
    rfl
  · cases hlast

end Cartridge
end Handheld
