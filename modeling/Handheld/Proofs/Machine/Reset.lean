import Handheld.Proofs.Bus.BootRom
import Handheld.Proofs.Checked.Machine

/-!
# The reset

A reset leaves nothing of what a machine has been through but the RAM of its
cartridge and the state of its buttons: the machine is as if it had just been
assembled of the boot ROM and the image that it holds.

There are three groups.

* What a reset depends on.  `reset_congr` names it; a second reset therefore
  changes nothing.
* The ROM as one array.  A reset takes it out as it is, with the boot ROM copied
  into it or not, and puts it back: `Checked.RomSlot.reset_ofBus`.
* Machines of known provenance.  `reset_of_provenance` says what a reset makes
  of them.
-/

namespace Handheld
namespace Machine

/-! ## What a reset depends on -/

/-- The RAM of the cartridge. -/
def cartridgeRam (m : Machine) : Option (Array UInt8) :=
  m.bus.cartridge.map (·.ram)

/-- What a reset keeps of the cartridge are its shell and its RAM. -/
theorem cartridge_reset_congr {m other : Machine} (hparts : m.bus.parts = other.bus.parts)
    (hram : m.cartridgeRam = other.cartridgeRam) :
    m.bus.cartridge.map (·.reset) = other.bus.cartridge.map (·.reset) := by
  have hshell : m.bus.cartridge.map (·.shell) = other.bus.cartridge.map (·.shell) :=
    congrArg Prod.snd hparts
  unfold cartridgeRam at hram
  cases hc : m.bus.cartridge <;> cases hd : other.bus.cartridge <;>
    simp only [hc, hd, Option.map_none, Option.map_some, reduceCtorEq, Option.some.injEq]
      at hshell hram ⊢
  rename_i c d
  rw [Cartridge.reset_eq_of_shell hshell, hram]
  rfl

/-- A reset takes the boot ROM off the cartridge. -/
theorem overlay_reset (m : Machine) :
    ∀ c ∈ m.bus.cartridge.map (·.reset), c.overlay = none := by
  rintro _ hc
  obtain ⟨before, -, rfl⟩ := Option.map_eq_some_iff.1 hc
  rfl

/-- A reset depends on the kind of the machine, on its parts, on the RAM of the
cartridge and on the buttons, and on nothing else. -/
theorem reset_congr {m other : Machine} (hkind : m.startsAtPowerOn = other.startsAtPowerOn)
    (hparts : m.bus.parts = other.bus.parts) (hram : m.cartridgeRam = other.cartridgeRam)
    (hbuttons : m.bus.joypad.buttons = other.bus.joypad.buttons) : m.reset = other.reset := by
  have hfresh : m.fresh = other.fresh := by rw [fresh, hkind, fresh]
  have hboot : m.bus.bootRom = other.bus.bootRom := congrArg Prod.fst hparts
  rw [reset_eq_assemble, reset_eq_assemble, hfresh, hboot, hbuttons,
    cartridge_reset_congr hparts hram]

theorem cartridgeRam_reset (m : Machine) : m.reset.cartridgeRam = m.cartridgeRam := by
  unfold reset cartridgeRam
  cases m.startsAtPowerOn <;> cases m.bus.bootRom <;> cases m.bus.cartridge <;> rfl

theorem buttons_reset (m : Machine) :
    m.reset.bus.joypad.buttons = m.bus.joypad.buttons := by
  rw [reset_eq_assemble]
  rfl

/-- Resetting twice is resetting once. -/
theorem reset_reset (m : Machine) : m.reset.reset = m.reset :=
  reset_congr m.startsAtPowerOn_reset m.parts_reset m.cartridgeRam_reset m.buttons_reset

end Machine

/-! ## The ROM as one array -/

namespace Checked.RomSlot

/-- The slot of a machine that is assembled: a boot ROM is installed, then a ROM
is put in. -/
def assemble (bootDisabled : Bool) (boot : Option (Array UInt8)) (rom : Option PatchedRom) :
    Result RomSlot := do
  let bare : RomSlot := { bootDisabled }
  let s ← boot.elim (return bare) bare.installBoot
  rom.elim (return s) s.put

/-- The slot of a machine that is reset.  The ROM is taken out, gets back what a
boot ROM hides of it, and is put into a machine that is assembled with the same
boot ROM. -/
def reset (s : RomSlot) (bootDisabled : Bool) : Result RomSlot :=
  match s.rom with
  | some p => do assemble bootDisabled s.bootRom (some (← p.unmap))
  | none => assemble bootDisabled s.bootRom none

theorem assemble_ofBus {start : Machine} (hstart : start = .powerOn ∨ start = .postBoot)
    (boot : Option (Array UInt8)) {cartridge : Option Cartridge}
    (hbare : ∀ c ∈ cartridge, c.overlay = none) :
    assemble start.bus.bootDisabled boot (cartridge.map patchedRom) =
      .ok (ofBus (start.assemble boot cartridge).bus) := by
  have hempty : ∀ c ∈ start.bus.cartridge, c.OverlayFits := by
    rcases hstart with rfl | rfl <;> rintro _ ⟨⟩
  have hbus : ofBus start.bus = { bootDisabled := start.bus.bootDisabled } := by
    rcases hstart with rfl | rfl <;> rfl
  have hput (m : Machine) :
      (cartridge.map patchedRom).elim (.ok (ofBus m.bus)) (ofBus m.bus).put =
        .ok (ofBus (cartridge.elim m fun c => { m with bus := m.bus.insert c }).bus) := by
    cases cartridge with
    | none => rfl
    | some c => exact put_ofBus m.bus (hbare c rfl)
  unfold assemble
  rw [← hbus]
  cases boot with
  | none => exact hput start
  | some bytes =>
    simp only [Option.elim_some, installBoot_ofBus hempty bytes, ok_bind]
    exact hput { start with bus := start.bus.installBoot bytes }

/-- A reset meets no fault on the slot of a bus whose overlay fits. -/
theorem reset_ofBus {m : Machine} (h : ∀ c ∈ m.bus.cartridge, c.OverlayFits) :
    (ofBus m.bus).reset m.fresh.bus.bootDisabled = .ok (ofBus m.reset.bus) := by
  have hassembled :=
    assemble_ofBus m.fresh_eq_powerOn_or_postBoot m.bus.bootRom m.overlay_reset
  rw [m.reset_eq_assemble]
  refine Eq.trans ?_ hassembled
  unfold reset ofBus
  cases hcartridge : m.bus.cartridge with
  | none => rfl
  | some c =>
    simp only [Option.map_some, unmap_patchedRom (h c hcartridge), ok_bind]
    rfl

end Checked.RomSlot

/-! ## Machines of known provenance -/

namespace Machine

theorem HasParts.fresh_eq {start : Machine} (hstart : start = powerOn ∨ start = postBoot)
    {boot image : Option (Array UInt8)} {m : Machine} (h : HasParts start boot image m) :
    m.fresh = start := by
  rw [fresh, h.kind]
  rcases hstart with rfl | rfl <;> rfl

theorem HasParts.cartridge_none {start : Machine} {boot : Option (Array UInt8)} {m : Machine}
    (h : HasParts start boot none m) : m.bus.cartridge = none :=
  Option.map_eq_none_iff.1 (congrArg Prod.snd h.parts)

/-- A cartridge that was inserted is, after a reset, the cartridge as it was
loaded, but for its RAM. -/
theorem HasParts.cartridge_some {start : Machine} {boot : Option (Array UInt8)}
    {image : Array UInt8} {m : Machine} (h : HasParts start boot (some image) m) :
    ∃ loaded current, Cartridge.load image = .ok loaded ∧ m.bus.cartridge = some current ∧
      current.reset = { loaded with ram := current.ram } := by
  obtain ⟨loaded, hload⟩ := h.loads image rfl
  have hshell : m.bus.cartridge.map (·.shell) = some loaded.shell := by
    rw [← imageShell_eq hload]
    exact congrArg Prod.snd h.parts
  obtain ⟨current, hcurrent, hsame⟩ := Option.map_eq_some_iff.1 hshell
  refine ⟨loaded, current, hload, hcurrent, ?_⟩
  rw [Cartridge.reset_eq_of_shell hsame, Cartridge.reset_of_load hload]

/-- After a reset the ROM is the image that was inserted, with nothing hidden. -/
theorem HasParts.patchedRom_reset {start : Machine} {boot image : Option (Array UInt8)}
    {m : Machine} (h : HasParts start boot image m) :
    (m.bus.cartridge.map (·.reset)).map Checked.patchedRom =
      image.map fun rom => { rom, hidden := none } := by
  cases image with
  | none =>
    rw [h.cartridge_none]
    rfl
  | some bytes =>
    obtain ⟨loaded, current, hload, hcurrent, hsame⟩ := h.cartridge_some
    have himage : current.reset.image = bytes :=
      (congrArg (·.image) hsame).trans (Cartridge.overlay_of_load hload).1
    have hpatched := Checked.patchedRom_of_bare (c := current.reset) rfl
    rw [hcurrent, Option.map_some, Option.map_some, Option.map_some, hpatched, himage]

/-- A reset assembles the machine again: of an initial machine of its kind, the
boot ROM installed last, and a cartridge newly loaded from the image inserted
last, into which the RAM is carried over.  Only the buttons stay as they are.
Where the ROM is one array, the reset of the ROM as it is at that time gives the
same as assembling the image and the boot ROM anew.
A second reset changes nothing, and machines with other histories but the same
parts, RAM and buttons become equal. -/
theorem reset_of_provenance {start : Machine} (hstart : start = powerOn ∨ start = postBoot)
    {boot image : Option (Array UInt8)} {m : Machine} (h : Provenance start boot image m) :
    (image = none → m.bus.cartridge = none ∧
      m.reset = (start.assemble boot none).withButtons m.bus.joypad.buttons) ∧
    (∀ bytes ∈ image, ∃ loaded current,
      Cartridge.load bytes = .ok loaded ∧ m.bus.cartridge = some current ∧
      m.reset = (start.assemble boot (some { loaded with ram := current.ram })).withButtons
        m.bus.joypad.buttons) ∧
    (∃ slot : Checked.RomSlot, slot = .ofBus m.reset.bus ∧
      (Checked.RomSlot.ofBus m.bus).reset start.bus.bootDisabled = .ok slot ∧
      Checked.RomSlot.assemble start.bus.bootDisabled boot
        (image.map fun rom => { rom, hidden := none }) = .ok slot) ∧
    m.reset.reset = m.reset ∧
    ∀ other, Provenance start boot image other → other.cartridgeRam = m.cartridgeRam →
      other.bus.joypad.buttons = m.bus.joypad.buttons → other.reset = m.reset := by
  have hparts := h.hasParts hstart
  have hfresh := hparts.fresh_eq hstart
  have hreset : m.reset =
      (start.assemble boot (m.bus.cartridge.map (·.reset))).withButtons
        m.bus.joypad.buttons := by
    have hboot : m.bus.bootRom = boot := congrArg Prod.fst hparts.parts
    rw [reset_eq_assemble, hfresh, hboot]
  refine ⟨?_, ?_, ⟨_, rfl, ?_, ?_⟩, m.reset_reset, ?_⟩
  · rintro rfl
    have hnone := hparts.cartridge_none
    exact ⟨hnone, by rw [hreset, hnone, Option.map_none]⟩
  · rintro bytes himage
    obtain rfl : image = some bytes := himage
    obtain ⟨loaded, current, hload, hcurrent, hsame⟩ := hparts.cartridge_some
    exact ⟨loaded, current, hload, hcurrent, by rw [hreset, hcurrent, Option.map_some, hsame]⟩
  · rw [← hfresh, Checked.RomSlot.reset_ofBus (h.sound hstart).overlay]
  · rw [hreset, ← hparts.patchedRom_reset]
    exact Checked.RomSlot.assemble_ofBus hstart boot m.overlay_reset
  · intro other hother hram hbuttons
    have hothers := hother.hasParts hstart
    exact reset_congr (hothers.kind.trans hparts.kind.symm)
      (hothers.parts.trans hparts.parts.symm) hram hbuttons

/-- A machine with a boot ROM and a cartridge, which has run for a while and
whose button A is down.  After the reset the four bytes of the boot ROM are over
the image again, and the bytes that they hide are beside it. -/
theorem reset_after_run : ∃ c : Cartridge, ∃ m : Machine,
    Provenance powerOn (some #[0x3E, 0x01, 0xE0, 0x50]) (some (.replicate 0x150 0)) m ∧
    Cartridge.load (.replicate 0x150 0) = .ok c ∧
    (∃ current, m.bus.cartridge = some current ∧
      m.reset = (powerOn.assemble (some #[0x3E, 0x01, 0xE0, 0x50])
        (some { c with ram := current.ram })).withButtons m.bus.joypad.buttons) ∧
    ∃ slot, (Checked.RomSlot.ofBus m.bus).reset false = .ok slot ∧ slot.bootDisabled = false ∧
      slot.rom = some {
        rom := #[0x3E, 0x01, 0xE0, 0x50] ++ .replicate 0x14C 0
        hidden := some (.replicate 4 0) } := by
  have hload := Cartridge.load_filled 0
  have hstart : Provenance powerOn none none powerOn := .start
  have hmachine := (((hstart.installBoot #[0x3E, 0x01, 0xE0, 0x50]).insert hload).runFrame
    (scriptSource true) []).press ⟨.a, true⟩
  obtain ⟨-, hcartridge, ⟨slot, hofBus, hslot, -⟩, -⟩ :=
    reset_of_provenance (Or.inl rfl) hmachine
  obtain ⟨loaded, current, hloaded, hcurrent, hreset⟩ := hcartridge _ rfl
  obtain rfl : loaded = .filled 0 := Except.ok.inj (hloaded.symm.trans hload)
  have hrom : slot.rom = some (Checked.patchedRom
      (({ Cartridge.filled 0 with ram := current.ram } : Cartridge).mapBoot
        #[0x3E, 0x01, 0xE0, 0x50])) := by
    rw [hofBus, hreset]
    rfl
  refine ⟨.filled 0, _, hmachine, hload, ⟨current, hcurrent, hreset⟩, slot, hslot, ?_, ?_⟩
  · rw [hofBus, hreset]
    rfl
  · rw [hrom]
    simp [Checked.patchedRom, Cartridge.rom, Cartridge.mapBoot, Cartridge.filled,
      Cartridge.ofImage]

end Machine
end Handheld
