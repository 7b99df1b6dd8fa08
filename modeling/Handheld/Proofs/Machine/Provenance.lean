import Handheld.Proofs.Machine.Reachable

/-!
# Where a machine comes from

A machine comes from one of the two initial machines.  On its way cartridges
were inserted, each as its image was loaded, and boot ROMs were installed, and
the machine ran and was operated.  `Provenance` remembers of all that the
boot ROM installed last and the image of the cartridge inserted last.

There are three groups.

* Cartridges.  `Cartridge.shell` is what loading an image fixes.
* The bus.  No write and no time that passes changes the boot ROM or the shell
  of the cartridge (`Bus.parts`); `bus_step_induction` carries whatever the bus
  keeps through a step.
* The machines.  `Provenance.parts` says which parts a machine has.
-/

namespace Handheld

/-! ## Cartridges -/

namespace Cartridge

/-- What of a cartridge no program changes. -/
def shell (c : Cartridge) : Cartridge :=
  { c.reset with ram := #[] }

@[simp] theorem shell_mapBoot (c : Cartridge) (boot : Array UInt8) :
    (c.mapBoot boot).shell = c.shell := rfl

@[simp] theorem shell_unmapBoot (c : Cartridge) : c.unmapBoot.shell = c.shell := rfl

@[simp] theorem shell_write (c : Cartridge) (address : UInt16) (value : UInt8) :
    (c.write address value).shell = c.shell := by
  unfold write
  split
  · cases h : c.controller <;> simp only [shell, reset, unmapBoot, h]
  · split
    · cases c.ramOffset? address <;> rfl
    · rfl

/-- Of two cartridges with one shell, the RAM is all that tells them apart
after a reset. -/
theorem reset_eq_of_shell {c d : Cartridge} (h : c.shell = d.shell) :
    c.reset = { d.reset with ram := c.ram } := by
  have hreset : ∀ e : Cartridge, e.reset = { e.shell with ram := e.ram } := fun _ => rfl
  rw [hreset c, h]
  rfl

/-- A cartridge is loaded in the state of a reset. -/
theorem reset_of_load {image : Array UInt8} {c : Cartridge} (h : load image = .ok c) :
    c.reset = c := by
  unfold load at h
  split at h
  · cases h
  · dsimp only at h
    split at h
    · cases h
    · cases h
      rfl

end Cartridge

/-! ## The bus -/

namespace Bus

/-- The boot ROM and the shell of the cartridge. -/
def parts (b : Bus) : Option (Array UInt8) × Option Cartridge :=
  (b.bootRom, b.cartridge.map (·.shell))

theorem parts_writeOam (b : Bus) (offset : Fin 160) (value : UInt8) :
    (b.writeOam offset value).parts = b.parts := rfl

theorem parts_copyToOam (b : Bus) (page : UInt8) : (b.copyToOam page).parts = b.parts :=
  copyToOam_induction (P := fun other => other.parts = b.parts)
    (fun other offset value h => (other.parts_writeOam offset value).trans h) rfl page

theorem parts_switchBoot (b : Bus) (value : UInt8) : (b.switchBoot value).parts = b.parts := by
  unfold switchBoot
  split
  · cases hc : b.cartridge <;> simp [parts, hc]
  · rfl

/-- A write keeps the parts. -/
theorem parts_write (b : Bus) (address : UInt16) (value : UInt8) :
    (b.write address value).parts = b.parts := by
  unfold write
  cases Place.ofAddress address with
  | cartridge => cases hc : b.cartridge <;> simp [parts, hc]
  | screen r =>
    cases r with
    | dma => exact (parts_copyToOam _ value).trans rfl
    | _ => rfl
  | bootSwitch => exact b.parts_switchBoot value
  | _ => rfl

theorem parts_insert (b : Bus) (c : Cartridge) :
    (b.insert c).parts = (b.bootRom, some c.shell) := by
  have hunder : (b.underBoot c).shell = c.shell := by
    unfold underBoot
    split
    · split <;> rfl
    · rfl
  simp [insert, parts, hunder]

@[simp] theorem bootRom_installBoot (b : Bus) (boot : Array UInt8) :
    (b.installBoot boot).bootRom = some boot := by
  unfold installBoot
  split <;> rfl

theorem parts_installBoot (b : Bus) (boot : Array UInt8) :
    (b.installBoot boot).parts = (some boot, b.cartridge.map (·.shell)) := by
  unfold installBoot
  split
  · rfl
  · cases hc : b.cartridge <;> simp [parts]

end Bus

namespace Machine

/-! ## What a step keeps -/

section Induction

variable {P : Bus → Prop}

theorem writeAll_induction
    (write : ∀ (b : Bus) (address : UInt16) (value : UInt8), P b → P (b.write address value))
    (writes : List (UInt16 × UInt8)) {b : Bus} (h : P b) : P (b.writeAll writes) := by
  unfold Bus.writeAll
  induction writes generalizing b with
  | nil => exact h
  | cons w writes ih => exact ih (write b w.1 w.2 h)

/-- A step changes the bus by writes, by withdrawing a request, and by the time
that passes for the timer and the screen. -/
theorem bus_step_induction
    (write : ∀ (b : Bus) (address : UInt16) (value : UInt8), P b → P (b.write address value))
    (request : ∀ (b : Bus) (requests : UInt8), P b → P { b with requests })
    (timer : ∀ (b : Bus) (cycles : Nat), P b → P (b.advanceTimer cycles))
    (screen : ∀ (b : Bus) (cycles : Nat), P b → P (b.advanceScreen cycles))
    {m : Machine} (h : P m.bus) : P m.step.1.bus := by
  have hexecuted : P m.executeOrIdle.1.bus := by
    rw [executeOrIdle_bus]
    exact writeAll_induction write _ h
  have hserved : ∀ m : Machine, P m.bus → P m.serveInterrupts.1.bus := by
    intro m hm
    unfold serveInterrupts
    cases m.pending with
    | none => exact hm
    | some i =>
      simp only
      split
      · exact timer _ _ (writeAll_induction write _ (request _ _ hm))
      · exact hm
  exact screen _ _ (hserved _ (timer _ _ hexecuted))

end Induction

theorem parts_step (m : Machine) : m.step.1.bus.parts = m.bus.parts :=
  bus_step_induction (P := fun b => b.parts = m.bus.parts)
    (fun b address value h => (b.parts_write address value).trans h) (fun _ _ h => h)
    (fun _ _ h => h) (fun _ _ h => h) rfl

theorem startsAtPowerOn_step (m : Machine) : m.step.1.startsAtPowerOn = m.startsAtPowerOn := by
  have hexecuted : m.executeOrIdle.1.startsAtPowerOn = m.startsAtPowerOn := by
    unfold executeOrIdle
    split <;> rfl
  have hserved : ∀ m : Machine, m.serveInterrupts.1.startsAtPowerOn = m.startsAtPowerOn := by
    intro m
    unfold serveInterrupts
    split
    · rfl
    · split <;> rfl
  exact (hserved (m.executeOrIdle.1.runTimer m.executeOrIdle.2)).trans hexecuted

/-! ## The machines -/

/-- The machines that `start` becomes.  `boot` is the boot ROM installed last,
`image` the image of the cartridge inserted last. -/
inductive Provenance (start : Machine) :
    (boot image : Option (Array UInt8)) → Machine → Prop where
  | start : Provenance start none none start
  | installBoot {boot image : Option (Array UInt8)} {m : Machine} (bytes : Array UInt8) :
      Provenance start boot image m →
      Provenance start (some bytes) image { m with bus := m.bus.installBoot bytes }
  | insert {boot image : Option (Array UInt8)} {m : Machine} {bytes : Array UInt8}
      {c : Cartridge} : Cartridge.load bytes = .ok c → Provenance start boot image m →
      Provenance start boot (some bytes) { m with bus := m.bus.insert c }
  | write {boot image : Option (Array UInt8)} {m : Machine} (address : UInt16)
      (value : UInt8) : Provenance start boot image m →
      Provenance start boot image { m with bus := m.bus.write address value }
  | press {boot image : Option (Array UInt8)} {m : Machine} (event : ButtonEvent) :
      Provenance start boot image m → Provenance start boot image (m.press event)
  | step {boot image : Option (Array UInt8)} {m : Machine} :
      Provenance start boot image m → Provenance start boot image m.step.1
  | runFrame {boot image : Option (Array UInt8)} {m : Machine} {σ : Type}
      (source : InputSource σ) (input : σ) : Provenance start boot image m →
      Provenance start boot image (m.runFrame source input).machine
  | reset {boot image : Option (Array UInt8)} {m : Machine} :
      Provenance start boot image m → Provenance start boot image m.reset

/-- The shell of the cartridge with an image. -/
def imageShell (image : Array UInt8) : Option Cartridge :=
  (Cartridge.load image).toOption.map (·.shell)

theorem imageShell_eq {image : Array UInt8} {c : Cartridge} (h : Cartridge.load image = .ok c) :
    imageShell image = some c.shell := by
  rw [imageShell, h]
  rfl

/-- A machine is of the kind of `start` and has the given parts: the boot ROM,
and the cartridge but for what programs change. -/
structure HasParts (start : Machine) (boot image : Option (Array UInt8)) (m : Machine) :
    Prop where
  kind : m.startsAtPowerOn = start.startsAtPowerOn
  parts : m.bus.parts = (boot, image.bind imageShell)
  loads : ∀ bytes ∈ image, ∃ c, Cartridge.load bytes = .ok c

/-- Machines of one kind and with the same parts on the bus have the same
parts. -/
theorem HasParts.of_parts {start : Machine} {boot image : Option (Array UInt8)}
    {m other : Machine} (h : HasParts start boot image m)
    (hkind : other.startsAtPowerOn = m.startsAtPowerOn)
    (hparts : other.bus.parts = m.bus.parts) : HasParts start boot image other :=
  ⟨hkind.trans h.kind, hparts.trans h.parts, h.loads⟩

/-! ## The reset -/

/-- The machine that is built of parts: an initial machine, in which a boot ROM
is installed and a cartridge inserted. -/
def assemble (start : Machine) (boot : Option (Array UInt8)) (cartridge : Option Cartridge) :
    Machine :=
  let m := boot.elim start fun bytes => { start with bus := start.bus.installBoot bytes }
  cartridge.elim m fun c => { m with bus := m.bus.insert c }

/-- The machine with its buttons in the given state. -/
def withButtons (m : Machine) (buttons : Buttons) : Machine :=
  { m with bus.joypad.buttons := buttons }

/-- The initial machine of the same kind. -/
def fresh (m : Machine) : Machine :=
  if m.startsAtPowerOn then powerOn else postBoot

theorem parts_assemble (start : Machine) (boot : Option (Array UInt8)) (c : Option Cartridge)
    (hstart : start.bus.parts = (none, none)) :
    (start.assemble boot c).bus.parts = (boot, c.map (·.shell)) := by
  have hboot : start.bus.bootRom = none := congrArg Prod.fst hstart
  have hempty : start.bus.cartridge.map (·.shell) = none := congrArg Prod.snd hstart
  cases boot with
  | none =>
    cases c with
    | none => exact hstart
    | some c => exact (start.bus.parts_insert c).trans (by rw [hboot]; rfl)
  | some bytes =>
    cases c with
    | none => exact (start.bus.parts_installBoot bytes).trans (by rw [hempty]; rfl)
    | some c =>
      refine (Bus.parts_insert _ c).trans ?_
      exact congrArg (·, _) (start.bus.bootRom_installBoot bytes)

/-- A reset builds the machine again of its own parts, the cartridge reset. -/
theorem reset_eq_assemble (m : Machine) :
    m.reset = (m.fresh.assemble m.bus.bootRom (m.bus.cartridge.map (·.reset))).withButtons
      m.bus.joypad.buttons := by
  unfold reset fresh
  cases m.startsAtPowerOn <;> cases m.bus.bootRom <;> cases m.bus.cartridge <;> rfl

theorem fresh_eq_powerOn_or_postBoot (m : Machine) : m.fresh = powerOn ∨ m.fresh = postBoot := by
  unfold fresh
  split
  · exact Or.inl rfl
  · exact Or.inr rfl

/-- A reset keeps the parts. -/
theorem parts_reset (m : Machine) : m.reset.bus.parts = m.bus.parts := by
  have hfresh : m.fresh.bus.parts = (none, none) := by
    rcases m.fresh_eq_powerOn_or_postBoot with h | h <;> rw [h] <;> rfl
  rw [reset_eq_assemble]
  refine (parts_assemble m.fresh _ _ hfresh).trans ?_
  rw [Option.map_map]
  rfl

theorem startsAtPowerOn_reset (m : Machine) : m.reset.startsAtPowerOn = m.startsAtPowerOn := by
  unfold reset
  cases m.startsAtPowerOn <;> rfl

/-- A machine has the parts that it was given. -/
theorem Provenance.hasParts {start : Machine} (hstart : start = powerOn ∨ start = postBoot)
    {boot image : Option (Array UInt8)} {m : Machine} (h : Provenance start boot image m) :
    HasParts start boot image m := by
  induction h with
  | start => rcases hstart with rfl | rfl <;> exact ⟨rfl, rfl, fun _ h => absurd h (by simp)⟩
  | @installBoot boot image m bytes _ ih =>
    refine ⟨ih.kind, (m.bus.parts_installBoot bytes).trans ?_, ih.loads⟩
    exact congrArg (some bytes, ·) (congrArg Prod.snd ih.parts)
  | @insert boot image m bytes c hload _ ih =>
    refine ⟨ih.kind, (m.bus.parts_insert c).trans ?_, ?_⟩
    · rw [Option.bind_some, imageShell_eq hload]
      exact congrArg (·, _) (congrArg Prod.fst ih.parts)
    · rintro _ ⟨⟩
      exact ⟨c, hload⟩
  | write address value _ ih => exact ih.of_parts rfl (Bus.parts_write _ address value)
  | press event _ ih => exact ih.of_parts rfl rfl
  | step _ ih => exact ih.of_parts (startsAtPowerOn_step _) (parts_step _)
  | runFrame source input _ ih =>
    exact runFrame_induction (fun _ _ h => h.of_parts rfl rfl)
      (fun m h => h.of_parts (startsAtPowerOn_step m) (parts_step m))
      (fun _ h => h.of_parts rfl rfl) source input ih
  | reset _ ih => exact ih.of_parts (startsAtPowerOn_reset _) (parts_reset _)

end Machine
end Handheld
