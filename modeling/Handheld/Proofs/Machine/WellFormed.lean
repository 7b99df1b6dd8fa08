import Handheld.Proofs.Cartridge.Bounds
import Handheld.Proofs.Machine.Events
import Handheld.Proofs.Machine.Provenance
import Handheld.Proofs.Screen.Bounds

/-!
# What the registers of a machine can be

Whatever a program does, and whatever is done to the machine from outside, the registers
and the counters of the machine keep within their bounds.

There are three groups.

* The bus.  `Bus.WellFormed` lists the bounds, and everything that happens to a bus keeps
  them.
* The machine.  A step is a list of events on the bus, and a reset puts a bus together.
* Histories.  `MachineOp` is what can be done to a machine, and `wellFormed_run` says that
  the machine is well formed after every history.
-/

namespace Handheld

/-! ## The bus -/

/-- The values that the registers and the counters of a bus can have. -/
structure Bus.WellFormed (b : Bus) : Prop where
  /-- Only the bits of interrupts can be requested. -/
  requests : b.requests &&& 0xE0 = 0
  control : b.timer.control < 8
  dividerCycles : b.timer.dividerCycles < 64
  /-- P1 keeps the two bits that select a group of buttons. -/
  selection : b.joypad.selection &&& ~~~0x30 = 0
  cartridge : ∀ c ∈ b.cartridge, c.WellFormed
  screen : b.screen.InBounds

theorem Timer.control_write_lt {t : Timer} (h : t.control < 8) (value : UInt8)
    (r : TimerRegister) : (t.write value r).control < 8 := by
  cases r with
  | control =>
    have hle : (value &&& 0x07).toNat ≤ 7 := by
      rw [UInt8.toNat_and]
      exact Nat.and_le_right
    exact UInt8.lt_iff_toNat_lt.2 (Nat.lt_succ_of_le hle)
  | _ => exact h

theorem Timer.dividerCycles_write_lt {t : Timer} (h : t.dividerCycles < 64) (value : UInt8)
    (r : TimerRegister) : (t.write value r).dividerCycles < 64 := by
  cases r with
  | divider => exact Nat.zero_lt_succ 63
  | _ => exact h

/-- Time keeps the control register, and the cycles counted by the divider make up no step. -/
theorem Timer.advance_bounds (t : Timer) (cycles : Nat) :
    (t.advance cycles).1.control = t.control ∧ (t.advance cycles).1.dividerCycles < 64 := by
  have hcycles : (t.dividerCycles + cycles) % dividerPeriod < 64 := Nat.mod_lt _ (by decide)
  unfold advance advanceCounter
  split <;> exact ⟨rfl, hcycles⟩

namespace Bus

namespace WellFormed

variable {b : Bus}

theorem powerOn : Bus.powerOn.WellFormed where
  requests := rfl
  control := by decide
  dividerCycles := by decide
  selection := rfl
  cartridge := nofun
  screen := Screen.Reachable.powerOn.inBounds

theorem postBoot : Bus.postBoot.WellFormed :=
  { powerOn with screen := Screen.Reachable.postBoot.inBounds }

theorem perform (h : b.WellFormed) (op : ScreenOp) : (b.perform op).WellFormed :=
  { h with
    requests := Interrupt.Wired.or h.requests (b.screen.wired_perform op)
    screen := h.screen.apply op }

/-- What is done to the cartridge alone. -/
theorem mapCartridge (h : b.WellFormed) {f : Cartridge → Cartridge}
    (hf : ∀ c : Cartridge, c.WellFormed → (f c).WellFormed) :
    Bus.WellFormed { b with cartridge := b.cartridge.map f } := by
  refine { h with cartridge := ?_ }
  intro c hc
  obtain ⟨before, hbefore, rfl⟩ := Option.map_eq_some_iff.1 hc
  exact hf before (h.cartridge before hbefore)

theorem writeOam (h : b.WellFormed) (offset : Fin 160) (value : UInt8) :
    (b.writeOam offset value).WellFormed :=
  { h with screen := h.screen.of_sameCourse ⟨rfl, rfl, rfl, rfl⟩ }

theorem writeScreen (h : b.WellFormed) (value : UInt8) (r : ScreenRegister) :
    (b.writeScreen value r).WellFormed := by
  refine { h with requests := ?_, screen := ?_ }
  · exact Interrupt.Wired.or h.requests (b.screen.wired_write value r)
  · rw [screen_writeScreen]
    exact h.screen.apply _

theorem write (h : b.WellFormed) (address : UInt16) (value : UInt8) :
    (b.write address value).WellFormed := by
  unfold Bus.write
  cases Place.ofAddress address with
  | cartridge => exact h.mapCartridge fun _ hc => hc.write address value
  | vram offset => exact { h with screen := h.screen.of_sameCourse ⟨rfl, rfl, rfl, rfl⟩ }
  | oam offset => exact h.writeOam offset value
  | timer r =>
    exact { h with
      control := Timer.control_write_lt h.control value r
      dividerCycles := Timer.dividerCycles_write_lt h.dividerCycles value r }
  | joypad =>
    have hnone : (0x30 : UInt8) &&& ~~~0x30 = 0 := rfl
    refine { h with selection := ?_ }
    show value &&& 0x30 &&& ~~~0x30 = 0
    rw [UInt8.and_assoc, hnone, UInt8.and_zero]
  | requests => exact { h with requests := Interrupt.wired_and_wired value }
  | screen r =>
    cases r with
    | dma =>
      exact copyToOam_induction (fun _ offset byte hb => hb.writeOam offset byte)
        (h.writeScreen value .dma) value
    | _ => exact h.writeScreen value _
  | bootSwitch =>
    simp only [switchBoot]
    split
    · exact { h.mapCartridge fun _ hc => hc.apply .unmapBoot with }
    · exact h
  | unusable | work | scratch | high | enables => exact { h with }

theorem undergo (h : b.WellFormed) (event : BusEvent) : (b.undergo event).WellFormed := by
  cases event with
  | write address value => exact h.write address value
  | runTimer cycles =>
    obtain ⟨hcontrol, hdivider⟩ := b.timer.advance_bounds cycles
    have hraised : ∀ passed : Bool, (if passed then Interrupt.timer.raise b.requests
        else b.requests) &&& 0xE0 = 0 := by
      intro passed
      cases passed with
      | true => exact Interrupt.Wired.or h.requests Interrupt.timer.wired_mask
      | false => exact h.requests
    exact { h with
      requests := hraised _
      control := hcontrol.symm ▸ h.control
      dividerCycles := hdivider }
  | dispatch i => exact { h with requests := Interrupt.Wired.and h.requests (~~~i.mask) }
  | runScreen cycles => exact h.perform (.advance cycles)

theorem undergoAll (h : b.WellFormed) (events : List BusEvent) :
    (b.undergoAll events).WellFormed := by
  induction events generalizing b with
  | nil => exact h
  | cons event events ih => exact ih (h.undergo event)

theorem insert (h : b.WellFormed) {c : Cartridge} (hc : c.WellFormed) :
    (b.insert c).WellFormed := by
  refine { h with cartridge := ?_ }
  rintro _ ⟨⟩
  unfold underBoot
  split
  · split
    · exact hc
    · exact hc.apply (.mapBoot _)
  · exact hc

theorem installBoot (h : b.WellFormed) (boot : Array UInt8) : (b.installBoot boot).WellFormed := by
  unfold Bus.installBoot
  split
  · exact { h with }
  · exact { h.mapCartridge fun _ hc => hc.apply (.mapBoot boot) with }

end WellFormed
end Bus

namespace Machine

/-! ## The machine -/

/-- The bus after a step of CPU and timer. -/
theorem exists_events_stepCpu (m : Machine) :
    ∃ events, m.stepCpu.1.bus = m.bus.undergoAll events := by
  have hserved := (m.executeOrIdle.1.runTimer m.executeOrIdle.2).serveInterrupts_bus
  rw [runTimer_executeOrIdle_bus] at hserved
  refine ⟨writeEvents m.instructionWrites ++ .runTimer m.executeOrIdle.2 ::
    (m.executeOrIdle.1.runTimer m.executeOrIdle.2).serviceEvents, ?_⟩
  rw [Bus.undergoAll_append, Bus.undergoAll_cons]
  exact hserved

theorem wellFormed_fresh (m : Machine) : m.fresh.bus.WellFormed := by
  rcases m.fresh_eq_powerOn_or_postBoot with h | h <;> rw [h]
  · exact .powerOn
  · exact .postBoot

theorem wellFormed_assemble {m : Machine} (h : m.bus.WellFormed) (boot : Option (Array UInt8))
    {cartridge : Option Cartridge} (hcartridge : ∀ c ∈ cartridge, c.WellFormed) :
    (m.assemble boot cartridge).bus.WellFormed := by
  have hbooted : (boot.elim m fun bytes =>
      { m with bus := m.bus.installBoot bytes }).bus.WellFormed := by
    cases boot with
    | none => exact h
    | some bytes => exact h.installBoot bytes
  cases cartridge with
  | none => exact hbooted
  | some c => exact hbooted.insert (hcartridge c rfl)

theorem wellFormed_reset {m : Machine} (h : m.bus.WellFormed) : m.reset.bus.WellFormed := by
  have hcartridge : ∀ c ∈ m.bus.cartridge.map (·.reset), c.WellFormed := by
    intro c hc
    obtain ⟨before, hbefore, rfl⟩ := Option.map_eq_some_iff.1 hc
    exact (h.cartridge before hbefore).reset
  rw [reset_eq_assemble]
  exact { wellFormed_assemble m.wellFormed_fresh m.bus.bootRom hcartridge with }

end Machine

/-! ## Histories -/

/-- What can be done to a machine. -/
inductive MachineOp where
  /-- The cartridge with an image is inserted, if the image can be loaded.  It may have
  been used before. -/
  | insert (image : Array UInt8) (past : List CartridgeOp)
  | installBoot (boot : Array UInt8)
  | removeBoot
  | write (address : UInt16) (value : UInt8)
  | perform (op : ScreenOp)
  | runTimer (cycles : Nat)
  | press (event : ButtonEvent)
  | stepCpu
  | step
  | reset

namespace Machine

/-- The machine with the cartridge of an image, after the operations `past` on it.  An
image that cannot be loaded changes nothing. -/
def insertImage (m : Machine) (image : Array UInt8) (past : List CartridgeOp) : Machine :=
  match Cartridge.load image with
  | .ok c => { m with bus := m.bus.insert (c.run past) }
  | .error _ => m

/-- The machine after an operation. -/
def apply (m : Machine) : MachineOp → Machine
  | .insert image past => m.insertImage image past
  | .installBoot boot => { m with bus := m.bus.installBoot boot }
  | .removeBoot => { m with bus := m.bus.removeBoot }
  | .write address value => { m with bus := m.bus.write address value }
  | .perform op => { m with bus := m.bus.perform op }
  | .runTimer cycles => m.runTimer cycles
  | .press event => m.press event
  | .stepCpu => m.stepCpu.1
  | .step => m.step.1
  | .reset => m.reset

/-- The machine after a history. -/
def run (m : Machine) (history : List MachineOp) : Machine :=
  history.foldl apply m

theorem wellFormed_insertImage {m : Machine} (h : m.bus.WellFormed) (image : Array UInt8)
    (past : List CartridgeOp) : (m.insertImage image past).bus.WellFormed := by
  unfold insertImage
  split
  · next c hload =>
    obtain ⟨-, -, rfl⟩ := Cartridge.load_eq_ok_iff.1 hload
    exact h.insert ((Cartridge.WellFormed.ofImage image).run past)
  · exact h

theorem wellFormed_apply {m : Machine} (h : m.bus.WellFormed) (op : MachineOp) :
    (m.apply op).bus.WellFormed := by
  cases op with
  | insert image past => exact wellFormed_insertImage h image past
  | installBoot boot => exact h.installBoot boot
  | removeBoot => exact { h with }
  | write address value => exact h.write address value
  | perform op => exact h.perform op
  | runTimer cycles => exact h.undergo (.runTimer cycles)
  | press event => exact { h with }
  | stepCpu =>
    obtain ⟨events, hevents⟩ := m.exists_events_stepCpu
    rw [apply, hevents]
    exact h.undergoAll events
  | step =>
    rw [apply, step_bus]
    exact h.undergoAll m.stepEvents
  | reset => exact wellFormed_reset h

/-- Every machine is well formed, whatever was done to it. -/
theorem wellFormed_run {start : Machine} (hstart : start = powerOn ∨ start = postBoot)
    (history : List MachineOp) : (start.run history).bus.WellFormed := by
  have hall : ∀ (history : List MachineOp) (m : Machine), m.bus.WellFormed →
      (m.run history).bus.WellFormed := by
    intro history
    induction history with
    | nil => exact fun _ h => h
    | cons op history ih => exact fun m h => ih (m.apply op) (wellFormed_apply h op)
  rcases hstart with rfl | rfl
  · exact hall history _ .powerOn
  · exact hall history _ .postBoot

end Machine
end Handheld
