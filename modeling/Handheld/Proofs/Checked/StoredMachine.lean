import Handheld.Checked.StoredMachine
import Handheld.Proofs.Bus.Stores
import Handheld.Proofs.Checked.FlagCpu
import Handheld.Proofs.Machine.WellFormed

/-!
# The stored flags and the stored period stay right

A machine that keeps F as a byte, and the period of the timer beside the control
register, does what the machine does that computes both.  So the byte never has a bit
that is no flag, and the period is always the one that the control register selects.

There are three groups.

* The bus.  `StoredBus.ofBus` is the one that stands for a bus; a write to the control
  register is the only one that changes what the timer keeps.
* The machine.  `step_ofMachine` and `reset_ofMachine` say that the machine with stored
  values goes along.
* Histories.  `run_ofMachine` says the same of them, and `wellFormed_of_history` is the
  result.
-/

namespace Handheld

/-! ## The bus -/

/-- A write beside the control register keeps it. -/
theorem Timer.control_writeAt (t : Timer) {address : UInt16} (value : UInt8)
    (h : address ≠ 0xFF07) : (t.writeAt address value).control = t.control := by
  unfold writeAt TimerRegister.ofAddress?
  rw [if_neg h]
  split_ifs <;> rfl

namespace Checked

theorem selectedPeriod_control (t : Timer) : selectedPeriod t.control = t.period := by
  have hget := get_periods t
  unfold get at hget
  split at hget
  · next hlt =>
    rw [← Except.ok.inj hget, selectedPeriod, Vector.getElem?_eq_getElem hlt]
    rfl
  · cases hget

namespace StoredBus

/-- The bus with the period of its timer stored. -/
def ofBus (b : Bus) : StoredBus where
  bus := b
  period := selectedPeriod b.timer.control
  running := b.timer.enabled

theorem modify_ofBus {b : Bus} {change : Bus → Bus}
    (h : (change b).timer.control = b.timer.control) :
    (ofBus b).modify change = ofBus (change b) := by
  rw [modify, ofBus, ofBus, Timer.enabled, Timer.enabled, h]

theorem write_ofBus (b : Bus) (address : UInt16) (value : UInt8) :
    (ofBus b).write address value = ofBus (b.write address value) := by
  by_cases h : address = 0xFF07
  · subst h
    have hstored : ofBus (b.write 0xFF07 value) =
        { bus := b.write 0xFF07 value
          period := selectedPeriod (value &&& 0x07)
          running := value &&& 0x07 &&& 0x04 != 0 } := by
      rw [ofBus, Timer.enabled, Bus.timer_write]
      rfl
    rw [write, if_pos rfl, hstored]
    rfl
  · rw [write, if_neg h]
    refine modify_ofBus ?_
    rw [Bus.timer_write, Timer.control_writeAt b.timer value h]

theorem writeAll_ofBus (b : Bus) (writes : List (UInt16 × UInt8)) :
    (ofBus b).writeAll writes = ofBus (b.writeAll writes) := by
  unfold writeAll Bus.writeAll
  induction writes generalizing b with
  | nil => rfl
  | cons w writes ih =>
    rw [List.foldl_cons, List.foldl_cons, write_ofBus]
    exact ih (b.write w.1 w.2)

theorem advanceTimer_ofBus (b : Bus) (cycles : Nat) :
    (ofBus b).advanceTimer cycles = ofBus (b.advanceTimer cycles) := by
  have hrunning : (b.timer.advanceDivider cycles).enabled = b.timer.enabled := rfl
  have hperiod : (b.timer.advanceDivider cycles).period = selectedPeriod b.timer.control :=
    (selectedPeriod_control _).symm
  unfold advanceTimer Bus.advanceTimer Timer.advance Timer.advanceCounter
  rw [hrunning, hperiod]
  by_cases henabled : b.timer.enabled = true
  · have hstored : (ofBus b).running = true := henabled
    simp only [if_pos henabled, if_pos hstored]
    rfl
  · have hstored : ¬ (ofBus b).running = true := henabled
    simp only [if_neg henabled, if_neg hstored]
    rfl

end StoredBus

/-! ## The machine -/

namespace StoredMachine

/-- The machine with its flags as a byte and the period of its timer stored. -/
def ofMachine (m : Machine) : StoredMachine where
  cpu := .ofCpu m.cpu
  bus := .ofBus m.bus
  startsAtPowerOn := m.startsAtPowerOn

theorem ofMachine_powerOn : ofMachine .powerOn = powerOn := rfl

theorem ofMachine_postBoot : ofMachine .postBoot = postBoot := rfl

section

variable (m : Machine)

theorem modifyBus_ofMachine (change : Bus → Bus)
    (h : (change m.bus).timer.control = m.bus.timer.control) :
    (ofMachine m).modifyBus change = ofMachine { m with bus := change m.bus } := by
  rw [modifyBus, ofMachine, ofMachine, StoredBus.modify_ofBus h]

/-- What a step answers, with stored values. -/
def ofResult (result : Machine × Nat) : StoredMachine × Nat :=
  (ofMachine result.1, result.2)

theorem follow_ofMachine (effect : Effect) :
    (ofMachine m).follow (FlagCpu.ofEffect effect) =
      ofMachine { m with cpu := effect.cpu, bus := m.bus.writeAll effect.writes } := by
  have hwrites := StoredBus.writeAll_ofBus m.bus effect.writes
  exact congrArg (fun bus => StoredMachine.mk (.ofCpu effect.cpu) bus m.startsAtPowerOn) hwrites

theorem executeNext_ofMachine : (ofMachine m).executeNext = ofResult m.executeNext := by
  have heffect := FlagCpu.execute_ofCpu m.bus.read (Machine.skip m.cpu m.nextInstruction)
    m.nextInstruction
  have hfollow := follow_ofMachine m
    ((Machine.skip m.cpu m.nextInstruction).execute m.bus.read m.nextInstruction)
  exact (congrArg (fun effect : FlagEffect =>
    ((ofMachine m).follow effect, m.nextInstruction.cost effect.taken)) heffect).trans
    (Prod.ext hfollow rfl)

theorem executeOrIdle_ofMachine : (ofMachine m).executeOrIdle = ofResult m.executeOrIdle := by
  unfold executeOrIdle Machine.executeOrIdle
  rw [executeNext_ofMachine]
  show (if m.cpu.halted = true then _ else _) = _
  split <;> rfl

theorem dispatch_ofMachine (i : Interrupt) :
    (ofMachine m).dispatch i = ofMachine (m.dispatch i) := by
  have hcleared := modifyBus_ofMachine m (fun b => { b with requests := i.clear b.requests }) rfl
  rw [dispatch, hcleared]
  exact follow_ofMachine { m with bus := { m.bus with requests := i.clear m.bus.requests } }
    ({ m.cpu with ime := false }.enter i.vector)

theorem runTimer_ofMachine (cycles : Nat) :
    (ofMachine m).runTimer cycles = ofMachine (m.runTimer cycles) := by
  rw [runTimer, ofMachine, StoredBus.advanceTimer_ofBus]
  rfl

theorem serveInterrupts_ofMachine :
    (ofMachine m).serveInterrupts = ofResult m.serveInterrupts := by
  have hpending : (ofMachine m).pending = m.pending := rfl
  unfold serveInterrupts Machine.serveInterrupts
  rw [hpending]
  cases m.pending with
  | none => rfl
  | some i =>
    have hserved : ((ofMachine m).wake.dispatch i).runTimer Machine.dispatchCycles =
        ofMachine ((m.wake.dispatch i).runTimer Machine.dispatchCycles) := by
      rw [← runTimer_ofMachine, ← dispatch_ofMachine]
      rfl
    by_cases hime : m.cpu.ime = true
    · have hstored : (ofMachine m).cpu.cpu.ime = true := hime
      simp only [if_pos hime, if_pos hstored, hserved]
      rfl
    · have hstored : ¬ (ofMachine m).cpu.cpu.ime = true := hime
      simp only [if_neg hime, if_neg hstored]
      rfl

theorem stepCpu_ofMachine : (ofMachine m).stepCpu = ofResult m.stepCpu := by
  have hserved : ((ofMachine m.executeOrIdle.1).runTimer m.executeOrIdle.2).serveInterrupts =
      ofResult (m.executeOrIdle.1.runTimer m.executeOrIdle.2).serveInterrupts := by
    rw [runTimer_ofMachine, serveInterrupts_ofMachine]
  unfold stepCpu
  rw [executeOrIdle_ofMachine]
  exact congrArg (fun result : StoredMachine × Nat =>
    (result.1.count (m.executeOrIdle.2 + result.2), m.executeOrIdle.2 + result.2)) hserved

theorem step_ofMachine : (ofMachine m).step = ofResult m.step := by
  have hscreen := modifyBus_ofMachine m.stepCpu.1 (·.advanceScreen m.stepCpu.2) rfl
  unfold step
  rw [stepCpu_ofMachine]
  exact congrArg (·, m.stepCpu.2) hscreen

theorem ofMachine_fresh :
    ofMachine m.fresh = if m.startsAtPowerOn then powerOn else postBoot := by
  unfold Machine.fresh
  split
  · exact ofMachine_powerOn
  · exact ofMachine_postBoot

theorem timer_installBoot (b : Bus) (boot : Array UInt8) :
    (b.installBoot boot).timer = b.timer := by
  unfold Bus.installBoot
  split <;> rfl

theorem reset_ofMachine : (ofMachine m).reset = ofMachine m.reset := by
  unfold reset Machine.reset
  show (if m.startsAtPowerOn then powerOn else postBoot).modifyBus _ = _
  rw [← ofMachine_fresh, modifyBus_ofMachine]
  · rfl
  · -- Neither the boot ROM nor the cartridge that is put back touches the timer.
    dsimp only
    split
    · split
      · exact congrArg Timer.control (timer_installBoot _ _)
      · rfl
    · split
      · exact congrArg Timer.control (timer_installBoot _ _)
      · rfl

end

/-! ## Histories -/

/-- The machine with the cartridge of an image, after the operations `past` on it.  An
image that cannot be loaded changes nothing. -/
def insertImage (s : StoredMachine) (image : Array UInt8) (past : List CartridgeOp) :
    StoredMachine :=
  match Cartridge.load image with
  | .ok c => s.modifyBus (·.insert (c.run past))
  | .error _ => s

/-- The machine after an operation. -/
def apply (s : StoredMachine) : MachineOp → StoredMachine
  | .insert image past => s.insertImage image past
  | .installBoot boot => s.modifyBus (·.installBoot boot)
  | .removeBoot => s.modifyBus (·.removeBoot)
  | .write address value => { s with bus := s.bus.write address value }
  | .perform op => s.modifyBus (·.perform op)
  | .runTimer cycles => s.runTimer cycles
  | .press event => s.press event
  | .stepCpu => s.stepCpu.1
  | .step => s.step.1
  | .reset => s.reset

/-- The machine after a history. -/
def run (s : StoredMachine) (history : List MachineOp) : StoredMachine :=
  history.foldl apply s

theorem insertImage_ofMachine (m : Machine) (image : Array UInt8) (past : List CartridgeOp) :
    (ofMachine m).insertImage image past = ofMachine (m.insertImage image past) := by
  unfold insertImage Machine.insertImage
  cases Cartridge.load image with
  | ok c => exact modifyBus_ofMachine m (·.insert (c.run past)) rfl
  | error _ => rfl

theorem apply_ofMachine (m : Machine) (op : MachineOp) :
    (ofMachine m).apply op = ofMachine (m.apply op) := by
  cases op with
  | insert image past => exact insertImage_ofMachine m image past
  | installBoot boot =>
    exact modifyBus_ofMachine m _ (congrArg Timer.control (timer_installBoot m.bus boot))
  | removeBoot => exact modifyBus_ofMachine m _ rfl
  | write address value =>
    rw [apply, ofMachine, StoredBus.write_ofBus]
    rfl
  | perform op => exact modifyBus_ofMachine m _ rfl
  | runTimer cycles => exact runTimer_ofMachine m cycles
  | press event => exact modifyBus_ofMachine m _ rfl
  | stepCpu => exact congrArg Prod.fst (stepCpu_ofMachine m)
  | step => exact congrArg Prod.fst (step_ofMachine m)
  | reset => exact reset_ofMachine m

/-- The machine with stored values goes along. -/
theorem run_ofMachine (m : Machine) (history : List MachineOp) :
    (ofMachine m).run history = ofMachine (m.run history) := by
  unfold run Machine.run
  induction history generalizing m with
  | nil => rfl
  | cons op history ih =>
    rw [List.foldl_cons, List.foldl_cons, apply_ofMachine]
    exact ih (m.apply op)

/-- The values that the registers, the counters and the stored values of a machine can
have. -/
structure WellFormed (s : StoredMachine) : Prop where
  /-- No bit of F is set that is no flag. -/
  flags : s.cpu.f &&& 0x0F = 0
  /-- The timer runs if bit 2 of the control register is set. -/
  running : s.bus.running = (s.bus.bus.timer.control &&& 0x04 != 0)
  /-- Bits 1 and 0 of the control register select the period. -/
  period : s.bus.period = selectedPeriod s.bus.bus.timer.control
  bus : s.bus.bus.WellFormed

theorem wellFormed_ofMachine {m : Machine} (h : m.bus.WellFormed) : (ofMachine m).WellFormed where
  flags := m.cpu.regs.flags.toByte_and_lowDigit
  running := rfl
  period := rfl
  bus := h

/-- Every machine with stored values is well formed, whatever was done to it, and does
what the machine does that computes them. -/
theorem wellFormed_of_history {s : StoredMachine} {m : Machine}
    (hstart : s = powerOn ∧ m = .powerOn ∨ s = postBoot ∧ m = .postBoot)
    (history : List MachineOp) :
    (s.run history).WellFormed ∧ s.run history = ofMachine (m.run history) := by
  have hrun : s.run history = ofMachine (m.run history) := by
    rw [← run_ofMachine]
    rcases hstart with ⟨rfl, rfl⟩ | ⟨rfl, rfl⟩
    · rw [ofMachine_powerOn]
    · rw [ofMachine_postBoot]
  refine ⟨hrun ▸ wellFormed_ofMachine (Machine.wellFormed_run ?_ history), hrun⟩
  exact hstart.imp And.right And.right

/-- A cartridge is inserted into a running machine, which is started again; then all bits
are written to the control register and to the requests, and a button is pressed. -/
def restarted : List MachineOp :=
  [.step, .insert (Array.replicate 0x150 0) [], .reset, .write 0xFF07 0xFF, .step,
    .write 0xFF0F 0xFF, .press { button := .start, pressed := true }]

theorem wellFormed_restarted :
    (postBoot.run restarted).WellFormed ∧
      (postBoot.run restarted).bus.bus.timer.control = 7 ∧
      (postBoot.run restarted).bus.period = 64 ∧
      (postBoot.run restarted).bus.running = true ∧
      (postBoot.run restarted).bus.bus.requests = 0x1F ∧
      (postBoot.run restarted).cpu.f = 0xB0 := by
  refine ⟨(wellFormed_of_history (Or.inr ⟨rfl, rfl⟩) restarted).1, ?_⟩
  decide +kernel

end StoredMachine
end Checked
end Handheld
