import Handheld.Proofs.Bus.Slot
import Handheld.Proofs.Cartridge.Loading
import Handheld.Proofs.Machine.Events
import Handheld.Proofs.Machine.Reachable
import Handheld.Proofs.Screen.FrameClock

/-!
# The clocks of the machine

The CPU counts the cycles of every step, and the same cycles are handed to the
timer and to the screen: to the timer in one or two portions, for the instruction
and for an interrupt behind it, and to the screen all at once.  No cycle is lost
and none is counted twice.

There are four groups.

* Cycles of events.  `totalOf` adds up what events take, and `total_stepEvents`
  says that a step gives its cycles to the timer and to the screen.
* The divider.  `dividerPlace_undergoAll` follows it through a list of events.
* The screen.  `onCourse_undergoAll` does the same for the place in the frame.
* The CPU.  Nothing but the end of a step counts cycles.
* The result, `clocks_of_run`.
-/

namespace Handheld

/-! ## Cycles of events -/

namespace BusEvent

/-- The cycles that an event gives to the timer. -/
def timerCycles : BusEvent → Nat
  | runTimer cycles => cycles
  | _ => 0

/-- The cycles that an event gives to the screen. -/
def screenCycles : BusEvent → Nat
  | runScreen cycles => cycles
  | _ => 0

/-- The cycles that a dispatch takes. -/
def dispatchCycles : BusEvent → Nat
  | dispatch _ => Machine.dispatchCycles
  | _ => 0

end BusEvent

/-- What events take together. -/
def totalOf (cycles : BusEvent → Nat) : List BusEvent → Nat
  | [] => 0
  | e :: events => cycles e + totalOf cycles events

theorem totalOf_append (cycles : BusEvent → Nat) (events more : List BusEvent) :
    totalOf cycles (events ++ more) = totalOf cycles events + totalOf cycles more := by
  induction events with
  | nil => exact (Nat.zero_add _).symm
  | cons e events ih => rw [List.cons_append, totalOf, totalOf, ih, Nat.add_assoc]

/-- Writes take no time of their own. -/
theorem totalOf_writeEvents (cycles : BusEvent → Nat)
    (h : ∀ address value, cycles (.write address value) = 0) (writes : List (UInt16 × UInt8)) :
    totalOf cycles (writeEvents writes) = 0 := by
  induction writes with
  | nil => rfl
  | cons w writes ih =>
    show cycles (.write w.1 w.2) + totalOf cycles (writeEvents writes) = 0
    rw [h, ih]

namespace Machine

/-- The cycles of a number of steps, as the steps answer them. -/
def runCycles : (n : Nat) → Machine → Nat
  | 0, _ => 0
  | n + 1, m => m.step.2 + runCycles n m.step.1

/-- The cycles that instructions and idling take in a number of steps. -/
def executeCycles : (n : Nat) → Machine → Nat
  | 0, _ => 0
  | n + 1, m => m.executeOrIdle.2 + executeCycles n m.step.1

theorem step_snd (m : Machine) :
    m.step.2 = m.executeOrIdle.2 +
      (m.executeOrIdle.1.runTimer m.executeOrIdle.2).serveInterrupts.2 := rfl

/-- Serving an interrupt gives its cycles to the timer, and takes as many as its
dispatch does. -/
theorem total_serviceEvents (m : Machine) :
    totalOf BusEvent.timerCycles m.serviceEvents = m.serveInterrupts.2 ∧
    totalOf BusEvent.dispatchCycles m.serviceEvents = m.serveInterrupts.2 ∧
    totalOf BusEvent.screenCycles m.serviceEvents = 0 := by
  unfold serviceEvents serveInterrupts
  cases m.pending with
  | none => exact ⟨rfl, rfl, rfl⟩
  | some i =>
    simp only
    by_cases hime : m.cpu.ime = true
    · rw [if_pos hime, if_pos hime]
      have hwrites := fun cycles h => totalOf_writeEvents cycles h m.dispatchWrites
      simp only [List.cons_append, totalOf, totalOf_append,
        hwrites BusEvent.timerCycles fun _ _ => rfl, hwrites BusEvent.dispatchCycles fun _ _ => rfl,
        hwrites BusEvent.screenCycles fun _ _ => rfl]
      exact ⟨rfl, rfl, rfl⟩
    · rw [if_neg hime, if_neg hime]
      exact ⟨rfl, rfl, rfl⟩

/-- A step gives its cycles to the timer and to the screen.  They are those of the
instruction, and those of the dispatch behind it if there is one. -/
theorem total_stepEvents (m : Machine) :
    totalOf BusEvent.timerCycles m.stepEvents = m.step.2 ∧
    totalOf BusEvent.screenCycles m.stepEvents = m.step.2 ∧
    m.executeOrIdle.2 + totalOf BusEvent.dispatchCycles m.stepEvents = m.step.2 := by
  obtain ⟨htimer, hdispatch, hscreen⟩ :=
    (m.executeOrIdle.1.runTimer m.executeOrIdle.2).total_serviceEvents
  have hwrites := fun cycles h => totalOf_writeEvents cycles h m.instructionWrites
  simp only [stepEvents, List.append_assoc, List.cons_append, totalOf,
    totalOf_append, hwrites BusEvent.timerCycles fun _ _ => rfl,
    hwrites BusEvent.dispatchCycles fun _ _ => rfl, hwrites BusEvent.screenCycles fun _ _ => rfl,
    htimer, hdispatch, hscreen, BusEvent.timerCycles, BusEvent.screenCycles,
    BusEvent.dispatchCycles, Nat.zero_add, Nat.add_zero]
  exact ⟨m.step_snd.symm, trivial, m.step_snd.symm⟩

theorem total_runEvents (n : Nat) (m : Machine) :
    totalOf BusEvent.timerCycles (runEvents n m) = runCycles n m ∧
    totalOf BusEvent.screenCycles (runEvents n m) = runCycles n m ∧
    executeCycles n m + totalOf BusEvent.dispatchCycles (runEvents n m) = runCycles n m := by
  induction n generalizing m with
  | zero => exact ⟨rfl, rfl, rfl⟩
  | succ n ih =>
    obtain ⟨htimer, hscreen, hdispatch⟩ := m.total_stepEvents
    obtain ⟨htimer', hscreen', hdispatch'⟩ := ih m.step.1
    rw [runEvents, runCycles, executeCycles, totalOf_append, totalOf_append, totalOf_append]
    omega

end Machine

/-! ## The divider -/

namespace Timer

/-- Where the divider stands in its 16384 cycles. -/
def dividerPlace (t : Timer) : Nat :=
  64 * t.divider.toNat + t.dividerCycles

/-- Two timers of which the dividers stand at the same place. -/
structure SameDivider (t u : Timer) : Prop where
  divider : u.divider = t.divider
  dividerCycles : u.dividerCycles = t.dividerCycles

theorem SameDivider.dividerPlace {t u : Timer} (h : t.SameDivider u) :
    u.dividerPlace = t.dividerPlace := by
  rw [Timer.dividerPlace, h.divider, h.dividerCycles, Timer.dividerPlace]

theorem sameDivider_advanceCounter (t : Timer) (cycles : Nat) :
    t.SameDivider (t.advanceCounter cycles).1 := by
  unfold advanceCounter
  split <;> exact ⟨rfl, rfl⟩

/-- A write beside the divider leaves it alone. -/
theorem sameDivider_writeAt (t : Timer) {address : UInt16} (value : UInt8)
    (h : address ≠ 0xFF04) : t.SameDivider (t.writeAt address value) := by
  unfold writeAt TimerRegister.ofAddress?
  rw [if_neg h]
  split_ifs <;> exact ⟨rfl, rfl⟩

/-- The divider moves by the time that passes. -/
theorem dividerPlace_advance (t : Timer) (cycles : Nat) :
    (t.advance cycles).1.dividerPlace % 16384 = (t.dividerPlace + cycles) % 16384 := by
  have hsteps : (t.divider + ((t.dividerCycles + cycles) / 64).toUInt8).toNat =
      (t.divider.toNat + (t.dividerCycles + cycles) / 64) % 256 := by
    rw [UInt8.toNat_add]
    exact Nat.add_mod_mod _ _ _
  have hadvanced : (t.advanceDivider cycles).dividerPlace =
      64 * ((t.divider.toNat + (t.dividerCycles + cycles) / 64) % 256) +
        (t.dividerCycles + cycles) % 64 := by
    rw [← hsteps]
    rfl
  rw [advance, (sameDivider_advanceCounter _ cycles).dividerPlace, hadvanced, dividerPlace]
  omega

end Timer

namespace Bus

theorem sameDivider_write (b : Bus) {address : UInt16} (value : UInt8) (h : address ≠ 0xFF04) :
    b.timer.SameDivider (b.write address value).timer := by
  rw [timer_write]
  exact b.timer.sameDivider_writeAt value h

/-- What events do to the divider, as long as it is not written. -/
theorem dividerPlace_undergo (b : Bus) {e : BusEvent}
    (h : ∀ value, e ≠ .write 0xFF04 value) :
    (b.undergo e).timer.dividerPlace % 16384 =
      (b.timer.dividerPlace + e.timerCycles) % 16384 := by
  cases e with
  | write address value =>
    have hother : address ≠ 0xFF04 := by
      rintro rfl
      exact h value rfl
    rw [undergo, (b.sameDivider_write value hother).dividerPlace]
    rfl
  | runTimer cycles => exact b.timer.dividerPlace_advance cycles
  | dispatch i => rfl
  | runScreen cycles => rfl

theorem dividerPlace_undergoAll {b : Bus} {events : List BusEvent}
    (h : ∀ value, .write 0xFF04 value ∉ events) :
    (b.undergoAll events).timer.dividerPlace % 16384 =
      (b.timer.dividerPlace + totalOf BusEvent.timerCycles events) % 16384 := by
  induction events generalizing b with
  | nil => rfl
  | cons e events ih =>
    have hnow := b.dividerPlace_undergo fun value heq => h value (heq ▸ List.mem_cons_self)
    rw [undergoAll_cons, ih fun value hmem => h value (List.mem_cons_of_mem e hmem), totalOf,
      ← Nat.mod_add_mod, hnow, Nat.mod_add_mod, Nat.add_assoc]

end Bus

/-! ## The screen -/

namespace Bus

/-- No write among the events changes whether the screen is on. -/
def KeepsSwitch (b : Bus) (events : List BusEvent) : Prop :=
  ∀ before address value after, events = before ++ .write address value :: after →
    ((b.undergoAll before).write address value).screen.enabled =
      (b.undergoAll before).screen.enabled

theorem KeepsSwitch.tail {b : Bus} {e : BusEvent} {events : List BusEvent}
    (h : b.KeepsSwitch (e :: events)) : (b.undergo e).KeepsSwitch events := by
  rintro before address value after rfl
  exact h (e :: before) address value after rfl

/-- The write that switches the screen off. -/
theorem enabled_write_of_switchesOff {b : Bus} (hon : b.screen.enabled = true) {address : UInt16}
    {value : UInt8} (h : SwitchesScreenOff (address, value)) :
    (b.write address value).screen.enabled = false := by
  obtain ⟨haddress, hbit⟩ := h
  have hplace : Place.ofAddress 0xFF40 = .screen .control :=
    Place.ofAddress_register (n := 0x40) rfl (by decide)
  rw [show address = 0xFF40 from haddress, write, hplace]
  show (b.writeScreen value .control).screen.enabled = false
  rw [screen_writeScreen]
  exact (Screen.apply_switchOff value hon hbit).1

variable {b : Bus} {before dots : Nat}

/-- Any other write leaves the screen on, and where it stands. -/
theorem onCourse_write (hon : b.screen.enabled = true) (hcourse : b.screen.OnCourse before dots)
    {address : UInt16} {value : UInt8} (h : ¬ SwitchesScreenOff (address, value)) :
    (b.write address value).screen.enabled = true ∧
      (b.write address value).screen.OnCourse before dots := by
  obtain ⟨ops, hrun, hops⟩ := b.exists_ops_write address value
  have hnever : ∀ op ∈ ops, op.switchesOff = false := by
    intro op hop
    rw [Bool.eq_false_iff]
    intro hoff
    obtain ⟨w, hw, hswitch⟩ := (hops op hop).2 hoff
    exact h (List.mem_singleton.1 hw ▸ hswitch)
  have hnow := hcourse.run hon hnever
  rw [hops.cyclesOf_eq_zero, ← hrun] at hnow
  exact hnow

/-- An event that does not switch the screen off moves it by the time that it gives
to it. -/
theorem onCourse_undergo (hon : b.screen.enabled = true)
    (hcourse : b.screen.OnCourse before dots) {e : BusEvent}
    (h : ∀ address value, e = .write address value → ¬ SwitchesScreenOff (address, value)) :
    (b.undergo e).screen.enabled = true ∧
      (b.undergo e).screen.OnCourse before (dots + 4 * e.screenCycles) := by
  cases e with
  | write address value => exact onCourse_write hon hcourse (h address value rfl)
  | runTimer cycles => exact ⟨hon, hcourse⟩
  | dispatch i => exact ⟨hon, hcourse⟩
  | runScreen cycles =>
    exact ⟨(Screen.sameSettings_advance _ cycles).enabled.trans hon, hcourse.advance hon cycles⟩

/-- Events of which none switches the screen off move it on its course by the time
that they give to it. -/
theorem onCourse_undergoAll (hon : b.screen.enabled = true)
    (hcourse : b.screen.OnCourse before dots) {events : List BusEvent}
    (h : ∀ address value, .write address value ∈ events →
      ¬ SwitchesScreenOff (address, value)) :
    (b.undergoAll events).screen.enabled = true ∧
      (b.undergoAll events).screen.OnCourse before
        (dots + 4 * totalOf BusEvent.screenCycles events) := by
  induction events generalizing b dots with
  | nil => exact ⟨hon, hcourse⟩
  | cons e events ih =>
    obtain ⟨honNow, hnow⟩ := onCourse_undergo hon hcourse
      fun address value heq => h address value (heq ▸ List.mem_cons_self)
    rw [undergoAll_cons, totalOf, Nat.mul_add, ← Nat.add_assoc]
    exact ih honNow hnow fun address value hmem => h address value (List.mem_cons_of_mem e hmem)

theorem KeepsSwitch.not_switchesOff (hon : b.screen.enabled = true)
    (hcourse : b.screen.OnCourse before dots) {events : List BusEvent}
    (h : b.KeepsSwitch events) (address : UInt16) (value : UInt8)
    (hmem : .write address value ∈ events) : ¬ SwitchesScreenOff (address, value) := by
  -- up to the first write that switches the screen off the screen is on, so that this
  -- write changes the switch
  induction events generalizing b dots with
  | nil => exact absurd hmem List.not_mem_nil
  | cons e events ih =>
    have hfirst : ∀ address value, e = .write address value →
        ¬ SwitchesScreenOff (address, value) := by
      rintro address value rfl hswitch
      have hsame := h [] address value events rfl
      rw [undergoAll_nil, enabled_write_of_switchesOff hon hswitch, hon] at hsame
      contradiction
    rcases List.mem_cons.1 hmem with heq | hmem
    · exact hfirst address value heq.symm
    · obtain ⟨honNow, hnow⟩ := onCourse_undergo hon hcourse hfirst
      exact ih honNow hnow h.tail hmem

/-- While the screen is on, the writes that change the switch are those that switch
it off. -/
theorem keepsSwitch_iff (hon : b.screen.enabled = true)
    (hcourse : b.screen.OnCourse before dots) {events : List BusEvent} :
    b.KeepsSwitch events ↔
      ∀ address value, .write address value ∈ events →
        ¬ SwitchesScreenOff (address, value) := by
  refine ⟨KeepsSwitch.not_switchesOff hon hcourse, ?_⟩
  rintro h earlier address value later rfl
  have hearlier : ∀ address value, .write address value ∈ earlier →
      ¬ SwitchesScreenOff (address, value) :=
    fun address value hmem => h address value (List.mem_append_left _ hmem)
  obtain ⟨honBefore, hbefore⟩ := onCourse_undergoAll hon hcourse hearlier
  obtain ⟨honAfter, -⟩ := onCourse_write honBefore hbefore
    (h address value (List.mem_append_right _ List.mem_cons_self))
  rw [honAfter, honBefore]

end Bus

/-! ## The CPU -/

namespace Cpu

variable (cpu : Cpu)

theorem cycles_store (value : UInt8) (o : Operand) :
    (cpu.store value o).cpu.cycles = cpu.cycles := by
  cases o <;> rfl

theorem cycles_jump (condition : Option Condition) (target : UInt16) :
    (cpu.jump condition target).cpu.cycles = cpu.cycles := by
  unfold jump
  split <;> rfl

/-- No instruction counts cycles. -/
theorem cycles_execute (read : UInt16 → UInt8) (i : Instruction) :
    (cpu.execute read i).cpu.cycles = cpu.cycles := by
  cases i with
  | increment o | decrement o | rotate operation o => exact cycles_store _ _ o
  | loadImmediate o value => exact cycles_store _ _ o
  | load target source => exact cycles_store _ _ target
  | resetBit n o | setBit n o => exact cycles_store _ _ o
  | jumpRelative condition offset => exact cycles_jump _ _ _
  | jump condition target => exact cycles_jump _ _ _
  | call condition target | ret condition =>
    simp only [execute]
    split <;> rfl
  | _ => rfl

end Cpu

namespace Machine

theorem cycles_executeOrIdle (m : Machine) : m.executeOrIdle.1.cpu.cycles = m.cpu.cycles := by
  unfold executeOrIdle
  split
  · rfl
  · exact Cpu.cycles_execute _ _ _

theorem cycles_serveInterrupts (m : Machine) :
    m.serveInterrupts.1.cpu.cycles = m.cpu.cycles := by
  unfold serveInterrupts
  split
  · rfl
  · split <;> rfl

/-- A step counts its own cycles once. -/
theorem cycles_step (m : Machine) :
    m.step.1.cpu.cycles = m.cpu.cycles + m.step.2.toUInt64 := by
  have hserved := (m.executeOrIdle.1.runTimer m.executeOrIdle.2).cycles_serveInterrupts
  have hbefore : (m.executeOrIdle.1.runTimer m.executeOrIdle.2).cpu.cycles = m.cpu.cycles :=
    m.cycles_executeOrIdle
  rw [← hbefore, ← hserved]
  rfl

theorem cycles_steps (n : Nat) (m : Machine) :
    (steps n m).cpu.cycles = m.cpu.cycles + (runCycles n m).toUInt64 := by
  induction n generalizing m with
  | zero => exact (UInt64.add_zero _).symm
  | succ n ih =>
    rw [steps, runCycles, ih, cycles_step, UInt64.add_assoc]
    congr 1
    exact (UInt64.ofNat_add _ _).symm

/-- The clocks of the machine agree over any number of steps.  The CPU counts the
cycles that the steps answer, and the timer and the screen are given the same, each
cycle once: those of the instructions and of idling, and those of each dispatch.
So the divider moves by them unless it is written, and the screen moves on its
course by four dots for each, unless it is switched. -/
theorem clocks_of_run {m : Machine} (h : m.Reachable) (n : Nat) :
    (steps n m).cpu.cycles = m.cpu.cycles + (runCycles n m).toUInt64 ∧
    (totalOf BusEvent.timerCycles (runEvents n m) = runCycles n m ∧
      totalOf BusEvent.screenCycles (runEvents n m) = runCycles n m ∧
      executeCycles n m + totalOf BusEvent.dispatchCycles (runEvents n m) = runCycles n m) ∧
    ((∀ value, .write 0xFF04 value ∉ runEvents n m) →
      (steps n m).bus.timer.dividerPlace % 16384 =
        (m.bus.timer.dividerPlace + runCycles n m) % 16384) ∧
    (m.bus.screen.enabled = true → m.bus.KeepsSwitch (runEvents n m) →
      (steps n m).bus.screen.enabled = true ∧
      (steps n m).bus.screen.position.phase =
        (m.bus.screen.position.phase + 4 * runCycles n m) % 70080 ∧
      (steps n m).bus.screen.position =
        Screen.positionAt ((m.bus.screen.position.phase + 4 * runCycles n m) % 70080)) := by
  obtain ⟨htimer, hscreen, hdispatch⟩ := total_runEvents n m
  refine ⟨cycles_steps n m, ⟨htimer, hscreen, hdispatch⟩, ?_, ?_⟩
  · intro hnever
    rw [steps_bus, Bus.dividerPlace_undergoAll hnever, htimer]
  · intro hon hkeeps
    obtain ⟨before, dots, hcourse⟩ := h.screen.onCourse hon
    obtain ⟨honNow, hnow⟩ :=
      Bus.onCourse_undergoAll hon hcourse (hkeeps.not_switchesOff hon hcourse)
    rw [hscreen, ← steps_bus] at hnow
    rw [← steps_bus] at honNow
    have hplace : (m.bus.screen.position.phase + 4 * runCycles n m) % 70080 =
        (dots + 4 * runCycles n m) % Screen.frameDots := by
      rw [hcourse.phase_eq]
      exact Nat.mod_add_mod _ _ _
    rw [hplace]
    exact ⟨honNow, hnow.phase_eq, hnow.phase.position⟩

/-- The initial machine with a cartridge that lets the CPU serve interrupts, whatever is
executed, while one is requested. -/
def interrupted : Machine :=
  { postBoot with
    bus := ((postBoot.bus.insert (.filled 0xFB)).write 0xFF0F 0x01).write 0xFFFF 0x01 }

theorem read_interrupted : interrupted.bus.read 0x0100 = 0xFB := by
  have hplace : Place.ofAddress 0x0100 = .cartridge := rfl
  have hcartridge : interrupted.bus.cartridge = some (.filled 0xFB) := rfl
  simp only [Bus.read, hplace, hcartridge, Cartridge.read_filled]

theorem nextInstruction_interrupted : interrupted.nextInstruction = .enableInterrupts := by
  have hpc : interrupted.cpu.regs.pc = 0x0100 := rfl
  rw [nextInstruction, Instruction.decode, hpc, read_interrupted]
  rfl

/-- The first instruction takes a cycle, and the interrupt behind it five. -/
theorem runEvents_interrupted : runEvents 1 interrupted =
    [.runTimer 1, .dispatch .vblank, .write 0xFFFD 0x01, .write 0xFFFC 0x01, .runTimer 5,
      .runScreen 6] := by
  have hexecute : interrupted.executeOrIdle =
      ({ interrupted with cpu := { skip .postBoot .enableInterrupts with ime := true } }, 1) := by
    rw [executeOrIdle, if_neg (by decide), executeNext, nextInstruction_interrupted]
    rfl
  have hwrites : interrupted.instructionWrites = [] := by
    rw [instructionWrites, if_neg (by decide), nextInstruction_interrupted]
    rfl
  rw [runEvents, runEvents, List.append_nil, stepEvents, step_snd, hexecute, hwrites]
  rfl

/-- After that step all clocks have moved by six cycles. -/
theorem clocks_of_interrupted :
    Cartridge.load (.replicate 0x150 0xFB) = .ok (.filled 0xFB) ∧
    interrupted.Reachable ∧ interrupted.bus.screen.enabled = true ∧
      (steps 1 interrupted).cpu.cycles = 6 ∧
      (steps 1 interrupted).bus.timer.dividerPlace % 16384 = 6 ∧
      (steps 1 interrupted).bus.screen.position.phase = 24 := by
  have hreach : interrupted.Reachable :=
    ((Reachable.postBoot.insert (.filled 0xFB)).write 0xFF0F 0x01).write 0xFFFF 0x01
  obtain ⟨hcpu, ⟨htimer, -, -⟩, hdivider, hscreen⟩ := clocks_of_run hreach 1
  rw [runEvents_interrupted] at htimer hdivider hscreen
  have hcycles : runCycles 1 interrupted = 6 := htimer.symm
  have hkeeps : interrupted.bus.KeepsSwitch [.runTimer 1, .dispatch .vblank,
      .write 0xFFFD 0x01, .write 0xFFFC 0x01, .runTimer 5, .runScreen 6] := by
    obtain ⟨before, dots, hcourse⟩ := hreach.screen.onCourse rfl
    refine (Bus.keepsSwitch_iff rfl hcourse).2 ?_
    rintro address value hmem ⟨rfl, -⟩
    simp at hmem
  rw [hcycles] at hcpu hdivider hscreen
  refine ⟨Cartridge.load_filled 0xFB, hreach, rfl, hcpu.trans rfl, ?_, ?_⟩
  · exact hdivider (by simp)
  · exact (hscreen rfl hkeeps).2.1

end Machine
end Handheld
