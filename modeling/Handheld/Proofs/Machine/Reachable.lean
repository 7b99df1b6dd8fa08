import Handheld.Machine.Frame
import Handheld.Proofs.Machine.Writes

/-!
# The reachable machines

A machine is reachable if it comes from one of the two initial machines by what
can be done to it from outside: inserting a cartridge, installing a boot ROM,
writing to the bus, operating the screen, pressing a button, stepping, running
a frame, and resetting.

There are three groups.

* The loop of a frame.  `FrameRun.run_eq_after` says how many times the loop
  goes round.
* What running keeps.  `runFrame_induction` carries whatever events and steps
  keep through a whole frame.
* The machines.  `Reachable.screen` carries every fact about reachable screens
  over to machines.
-/

namespace Handheld.Machine

/-! ## The loop of a frame -/

namespace FrameRun

variable {σ : Type}

/-- The run after `n` more steps, whether it is over or not. -/
def after (source : InputSource σ) : (n : Nat) → FrameRun σ → FrameRun σ
  | 0, r => r
  | n + 1, r => after source n (r.next source)

/-- The machine that makes the next step: events at the buttons come first. -/
def pumped (source : InputSource σ) (r : FrameRun σ) : Machine :=
  (r.machine.pump source r.input).1

theorem after_succ (source : InputSource σ) (n : Nat) (r : FrameRun σ) :
    r.after source (n + 1) = (r.after source n).next source := by
  induction n generalizing r with
  | zero => rfl
  | succ n ih => exact ih (r.next source)

/-- The loop stops after the first step at which the run is over, or when the
fuel is used up. -/
theorem run_eq_after (source : InputSource σ) (fuel : Nat) (r : FrameRun σ) :
    ∃ n ≤ fuel, r.run source fuel = r.after source n ∧
      (∀ k < n, (r.after source k).finished = false) ∧
      ((r.after source n).finished = true ∨ n = fuel) := by
  induction fuel generalizing r with
  | zero => exact ⟨0, Nat.le_refl 0, rfl, fun k hk => absurd hk (by omega), Or.inr rfl⟩
  | succ fuel ih =>
    unfold run
    by_cases hover : r.finished = true
    · rw [if_pos hover]
      exact ⟨0, Nat.zero_le _, rfl, fun k hk => absurd hk (by omega), Or.inl hover⟩
    · rw [if_neg hover]
      obtain ⟨n, hn, hrun, hbefore, hend⟩ := ih (r.next source)
      refine ⟨n + 1, by omega, hrun, ?_, ?_⟩
      · intro k hk
        cases k with
        | zero => exact Bool.not_eq_true _ ▸ hover
        | succ k => exact hbefore k (by omega)
      · rcases hend with hend | rfl
        · exact Or.inl hend
        · exact Or.inr rfl

end FrameRun

/-! ## What running keeps -/

section Induction

variable {σ : Type} {P : Machine → Prop}

/-- Events at the buttons keep what each of them keeps. -/
theorem pump_induction (press : ∀ (m : Machine) (event : ButtonEvent), P m → P (m.press event))
    (source : InputSource σ) (state : σ) {m : Machine} (h : P m) :
    P (m.pump source state).1 := by
  have hall : ∀ (events : List ButtonEvent) (m : Machine), P m →
      P (events.foldl Machine.press m) := by
    intro events
    induction events with
    | nil => exact fun _ h => h
    | cons event events ih => exact fun m h => ih (m.press event) (press m event h)
  unfold pump
  by_cases hfocused : source.focused state = true
  · simp only [hfocused, if_true]
    exact hall _ m h
  · simp only [hfocused, Bool.false_eq_true, if_false]
    exact h

/-- Any number of steps of a frame keep what events and steps keep. -/
theorem FrameRun.after_induction
    (press : ∀ (m : Machine) (event : ButtonEvent), P m → P (m.press event))
    (step : ∀ m : Machine, P m → P m.step.1) (source : InputSource σ) (n : Nat)
    {r : FrameRun σ} (h : P r.machine) : P (r.after source n).machine := by
  induction n with
  | zero => exact h
  | succ n ih =>
    rw [FrameRun.after_succ]
    exact step _ (pump_induction press source _ ih)

/-- A frame keeps what events, steps and taking the picture keep. -/
theorem runFrame_induction
    (press : ∀ (m : Machine) (event : ButtonEvent), P m → P (m.press event))
    (step : ∀ m : Machine, P m → P m.step.1)
    (take : ∀ m : Machine, P m → P { m with bus.screen := m.bus.screen.takeFrame })
    (source : InputSource σ) (input : σ) {m : Machine} (h : P m) :
    P (m.runFrame source input).machine := by
  obtain ⟨n, _, hrun, _⟩ := FrameRun.run_eq_after source frameBudget { machine := m, input }
  have hafter : P (FrameRun.after source n { machine := m, input }).machine :=
    FrameRun.after_induction press step source n h
  rw [runFrame, hrun, FrameRun.present]
  simp only
  split
  · exact take _ hafter
  · exact hafter

end Induction

/-- Events at the buttons leave the screen alone. -/
theorem pump_screen {σ : Type} (source : InputSource σ) (m : Machine) (state : σ) :
    (m.pump source state).1.bus.screen = m.bus.screen :=
  pump_induction (P := fun other => other.bus.screen = m.bus.screen) (fun _ _ h => h) source
    state rfl

/-! ## The machines -/

/-- The machines that can be made of the two initial ones. -/
inductive Reachable : Machine → Prop where
  | powerOn : Reachable .powerOn
  | postBoot : Reachable .postBoot
  | insert {m : Machine} (c : Cartridge) :
      Reachable m → Reachable { m with bus := m.bus.insert c }
  | installBoot {m : Machine} (boot : Array UInt8) :
      Reachable m → Reachable { m with bus := m.bus.installBoot boot }
  | write {m : Machine} (address : UInt16) (value : UInt8) :
      Reachable m → Reachable { m with bus := m.bus.write address value }
  | perform {m : Machine} (op : ScreenOp) :
      Reachable m → Reachable { m with bus := m.bus.perform op }
  | press {m : Machine} (event : ButtonEvent) : Reachable m → Reachable (m.press event)
  | step {m : Machine} : Reachable m → Reachable m.step.1
  | runFrame {m : Machine} {σ : Type} (source : InputSource σ) (input : σ) :
      Reachable m → Reachable (m.runFrame source input).machine
  | reset {m : Machine} : Reachable m → Reachable m.reset

/-- A step carries a reachable screen to a reachable screen. -/
theorem screen_reachable_step {m : Machine} (h : m.bus.screen.Reachable) :
    m.step.1.bus.screen.Reachable := by
  obtain ⟨ops, heq, _⟩ := m.exists_ops_step
  rw [heq]
  exact (h.run ops).apply (.advance m.step.2)

theorem screen_reachable_runFrame {σ : Type} {m : Machine} (source : InputSource σ) (input : σ)
    (h : m.bus.screen.Reachable) : (m.runFrame source input).machine.bus.screen.Reachable :=
  runFrame_induction (P := fun m => m.bus.screen.Reachable) (fun _ _ h => h)
    (fun _ h => screen_reachable_step h) (fun _ h => h.apply .takeFrame) source input h

theorem screen_installBoot (b : Bus) (boot : Array UInt8) :
    (b.installBoot boot).screen = b.screen := by
  unfold Bus.installBoot
  split <;> rfl

theorem screen_reset (m : Machine) :
    m.reset.bus.screen = .powerOn ∨ m.reset.bus.screen = .postBoot := by
  have hscreen : m.reset.bus.screen =
      (if m.startsAtPowerOn then powerOn else postBoot).bus.screen := by
    unfold reset
    cases m.bus.bootRom <;> cases m.bus.cartridge <;>
      simp only [Bus.insert, screen_installBoot]
  rw [hscreen]
  by_cases hstart : m.startsAtPowerOn = true
  · exact Or.inl (by rw [if_pos hstart]; rfl)
  · exact Or.inr (by rw [if_neg hstart]; rfl)

/-- The screen of a reachable machine is a reachable screen. -/
theorem Reachable.screen {m : Machine} (h : m.Reachable) : m.bus.screen.Reachable := by
  induction h with
  | powerOn => exact .powerOn
  | postBoot => exact .postBoot
  | insert c _ ih => exact ih
  | installBoot boot _ ih =>
    rw [screen_installBoot]
    exact ih
  | @write m address value _ ih =>
    obtain ⟨ops, heq, _⟩ := m.bus.exists_ops_write address value
    rw [heq]
    exact ih.run ops
  | perform op _ ih => exact ih.apply op
  | press event _ ih => exact ih
  | step _ ih => exact screen_reachable_step ih
  | runFrame source input _ ih => exact screen_reachable_runFrame source input ih
  | @reset m _ _ =>
    rcases m.screen_reset with heq | heq <;> rw [heq]
    · exact .powerOn
    · exact .postBoot

end Handheld.Machine
