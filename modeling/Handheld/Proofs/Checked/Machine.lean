import Handheld.Proofs.Checked.Cpu
import Handheld.Proofs.Checked.Timing
import Handheld.Proofs.Machine.FrameLoop
import Handheld.Proofs.Machine.Provenance

/-!
# No program makes a step fault

Whatever program a machine runs, and whatever was done to it from outside, its
next step meets no fault: the step with checked arithmetic answers what the
step answers.  Only the count of pictures bounds this, since it is the one
number that grows for ever.

There are two groups.

* The step, part by part: `run_stepCpu`, `run_step`.
* The machines: `Provenance.sound` and `Provenance.screen` say what a step
  relies on.
-/

namespace Handheld

namespace Checked

variable {m : Machine}

/-! ## The step -/

theorem run_runTimer (h : m.bus.Sound) {cycles : Nat} (hcycles : cycles ≤ 11) :
    (runTimer cycles).run m = .ok ((), m.runTimer cycles) := by
  change (advanceBusTimer m.bus cycles >>= _) = _
  rw [advanceBusTimer_eq_ok h hcycles]
  rfl

theorem run_executeOrIdle (h : m.bus.Sound) :
    executeOrIdle.run m = .ok (m.executeOrIdle.2, m.executeOrIdle.1) := by
  change (if _ then _ else _) = _
  unfold Machine.executeOrIdle
  by_cases hhalted : m.cpu.halted = true
  · rw [if_pos hhalted, if_pos hhalted]
    rfl
  · rw [if_neg hhalted, if_neg hhalted]
    exact run_executeNext h

theorem run_serve (h : m.bus.Sound) {cost : Nat} (hcost : cost ≤ 6) :
    (serve cost).run m = .ok (cost + m.serveInterrupts.2, m.serveInterrupts.1) := by
  rw [serve, StateT.run_bind]
  change (serveInterrupts m >>= _) = _
  unfold serveInterrupts Machine.serveInterrupts
  cases m.pending with
  | none => rfl
  | some i =>
    dsimp only
    by_cases hime : m.cpu.ime = true
    · have hlimit : cost + Machine.dispatchCycles < Width.double.limit := by
        rw [limit_double, Machine.dispatchCycles]
        omega
      have hwithdrawn : Bus.Sound { m.bus with requests := i.clear m.bus.requests } :=
        h.of_eq rfl rfl
      have hdispatched : (m.wake.dispatch i).bus.Sound := hwithdrawn.writeAll _
      have hpush : StateT.run (do
            push m.cpu.regs.pc
            setPc i.vector
            return Machine.dispatchCycles : Run Nat)
          { m.wake with
            cpu.ime := false
            bus := { m.wake.bus with requests := i.clear m.wake.bus.requests } } =
          .ok (Machine.dispatchCycles, m.wake.dispatch i) := by
        rw [StateT.run_bind, run_push hwithdrawn]
        rfl
      rw [if_pos hime, if_pos hime]
      refine (congrArg (· >>= _) hpush).trans ?_
      rw [ok_bind]
      dsimp only
      rw [if_pos (by decide), StateT.run_bind, run_runTimer hdispatched (by decide), ok_bind]
      exact run_liftM (add_eq_ok hlimit) _
    · rw [if_neg hime, if_neg hime]
      rfl

/-- A step of CPU and timer meets no fault. -/
theorem run_stepCpu (h : m.bus.Sound) :
    stepCpu.run m = .ok (m.stepCpu.2, m.stepCpu.1) := by
  have hcost := m.executeOrIdle_cycles.2
  have hexecuted : m.executeOrIdle.1.bus.Sound := by
    rw [m.executeOrIdle_bus]
    exact h.writeAll _
  have htimed : (m.executeOrIdle.1.runTimer m.executeOrIdle.2).bus.Sound :=
    hexecuted.advanceTimer _
  have htimer : (runTimer m.executeOrIdle.2).run m.executeOrIdle.1 = _ :=
    run_runTimer hexecuted (by omega)
  unfold stepCpu
  simp only [StateT.run_bind, run_executeOrIdle h, htimer, run_serve htimed hcost, ok_bind]
  rfl

theorem run_runScreen (h : m.bus.screen.Reachable) {cycles : Nat} (hcycles : cycles ≤ 11)
    (hcount : (m.bus.screen.advance cycles).1.frameCount < Width.quad.limit) :
    (runScreen cycles).run m = .ok ((), { m with bus := m.bus.advanceScreen cycles }) := by
  have hdots : cycles * Screen.dotsPerCycle < Width.double.limit := by
    rw [limit_double, Screen.dotsPerCycle]
    omega
  change (advance m.bus.screen cycles >>= _) = _
  rw [advance_eq_ok h hdots hcount]
  rfl

/-- A step meets no fault while there is a number for the next picture. -/
theorem run_step (h : m.bus.Sound) (hscreen : m.bus.screen.Reachable)
    (hcount : m.frameCount + 1 < Width.quad.limit) :
    step.run m = .ok (m.step.2, m.step.1) := by
  have hreach : m.stepCpu.1.bus.screen.Reachable := by
    obtain ⟨ops, hrun, _⟩ := m.exists_ops_executeOrIdle
    obtain ⟨others, hrun', _⟩ :=
      (m.executeOrIdle.1.runTimer m.executeOrIdle.2).exists_ops_serveInterrupts
    have hexecuted : m.executeOrIdle.1.bus.screen.Reachable := hrun ▸ hscreen.run ops
    exact hrun' ▸ hexecuted.run others
  have hcompleted := Nat.lt_of_le_of_lt (Machine.frameCount_step_le hscreen) hcount
  have hrun := run_runScreen hreach m.step_cycles.2 hcompleted
  unfold step
  rw [StateT.run_bind, run_stepCpu h, ok_bind, StateT.run_bind]
  refine (congrArg (· >>= _) hrun).trans ?_
  rfl

end Checked

/-! ## The machines -/

namespace Machine

theorem sound_initial {start : Machine} (hstart : start = powerOn ∨ start = postBoot) :
    start.bus.Sound := by
  rcases hstart with rfl | rfl
  all_goals
    refine ⟨?_, ⟨by decide, by decide⟩⟩
    rintro _ ⟨⟩

theorem sound_step {m : Machine} (h : m.bus.Sound) : m.step.1.bus.Sound :=
  bus_step_induction (fun _ _ _ h => h.write _ _) (fun _ _ h => h.of_eq rfl rfl)
    (fun _ cycles h => h.advanceTimer cycles) (fun _ _ h => h.of_eq rfl rfl) h

theorem sound_runFrame {m : Machine} {σ : Type} (source : InputSource σ) (input : σ)
    (h : m.bus.Sound) : (m.runFrame source input).machine.bus.Sound :=
  runFrame_induction (P := fun m => m.bus.Sound) (fun _ _ h => h.of_eq rfl rfl)
    (fun _ h => sound_step h) (fun _ h => h.of_eq rfl rfl) source input h

/-- A reset covers no ROM but with the boot ROM that is installed. -/
theorem sound_reset (m : Machine) : m.reset.bus.Sound := by
  have hfresh := sound_initial m.fresh_eq_powerOn_or_postBoot
  have hboot : (m.bus.bootRom.elim m.fresh fun bytes =>
      { m.fresh with bus := m.fresh.bus.installBoot bytes }).bus.Sound := by
    cases m.bus.bootRom with
    | none => exact hfresh
    | some bytes => exact hfresh.installBoot bytes
  rw [reset_eq_assemble]
  unfold assemble
  cases m.bus.cartridge with
  | none => exact hboot.of_eq rfl rfl
  | some c => exact (hboot.insert (c := c.reset) (Cartridge.overlayFits_of_none rfl)).of_eq rfl rfl

variable {start m : Machine} {boot image : Option (Array UInt8)}

theorem Provenance.sound (hstart : start = powerOn ∨ start = postBoot)
    (h : Provenance start boot image m) : m.bus.Sound := by
  induction h with
  | start => exact sound_initial hstart
  | installBoot bytes _ ih => exact ih.installBoot bytes
  | insert hload _ ih =>
    have hoverlay := congrArg Cartridge.overlay (Cartridge.reset_of_load hload)
    exact ih.insert (Cartridge.overlayFits_of_none hoverlay.symm)
  | write address value _ ih => exact ih.write address value
  | press event _ ih => exact ih.of_eq rfl rfl
  | step _ ih => exact sound_step ih
  | runFrame source input _ ih => exact sound_runFrame source input ih
  | reset _ _ => exact sound_reset _

theorem Provenance.reachable (hstart : start = powerOn ∨ start = postBoot)
    (h : Provenance start boot image m) : m.Reachable := by
  induction h with
  | start =>
    rcases hstart with rfl | rfl
    · exact .powerOn
    · exact .postBoot
  | installBoot bytes _ ih => exact ih.installBoot bytes
  | insert _ _ ih => exact ih.insert _
  | write address value _ ih => exact ih.write address value
  | press event _ ih => exact ih.press event
  | step _ ih => exact ih.step
  | runFrame source input _ ih => exact ih.runFrame source input
  | reset _ ih => exact ih.reset

/-- No program makes a step fault: while fewer than `2 ^ 64 - 1` pictures are
completed, the step with checked arithmetic has an answer, the one of the step. -/
theorem step_meets_no_fault (hstart : start = powerOn ∨ start = postBoot)
    (h : Provenance start boot image m) (hcount : m.frameCount < UInt64.size - 1) :
    Checked.step.run m = .ok (m.step.2, m.step.1) :=
  Checked.run_step (h.sound hstart) (h.reachable hstart).screen (Nat.add_lt_of_lt_sub hcount)

/-- A machine with a boot ROM and a cartridge takes a step after its first one. -/
theorem step_after_first : ∃ m : Machine,
    Provenance powerOn (some #[0x3E, 0x01, 0xE0, 0x50]) (some (.replicate 0x150 0)) m ∧
    m.frameCount < UInt64.size - 1 ∧ Checked.step.run m = .ok (m.step.2, m.step.1) := by
  have hstart : Provenance powerOn none none powerOn := .start
  have hfirst := (hstart.installBoot #[0x3E, 0x01, 0xE0, 0x50]).insert (Cartridge.load_filled 0)
  have hle := frameCount_step_le (hfirst.reachable (Or.inl rfl)).screen
  have hcount := Nat.lt_of_le_of_lt hle (by decide : 0 + 1 < UInt64.size - 1)
  exact ⟨_, hfirst.step, hcount, step_meets_no_fault (Or.inl rfl) hfirst.step hcount⟩

end Machine
end Handheld
