import Handheld.Proofs.Bus.Requests
import Handheld.Proofs.Checked.Opcode
import Handheld.Proofs.Machine.Events
import Handheld.Proofs.Timer.Splitting

/-!
# Idling

A halted CPU sleeps until an enabled interrupt is requested, and not a cycle longer.
While it sleeps, only time passes: any number of steps come to the same as letting
the timer and the screen run once for all their cycles.

In each cycle the timer runs before the CPU looks for requests, and the screen runs
after it.  So what the CPU finds in cycle `n` are the requests of `n` cycles of the
timer and of `n - 1` cycles of the screen.

There are four groups.

* Requests that are heard, by the bits of the two registers.
* Idling.  `idled` is the machine after cycles in which only time passes, and
  `OnlyTimePasses` says what that leaves alone.
* One cycle: `step_of_unheard` and `step_of_heard`.
* Many cycles, and the result `steps_of_halted`.
-/

namespace Handheld

/-! ## Requests that are heard -/

theorem Interrupt.nextPending_eq_none_iff {requests enabled : UInt8} :
    nextPending requests enabled = none ↔ requests &&& enabled &&& wired = 0 := by
  unfold nextPending
  generalize requests &&& enabled = bits
  induction bits using forall_byte with
  | h n hn =>
    revert n
    decide +kernel

namespace Bus

/-- The requests of enabled interrupts. -/
def heard (b : Bus) : UInt8 :=
  b.requests &&& b.enables &&& Interrupt.wired

/-- What is not heard was not heard before more was requested. -/
theorem heard_of_raises {b after : Bus} (hraises : b.Raises after)
    (henables : after.enables = b.enables) (h : after.heard = 0) : b.heard = 0 := by
  obtain ⟨raised, hraised⟩ := hraises
  unfold heard at *
  rw [hraised, henables, or_and_mask, or_and_mask, UInt8.or_eq_zero_iff] at h
  exact h.1

end Bus

namespace Machine

/-! ## Idling -/

/-- The bus on which the CPU looks for requests in cycle `n`, if it idles until
then. -/
def lookout (m : Machine) (n : Nat) : Bus :=
  (m.bus.advanceTimer n).advanceScreen (n - 1)

/-- In cycle `n` no request is heard. -/
def SleepsThrough (m : Machine) (n : Nat) : Prop :=
  (m.lookout n).heard = 0

instance instDecidablePredSleepsThrough (m : Machine) : DecidablePred m.SleepsThrough :=
  fun _ => inferInstanceAs (Decidable (_ = _))

/-- The machine after `n` cycles in which the CPU does nothing. -/
def idled (m : Machine) (n : Nat) : Machine :=
  { m with
    cpu.cycles := m.cpu.cycles + n.toUInt64
    bus := (m.bus.advanceTimer n).advanceScreen n }

/-- Of a machine only its clocks have moved on: the registers of the CPU, the
cartridge and all memories are as before, and no request was withdrawn. -/
structure OnlyTimePasses (m after : Machine) : Prop where
  cpu : after.cpu = { m.cpu with cycles := after.cpu.cycles, halted := after.cpu.halted }
  bus : after.bus = { m.bus with
    timer := after.bus.timer, screen := after.bus.screen, requests := after.bus.requests }
  screen : m.bus.screen.SameSettings after.bus.screen
  requests : m.bus.Raises after.bus

theorem raises_lookout (m : Machine) (n more : Nat) :
    (m.lookout (n + 1)).Raises (m.lookout (n + 1 + more)) := by
  have hlater : m.lookout (n + 1 + more) =
      ((m.lookout (n + 1)).advanceTimer more).advanceScreen more := by
    unfold lookout
    rw [Bus.advanceScreen_advanceTimer, Bus.advanceTimer_advanceTimer,
      Bus.advanceScreen_advanceScreen, Nat.add_sub_cancel, Nat.add_right_comm, Nat.add_sub_cancel]
  rw [hlater]
  exact (Bus.raises_advanceTimer _ _).trans (Bus.raises_advanceScreen _ _)

/-- A CPU that sleeps through a cycle slept through those before it. -/
theorem SleepsThrough.mono {m : Machine} {n k : Nat} (h : m.SleepsThrough n) (hpos : 1 ≤ k)
    (hle : k ≤ n) : m.SleepsThrough k := by
  obtain ⟨k, rfl⟩ := Nat.exists_eq_add_of_le' hpos
  obtain ⟨more, rfl⟩ := Nat.exists_eq_add_of_le hle
  exact Bus.heard_of_raises (m.raises_lookout k more) rfl h

theorem idled_idled (m : Machine) (n k : Nat) : (m.idled n).idled k = m.idled (n + k) := by
  have hcycles : m.cpu.cycles + n.toUInt64 + k.toUInt64 = m.cpu.cycles + (n + k).toUInt64 := by
    rw [UInt64.add_assoc]
    congr 1
    exact (UInt64.ofNat_add _ _).symm
  simp only [idled, hcycles, Bus.advanceScreen_advanceTimer, Bus.advanceTimer_advanceTimer,
    Bus.advanceScreen_advanceScreen]

/-- The bus that the next cycle finds behind `n` cycles of idling. -/
theorem lookout_idled (m : Machine) (n : Nat) : (m.idled n).lookout 1 = m.lookout (n + 1) := by
  simp only [idled, lookout, Bus.advanceScreen_advanceTimer, Bus.advanceTimer_advanceTimer,
    Nat.sub_self, Bus.advanceScreen_zero, Nat.add_sub_cancel]

theorem onlyTimePasses_idled (m : Machine) (n : Nat) : m.OnlyTimePasses (m.idled n) :=
  ⟨rfl, rfl, Screen.sameSettings_advance _ n,
    (Bus.raises_advanceTimer _ n).trans (Bus.raises_advanceScreen _ n)⟩

/-! ## One cycle -/

section

variable {m : Machine}

theorem pending_of_halted (h : m.cpu.halted = true) :
    (m.runTimer idleCycles).pending =
      Interrupt.nextPending (m.lookout 1).requests (m.lookout 1).enables := by
  have hlookout : m.lookout 1 = (m.runTimer idleCycles).bus := Bus.advanceScreen_zero _
  have hstill : (m.runTimer idleCycles).cpu.halted = true := h
  rw [hlookout, pending, hstill, Bool.or_true, if_pos rfl]

theorem executeOrIdle_of_halted (h : m.cpu.halted = true) : m.executeOrIdle = (m, idleCycles) := by
  rw [executeOrIdle, if_pos h]

/-- A cycle in which nothing is heard is a cycle of idling. -/
theorem step_of_unheard (h : m.cpu.halted = true) (hsleeps : m.SleepsThrough 1) :
    m.step = (m.idled 1, 1) := by
  have hpending : (m.runTimer idleCycles).pending = none := by
    rw [pending_of_halted h]
    exact Interrupt.nextPending_eq_none_iff.2 hsleeps
  simp only [step, stepCpu, executeOrIdle_of_halted h, serveInterrupts, hpending]
  rfl

/-- A request that is heard wakes the CPU. -/
theorem step_of_heard (h : m.cpu.halted = true) (hheard : ¬ m.SleepsThrough 1) :
    m.step.1.cpu.halted = false ∧
      (m.cpu.ime = false → m.step = ((m.idled 1).wake, 1)) := by
  have hpending : (m.runTimer idleCycles).pending ≠ none := by
    rw [pending_of_halted h]
    exact fun hnone => hheard (Interrupt.nextPending_eq_none_iff.1 hnone)
  obtain ⟨i, hi⟩ := Option.ne_none_iff_exists'.1 hpending
  have hime : (m.runTimer idleCycles).cpu.ime = m.cpu.ime := rfl
  simp only [step, stepCpu, executeOrIdle_of_halted h, serveInterrupts, hi, hime]
  cases m.cpu.ime with
  | false => exact ⟨rfl, fun _ => rfl⟩
  | true => exact ⟨rfl, fun hoff => absurd hoff (by decide)⟩

end

/-- A CPU that is halted after its step hears no request. -/
theorem heard_stepCpu {m : Machine} (h : m.stepCpu.1.cpu.halted = true) :
    m.stepCpu.1.bus.heard = 0 := by
  have hserved : ∀ m : Machine, m.serveInterrupts.1.cpu.halted = true →
      m.serveInterrupts.1.bus.heard = 0 := by
    intro m hhalted
    unfold serveInterrupts at hhalted ⊢
    cases hpending : m.pending with
    | some i =>
      -- whatever is pending wakes the CPU
      simp only [hpending] at hhalted
      split at hhalted <;> cases hhalted
    | none =>
      simp only [hpending] at hhalted ⊢
      rw [pending, hhalted, Bool.or_true, if_pos rfl] at hpending
      exact Interrupt.nextPending_eq_none_iff.1 hpending
  exact hserved (m.executeOrIdle.1.runTimer m.executeOrIdle.2) h

/-! ## Many cycles -/

theorem steps_succ (n : Nat) (m : Machine) : steps (n + 1) m = (steps n m).step.1 := by
  induction n generalizing m with
  | zero => rfl
  | succ n ih => exact ih m.step.1

/-- Cycles in which nothing is heard are cycles of idling. -/
theorem steps_of_unheard {m : Machine} (h : m.cpu.halted = true) {n : Nat}
    (hsleeps : m.SleepsThrough (n + 1)) : steps (n + 1) m = m.idled (n + 1) := by
  induction n with
  | zero => exact congrArg Prod.fst (step_of_unheard h hsleeps)
  | succ n ih =>
    have hbefore : m.SleepsThrough (n + 1) := hsleeps.mono (Nat.le_add_left 1 n) (Nat.le_succ _)
    have hnow : (m.idled (n + 1)).SleepsThrough 1 := by
      rw [SleepsThrough, lookout_idled]
      exact hsleeps
    rw [steps_succ, ih hbefore, step_of_unheard (m := m.idled (n + 1)) h hnow]
    exact m.idled_idled (n + 1) 1

/-- Behind such cycles the CPU is about to look at the next one. -/
theorem asleep_steps {m : Machine} (h : m.cpu.halted = true) {n : Nat}
    (hsleeps : ∀ k, 1 ≤ k → k ≤ n → m.SleepsThrough k) :
    (steps n m).cpu.halted = true ∧ (steps n m).cpu.ime = m.cpu.ime ∧
      ((steps n m).SleepsThrough 1 ↔ m.SleepsThrough (n + 1)) := by
  cases n with
  | zero => exact ⟨h, rfl, Iff.rfl⟩
  | succ n =>
    rw [steps_of_unheard h (hsleeps (n + 1) (Nat.le_add_left 1 n) (Nat.le_refl _)),
      SleepsThrough, lookout_idled]
    exact ⟨h, rfl, Iff.rfl⟩

/-- A halted CPU sleeps exactly until a request is heard.  A CPU that is halted after
its step hears none.  As long as it hears none, steps take a cycle each and come to
the same as time that passes at once; the first cycle in which it hears one wakes
it, and without serving interrupts nothing else happens in that cycle either. -/
theorem steps_of_halted :
    (∀ m : Machine, m.stepCpu.1.cpu.halted = true → m.stepCpu.1.bus.heard = 0) ∧
    ∀ m : Machine, m.cpu.halted = true → ∀ n, 1 ≤ n →
      (m.SleepsThrough n →
        steps n m = m.idled n ∧ (∀ k < n, (steps k m).step.2 = 1) ∧
          m.OnlyTimePasses (steps n m) ∧ (steps n m).cpu.halted = true) ∧
      (¬ m.SleepsThrough n →
        ∃ k < n, ¬ m.SleepsThrough (k + 1) ∧
          (∀ j, 1 ≤ j → j ≤ k → m.SleepsThrough j) ∧
          (∀ j ≤ k, (steps j m).cpu.halted = true) ∧ (steps (k + 1) m).cpu.halted = false ∧
          (m.cpu.ime = false →
            (steps k m).step.2 = 1 ∧ (steps k m).OnlyTimePasses (steps (k + 1) m))) := by
  refine ⟨fun m => heard_stepCpu, ?_⟩
  intro m h n hpos
  obtain ⟨n, rfl⟩ := Nat.exists_eq_add_of_le' hpos
  refine ⟨?_, ?_⟩
  · intro hsleeps
    rw [steps_of_unheard h hsleeps]
    refine ⟨rfl, ?_, m.onlyTimePasses_idled _, h⟩
    intro k hk
    have hbefore : ∀ j, 1 ≤ j → j ≤ k → m.SleepsThrough j :=
      fun j hj hle => hsleeps.mono hj (by omega)
    obtain ⟨hhalted, -, hnext⟩ := asleep_steps h hbefore
    rw [step_of_unheard hhalted (hnext.2 (hsleeps.mono (Nat.le_add_left 1 k) hk))]
  · intro hheard
    -- the first cycle in which a request is heard
    have hfirst : ∃ k, ¬ m.SleepsThrough (k + 1) := ⟨n, hheard⟩
    have hbefore : ∀ j, 1 ≤ j → j ≤ Nat.find hfirst → m.SleepsThrough j := by
      intro j hj hle
      obtain ⟨j, rfl⟩ := Nat.exists_eq_add_of_le' hj
      exact not_not.1 (Nat.find_min hfirst hle)
    obtain ⟨hhalted, hime, hnext⟩ := asleep_steps h hbefore
    obtain ⟨hwakes, hoff⟩ := step_of_heard hhalted fun hsleeps =>
      Nat.find_spec hfirst (hnext.1 hsleeps)
    refine ⟨Nat.find hfirst, Nat.lt_succ_of_le (Nat.find_min' hfirst hheard),
      Nat.find_spec hfirst, hbefore, ?_, ?_, ?_⟩
    · intro j hj
      exact (asleep_steps h fun i hi hle => hbefore i hi (Nat.le_trans hle hj)).1
    · rw [steps_succ]
      exact hwakes
    · intro himeOff
      rw [steps_succ, hoff (hime.trans himeOff)]
      exact ⟨rfl, rfl, rfl, (onlyTimePasses_idled _ 1).screen,
        (onlyTimePasses_idled _ 1).requests⟩

/-- A machine that sleeps while its timer is about to pass 255. -/
def counting : Machine :=
  { powerOn with
    cpu.halted := true
    bus := { Bus.powerOn with enables := 0x04, timer := { counter := 0xFE, control := 0x05 } } }

/-- It sleeps for seven cycles, and the eighth wakes it. -/
theorem steps_of_counting :
    counting.cpu.halted = true ∧ counting.stepCpu.1.bus.heard = 0 ∧
      steps 7 counting = counting.idled 7 ∧ (steps 8 counting).cpu.halted = false ∧
      (steps 7 counting).OnlyTimePasses (steps 8 counting) := by
  have hlookout : ∀ n, counting.lookout n = counting.bus.advanceTimer n := by
    intro n
    have hoff : counting.bus.screen.enabled = false := by decide
    exact Bus.advanceScreen_of_off (by rw [Bus.advanceTimer_eq]; exact hoff) _
  have hseven : counting.SleepsThrough 7 := by
    rw [SleepsThrough, hlookout]
    decide
  have height : ¬ counting.SleepsThrough 8 := by
    rw [SleepsThrough, hlookout]
    decide
  obtain ⟨hstep, hsteps⟩ := steps_of_halted
  obtain ⟨k, hk, hheard, -, -, hwakes, htime⟩ := (hsteps counting rfl 8 (by decide)).2 height
  have hlast : k = 7 := by
    by_contra hne
    exact hheard (hseven.mono (Nat.le_add_left 1 k) (by omega))
  subst hlast
  exact ⟨rfl, hstep counting rfl, ((hsteps counting rfl 7 (by decide)).1 hseven).1, hwakes,
    (htime rfl).2⟩

end Machine
end Handheld
