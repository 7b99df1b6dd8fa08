import Handheld.Proofs.Checked.Bus
import Handheld.Proofs.Screen.Dots

/-!
# Splitting the time of the timer

How the time that passes is cut makes no difference to the timer: both of its
counters keep the cycles that have not made up a step, and the counter passes 255
in one of the parts if it does in the whole.

* The timer.  `countUp_add` splits the steps of the counter, and `advance_add` the
  cycles that pass.
* The bus.  `advanceTimer_advanceTimer` says the same of the timer on the bus, and
  `advanceScreen_advanceTimer` that timer and screen do not see each other's time.
-/

namespace Handheld

/-! ## The timer -/

namespace Timer

theorem countUp_add (modulo : UInt8) (m n : Nat) (counter : UInt8) (passed : Bool) :
    countUp modulo (m + n) counter passed =
      countUp modulo n (countUp modulo m counter passed).1
        (countUp modulo m counter passed).2 := by
  induction m generalizing counter passed with
  | zero => rw [Nat.zero_add, countUp]
  | succ m ih =>
    rw [Nat.add_right_comm, countUp, countUp]
    by_cases hlast : counter = 255
    · rw [if_pos hlast, if_pos hlast, ih]
    · rw [if_neg hlast, if_neg hlast, ih]

/-- What was passed before is remembered, and has no say in the steps. -/
theorem countUp_passed (modulo : UInt8) (steps : Nat) (counter : UInt8) (passed : Bool) :
    countUp modulo steps counter passed =
      ((countUp modulo steps counter false).1,
        passed || (countUp modulo steps counter false).2) := by
  induction steps generalizing counter passed with
  | zero => rw [countUp, countUp, Bool.or_false]
  | succ steps ih =>
    rw [countUp, countUp]
    by_cases hlast : counter = 255
    · rw [if_pos hlast, if_pos hlast, ih modulo true]
      simp only [Bool.true_or, Bool.or_true]
    · rw [if_neg hlast, if_neg hlast, ih]

theorem advanceDivider_add (t : Timer) (m n : Nat) :
    t.advanceDivider (m + n) = (t.advanceDivider m).advanceDivider n := by
  have hsteps : (t.dividerCycles + (m + n)) / 64 =
      (t.dividerCycles + m) / 64 + ((t.dividerCycles + m) % 64 + n) / 64 := by omega
  have hrest : (t.dividerCycles + (m + n)) % 64 = ((t.dividerCycles + m) % 64 + n) % 64 := by
    omega
  simp only [advanceDivider, dividerPeriod, hsteps, hrest, Nat.toUInt8, UInt8.ofNat_add,
    UInt8.add_assoc]

theorem advanceCounter_of_disabled {t : Timer} (h : t.enabled = false) (cycles : Nat) :
    t.advanceCounter cycles = (t, false) := by
  rw [advanceCounter, if_neg (by simp [h])]

theorem advanceCounter_of_enabled {t : Timer} (h : t.enabled = true) (cycles : Nat) :
    t.advanceCounter cycles =
      ({ t with
          counter := (countUp t.modulo ((t.counterCycles + cycles) / t.period) t.counter false).1
          counterCycles := (t.counterCycles + cycles) % t.period },
        (countUp t.modulo ((t.counterCycles + cycles) / t.period) t.counter false).2) := by
  rw [advanceCounter, if_pos h]

theorem advanceCounter_add (t : Timer) (m n : Nat) :
    t.advanceCounter (m + n) =
      (((t.advanceCounter m).1.advanceCounter n).1,
        (t.advanceCounter m).2 || ((t.advanceCounter m).1.advanceCounter n).2) := by
  cases henabled : t.enabled with
  | false => simp only [advanceCounter_of_disabled henabled, Bool.or_false]
  | true =>
    have hperiod := t.period_bounds.1
    -- a rest that exceeds the period, because the period was shortened, goes into the
    -- first part
    have hsteps : (t.counterCycles + (m + n)) / t.period = (t.counterCycles + m) / t.period +
        ((t.counterCycles + m) % t.period + n) / t.period := by
      have hsplit := Nat.div_add_mod (t.counterCycles + m) t.period
      rw [← Nat.mul_add_div hperiod, ← Nat.add_assoc (t.period * _), hsplit, Nat.add_assoc]
    have hrest : (t.counterCycles + (m + n)) % t.period =
        ((t.counterCycles + m) % t.period + n) % t.period := by
      rw [Nat.mod_add_mod, Nat.add_assoc]
    have hstill : (t.advanceCounter m).1.enabled = true := by
      rw [advanceCounter_of_enabled henabled]
      exact henabled
    rw [advanceCounter_of_enabled henabled (m + n), hsteps, hrest, countUp_add, countUp_passed,
      advanceCounter_of_enabled hstill, advanceCounter_of_enabled henabled m]
    rfl

/-- The divider runs beside the counter. -/
theorem advanceDivider_advanceCounter (t : Timer) (m n : Nat) :
    (t.advanceDivider m).advanceCounter n =
      ((t.advanceCounter n).1.advanceDivider m, (t.advanceCounter n).2) := by
  unfold advanceCounter
  have henabled : (t.advanceDivider m).enabled = t.enabled := rfl
  rw [henabled]
  split <;> rfl

/-- How the time is cut makes no difference to the timer. -/
theorem advance_add (t : Timer) (m n : Nat) :
    t.advance (m + n) =
      (((t.advance m).1.advance n).1, (t.advance m).2 || ((t.advance m).1.advance n).2) := by
  simp only [advance, advanceDivider_advanceCounter, advanceDivider_add, advanceCounter_add]

end Timer

/-! ## The bus -/

namespace Bus

variable (b : Bus)

theorem advanceTimer_eq (cycles : Nat) :
    b.advanceTimer cycles =
      { b with
        timer := (b.timer.advance cycles).1
        requests := b.requests |||
          (if (b.timer.advance cycles).2 then Interrupt.timer.mask else 0) } := by
  cases hpassed : (b.timer.advance cycles).2 with
  | false => simp only [advanceTimer, hpassed, Bool.false_eq_true, if_false, UInt8.or_zero]
  | true => simp only [advanceTimer, hpassed, if_true]; rfl

/-- How the time is cut makes no difference to the timer on the bus. -/
theorem advanceTimer_advanceTimer (m n : Nat) :
    (b.advanceTimer m).advanceTimer n = b.advanceTimer (m + n) := by
  simp only [advanceTimer_eq, b.timer.advance_add]
  cases (b.timer.advance m).2 <;> cases ((b.timer.advance m).1.advance n).2 <;>
    simp only [Bool.or_true, Bool.or_false, Bool.false_eq_true, if_true, if_false, UInt8.or_zero,
      UInt8.or_assoc, UInt8.or_self]

/-- Timer and screen do not see each other's time. -/
theorem advanceScreen_advanceTimer (m n : Nat) :
    (b.advanceScreen m).advanceTimer n = (b.advanceTimer n).advanceScreen m := by
  simp only [advanceTimer_eq, advanceScreen, UInt8.or_assoc]
  rw [UInt8.or_comm (b.screen.advance m).2]

end Bus
end Handheld
