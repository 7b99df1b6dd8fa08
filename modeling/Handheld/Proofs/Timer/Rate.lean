import Handheld.Proofs.Timer.ClosedForm

/-!
# The rate of the counter

The counter keeps the cycles that have not made up a step.  A write to the control
register keeps them as well, also when it selects a shorter period; the cycles may
then make up many steps at once.  As long as the period has not been shortened since
cycles were counted last, fewer than a period of them are kept, and so the counter
runs no faster than its clock.

There are three groups.

* Histories.  `TimerOp` is what can be done to a timer, and `lastPeriod?` the period
  in force when cycles were counted last.
* What is kept.  `counterCycles_run_of_none` and `counterCycles_run_lt` follow the
  kept cycles through a history, and `ticks_le` bounds the steps by them.
* The rate.  `ticks_exceed_rate` is a history behind which the counter runs too fast,
  and `ticks_of_history` is the result.
-/

namespace Handheld

/-! ## Histories -/

/-- An operation on the timer. -/
inductive TimerOp where
  | read (address : UInt16)
  | write (address : UInt16) (value : UInt8)
  | advance (cycles : Nat)
  deriving DecidableEq, Repr

namespace Timer

/-- The timer after an operation.  A read leaves it as it is. -/
def apply (t : Timer) : TimerOp → Timer
  | .read _ => t
  | .write address value => t.writeAt address value
  | .advance cycles => (t.advance cycles).1

/-- The timer after operations, one after another. -/
def run (t : Timer) (ops : List TimerOp) : Timer :=
  ops.foldl apply t

/-- Whether an operation counts cycles towards a step of the counter. -/
def counts (t : Timer) : TimerOp → Bool
  | .advance _ => t.enabled
  | _ => false

/-- The period of the last operation that counted cycles, if there was one. -/
def lastPeriod? : Timer → List TimerOp → Option Nat
  | _, [] => none
  | t, op :: ops =>
    (lastPeriod? (t.apply op) ops).or (if t.counts op then some t.period else none)

/-! ## What is kept -/

variable {t : Timer}

theorem counterCycles_writeAt (address : UInt16) (value : UInt8) :
    (t.writeAt address value).counterCycles = t.counterCycles := by
  unfold writeAt
  split
  · rename_i r _
    cases r <;> rfl
  · rfl

theorem counterCycles_advance (cycles : Nat) :
    (t.advance cycles).1.counterCycles =
      if t.enabled then (t.counterCycles + cycles) % t.period else t.counterCycles := by
  rw [advance_eq]

theorem period_advance (cycles : Nat) : (t.advance cycles).1.period = t.period := by
  rw [advance_eq]
  rfl

/-- Counting leaves less than a period. -/
theorem counterCycles_advance_lt (h : t.enabled = true) (cycles : Nat) :
    (t.advance cycles).1.counterCycles < t.period := by
  rw [counterCycles_advance, if_pos h]
  exact Nat.mod_lt _ t.period_bounds.1

theorem counterCycles_apply {op : TimerOp} (h : t.counts op = false) :
    (t.apply op).counterCycles = t.counterCycles := by
  cases op with
  | read address => rfl
  | write address value => exact counterCycles_writeAt address value
  | advance cycles =>
    have hoff : t.enabled = false := h
    rw [apply, counterCycles_advance, hoff]
    rfl

theorem counterCycles_apply_lt {op : TimerOp} (h : t.counts op = true) :
    (t.apply op).counterCycles < t.period := by
  cases op with
  | read address | write address value => cases h
  | advance cycles => exact counterCycles_advance_lt h cycles

/-- Where nothing was counted, the cycles are as before. -/
theorem counterCycles_run_of_none {ops : List TimerOp} (h : lastPeriod? t ops = none) :
    (t.run ops).counterCycles = t.counterCycles := by
  induction ops generalizing t with
  | nil => rfl
  | cons op ops ih =>
    obtain ⟨hlater, hnow⟩ := Option.or_eq_none_iff.1 h
    have hquiet : t.counts op = false := by
      cases hcounts : t.counts op with
      | false => rfl
      | true =>
        rw [hcounts] at hnow
        cases hnow
    exact (ih hlater).trans (counterCycles_apply hquiet)

/-- Less than the period in which cycles were counted last is kept. -/
theorem counterCycles_run_lt {ops : List TimerOp} {period : Nat}
    (h : lastPeriod? t ops = some period) :
    (t.run ops).counterCycles < period ∧ period ≤ 256 := by
  induction ops generalizing t with
  | nil => cases h
  | cons op ops ih =>
    rcases Option.or_eq_some_iff.1 h with hlater | ⟨hnone, hnow⟩
    · exact ih hlater
    · -- this operation is the last that counts
      have hkept : (t.run (op :: ops)).counterCycles = (t.apply op).counterCycles :=
        counterCycles_run_of_none hnone
      cases hcounts : t.counts op with
      | false =>
        rw [hcounts] at hnow
        cases hnow
      | true =>
        rw [hcounts] at hnow
        obtain rfl : t.period = period := Option.some.inj hnow
        rw [hkept]
        exact ⟨counterCycles_apply_lt hcounts, t.period_bounds.2⟩

/-- What is kept bounds the steps that more cycles can make up. -/
theorem ticks_le {bound : Nat} (h : t.counterCycles < bound) (cycles : Nat) :
    t.ticks cycles ≤ (cycles + (bound - 1)) / t.period := by
  unfold ticks
  split
  · exact Nat.div_le_div_right (by omega)
  · exact Nat.zero_le _

/-! ## The rate -/

/-- The clock is made 64 times as fast just before a step. -/
def quickened : List TimerOp :=
  [.write 0xFF07 0x04, .advance 255, .write 0xFF07 0x05]

/-- Behind it 255 cycles are kept in a period of four, and the next cycle takes the
counter 64 steps on, where its clock allows one. -/
theorem ticks_exceed_rate :
    (¬ ∀ ops, (run {} ops).counterCycles < (run {} ops).period) ∧
    (¬ ∀ ops cycles, (run {} ops).ticks cycles ≤
      (cycles + ((run {} ops).period - 1)) / (run {} ops).period) ∧
    (run {} quickened).period = 4 ∧ (run {} quickened).counterCycles = 255 ∧
    (run {} quickened).counter = 0 ∧ ((run {} quickened).advance 1).1.counter = 64 := by
  refine ⟨fun h => ?_, fun h => ?_, rfl, rfl, rfl, by decide⟩
  · exact absurd (h quickened) (by decide)
  · exact absurd (h quickened 1) (by decide)

/-- How many steps the counter takes behind any history of the timer.  Writes keep
the cycles that were counted.  They are fewer than the period in which they were
counted, so that the counter runs no faster than its clock unless a shorter period
was selected since then; even then, fewer than 256 cycles are kept, and counting goes
on with less than a period again. -/
theorem ticks_of_history (ops : List TimerOp) :
    let t := run {} ops
    (∀ cycles, t.advance cycles =
      ({ t.advanceDivider cycles with
          counter := (countUp t.modulo (t.ticks cycles) t.counter false).1
          counterCycles :=
            if t.enabled then (t.counterCycles + cycles) % t.period else t.counterCycles },
        (countUp t.modulo (t.ticks cycles) t.counter false).2)) ∧
    (∀ address value, (t.writeAt address value).counterCycles = t.counterCycles) ∧
    (lastPeriod? {} ops = none → t.counterCycles = 0) ∧
    (∀ period, lastPeriod? {} ops = some period → t.counterCycles < period) ∧
    ((∀ period, lastPeriod? {} ops = some period → period ≤ t.period) →
      t.counterCycles < t.period ∧
      ∀ cycles, t.ticks cycles ≤ (cycles + (t.period - 1)) / t.period) ∧
    (t.counterCycles < 256 ∧ ∀ cycles, t.ticks cycles ≤ (cycles + 255) / t.period) ∧
    (t.enabled = true →
      ∀ cycles, (t.advance cycles).1.counterCycles < (t.advance cycles).1.period) := by
  intro t
  have hbounds := t.period_bounds
  have hkept : ∀ bound, (∀ period, lastPeriod? {} ops = some period → period ≤ bound) →
      0 < bound → t.counterCycles < bound := by
    intro bound hle hpos
    cases hlast : lastPeriod? {} ops with
    | none =>
      have hnone : t.counterCycles = 0 := counterCycles_run_of_none hlast
      omega
    | some period =>
      have hlt : t.counterCycles < period := (counterCycles_run_lt hlast).1
      have hperiod := hle period hlast
      omega
  have hlt256 : t.counterCycles < 256 :=
    hkept 256 (fun _ hlast => (counterCycles_run_lt hlast).2) (by decide)
  refine ⟨t.advance_eq, counterCycles_writeAt, counterCycles_run_of_none,
    fun _ hlast => (counterCycles_run_lt hlast).1, ?_, ⟨hlt256, ticks_le hlt256⟩, ?_⟩
  · intro hle
    have hlt := hkept t.period hle hbounds.1
    exact ⟨hlt, ticks_le hlt⟩
  · intro hon cycles
    rw [period_advance]
    exact counterCycles_advance_lt hon cycles

/-- The clock is made four times as slow when three of four cycles are counted. -/
def slowed : List TimerOp :=
  [.write 0xFF07 0x05, .advance 7, .read 0xFF05, .write 0xFF07 0x06]

/-- Behind it, 29 cycles make up two steps of sixteen cycles, and no more. -/
theorem ticks_of_slowed :
    lastPeriod? {} slowed = some 4 ∧ (run {} slowed).period = 16 ∧
    (run {} slowed).counterCycles < 16 ∧ (run {} slowed).ticks 29 ≤ 2 ∧
    ((run {} slowed).advance 29).1.counter = (countUp 0 ((run {} slowed).ticks 29) 1 false).1 := by
  obtain ⟨hadvance, -, -, -, hrate, -, -⟩ := ticks_of_history slowed
  have hlast : lastPeriod? {} slowed = some 4 := by decide
  have hlonger : ∀ period,
      lastPeriod? {} slowed = some period → period ≤ (run {} slowed).period := by
    intro period hperiod
    rw [hlast] at hperiod
    obtain rfl := Option.some.inj hperiod
    decide
  obtain ⟨hkept, hticks⟩ := hrate hlonger
  refine ⟨hlast, rfl, hkept, hticks 29, ?_⟩
  rw [hadvance 29]
  rfl

end Timer
end Handheld
