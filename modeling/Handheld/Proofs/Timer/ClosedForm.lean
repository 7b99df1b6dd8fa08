import Handheld.Proofs.Timer.Splitting
import Mathlib.Algebra.Ring.Nat

/-!
# The timer in closed form

What a number of cycles makes of the timer is a matter of two divisions, one for
the divider and one for the counter.  The counter that has passed 255 goes round
between its modulo and 255 from then on.

There are three groups.

* The steps of the counter.  `countUp_within` and `countUp_beyond` say where it
  stands after a number of steps, short of passing 255 and behind it.
* The timer.  `ticks` are the steps that cycles make up, and `advance_eq` says what
  they come to.
* The bus.  `TimedFor` is the closed form, `foldl_advanceTimer` says that only the
  total of the cycles matters, and `timer_after_cycles` is the result.
-/

namespace Handheld

namespace Timer

/-! ## The steps of the counter -/

theorem toNat_lt_of_not_last {counter : UInt8} (h : counter ≠ 255) : counter.toNat < 255 := by
  have hlt := counter.toNat_lt
  have hne : counter.toNat ≠ 255 := fun heq => h (UInt8.toNat_inj.1 heq)
  omega

/-- A counter that does not pass 255 goes up by its steps. -/
theorem countUp_within (modulo : UInt8) {steps : Nat} {counter : UInt8}
    (h : steps < 256 - counter.toNat) :
    (countUp modulo steps counter false).1.toNat = counter.toNat + steps ∧
      (countUp modulo steps counter false).2 = false := by
  induction steps generalizing counter with
  | zero => exact ⟨rfl, rfl⟩
  | succ steps ih =>
    have hnotLast : counter ≠ 255 := by
      rintro rfl
      simp only [UInt8.reduceToNat] at h
      omega
    have hnext := toNat_add_one (toNat_lt_of_not_last hnotLast)
    have hleft : steps < 256 - (counter + 1).toNat := by omega
    obtain ⟨hcounter, hpassed⟩ := ih hleft
    rw [countUp, if_neg hnotLast]
    exact ⟨by omega, hpassed⟩

/-- A counter that has passed 255 goes round between its modulo and 255. -/
theorem countUp_beyond (modulo : UInt8) {steps : Nat} {counter : UInt8}
    (h : 256 - counter.toNat ≤ steps) :
    (countUp modulo steps counter false).1.toNat =
        modulo.toNat + (steps - (256 - counter.toNat)) % (256 - modulo.toNat) ∧
      (countUp modulo steps counter false).2 = true := by
  induction steps generalizing counter with
  | zero =>
    have hlt := counter.toNat_lt
    omega
  | succ steps ih =>
    rw [countUp]
    by_cases hlast : counter = 255
    · -- the counter restarts, and the steps that are left begin at the modulo
      subst hlast
      have hleft : steps + 1 - (256 - (255 : UInt8).toNat) = steps := by
        simp only [UInt8.reduceToNat, Nat.add_sub_cancel]
      rw [if_pos rfl, countUp_passed, hleft, Bool.true_or]
      refine ⟨?_, rfl⟩
      by_cases hagain : 256 - modulo.toNat ≤ steps
      · rw [(ih hagain).1, Nat.mod_eq_sub_mod hagain]
      · rw [(countUp_within modulo (by omega)).1, Nat.mod_eq_of_lt (by omega)]
    · have hnext := toNat_add_one (toNat_lt_of_not_last hlast)
      have hleft : steps + 1 - (256 - counter.toNat) = steps - (256 - (counter + 1).toNat) := by
        have hlt := (counter + 1).toNat_lt
        omega
      rw [if_neg hlast, hleft]
      exact ih (by omega)

/-! ## The timer -/

/-- The steps that the counter takes in a number of cycles. -/
def ticks (t : Timer) (cycles : Nat) : Nat :=
  if t.enabled then (t.counterCycles + cycles) / t.period else 0

theorem ticks_of_enabled {t : Timer} (h : t.enabled = true) (cycles : Nat) :
    t.ticks cycles = (t.counterCycles + cycles) / t.period := if_pos h

/-- The timer after a number of cycles: the divider, and the steps of the counter. -/
theorem advance_eq (t : Timer) (cycles : Nat) :
    t.advance cycles =
      ({ t.advanceDivider cycles with
          counter := (countUp t.modulo (t.ticks cycles) t.counter false).1
          counterCycles :=
            if t.enabled then (t.counterCycles + cycles) % t.period else t.counterCycles },
        (countUp t.modulo (t.ticks cycles) t.counter false).2) := by
  have hsame : (t.advanceDivider cycles).enabled = t.enabled := rfl
  unfold advance ticks
  cases henabled : t.enabled with
  | false => rw [advanceCounter_of_disabled (hsame.trans henabled)]; rfl
  | true => rw [advanceCounter_of_enabled (hsame.trans henabled)]; rfl

theorem divider_advanceDivider (t : Timer) (cycles : Nat) :
    (t.advanceDivider cycles).divider.toNat =
      (t.divider.toNat + (t.dividerCycles + cycles) / 64) % 256 := by
  have hsteps : (t.advanceDivider cycles).divider =
      t.divider + ((t.dividerCycles + cycles) / 64).toUInt8 := rfl
  rw [hsteps, UInt8.toNat_add]
  exact Nat.add_mod_mod _ _ _

end Timer

/-! ## The bus -/

namespace Bus

/-- A bus after `total` cycles of its timer, in closed form. -/
structure TimedFor (b : Bus) (total : Nat) (after : Bus) : Prop where
  /-- Nothing but the timer and the request register changes. -/
  bus : after = { b with timer := after.timer, requests := after.requests }
  settings : after.timer.modulo = b.timer.modulo ∧ after.timer.control = b.timer.control
  divider : after.timer.divider.toNat =
    (b.timer.divider.toNat + (b.timer.dividerCycles + total) / 64) % 256
  dividerCycles : after.timer.dividerCycles = (b.timer.dividerCycles + total) % 64
  stopped : b.timer.enabled = false →
    after.timer.counter = b.timer.counter ∧
    after.timer.counterCycles = b.timer.counterCycles ∧ after.requests = b.requests
  counterCycles : b.timer.enabled = true →
    after.timer.counterCycles = (b.timer.counterCycles + total) % b.timer.period
  /-- The steps do not take the counter past 255. -/
  within : b.timer.enabled = true →
    (b.timer.counterCycles + total) / b.timer.period < 256 - b.timer.counter.toNat →
    after.timer.counter.toNat =
      b.timer.counter.toNat + (b.timer.counterCycles + total) / b.timer.period ∧
    after.requests = b.requests
  /-- The counter passes 255, perhaps many times, and requests its interrupt. -/
  beyond : b.timer.enabled = true →
    256 - b.timer.counter.toNat ≤ (b.timer.counterCycles + total) / b.timer.period →
    after.timer.counter.toNat = b.timer.modulo.toNat +
      ((b.timer.counterCycles + total) / b.timer.period - (256 - b.timer.counter.toNat)) %
        (256 - b.timer.modulo.toNat) ∧
    after.requests = b.requests ||| 0x04

variable (b : Bus)

theorem timedFor_advanceTimer (total : Nat) : b.TimedFor total (b.advanceTimer total) := by
  have htimer : (b.advanceTimer total).timer = (b.timer.advance total).1 := rfl
  have hrequests : (b.advanceTimer total).requests =
      b.requests ||| (if (b.timer.advance total).2 then 0x04 else 0) := by
    rw [advanceTimer_eq]
    rfl
  rw [b.timer.advance_eq] at htimer hrequests
  refine ⟨rfl, ?_, ?_, ?_, ?_, ?_, ?_, ?_⟩
  · rw [htimer]
    exact ⟨rfl, rfl⟩
  · rw [htimer]
    exact b.timer.divider_advanceDivider total
  · rw [htimer]
    rfl
  · intro hoff
    have hticks : b.timer.ticks total = 0 := by simp [Timer.ticks, hoff]
    rw [htimer, hrequests, hticks]
    exact ⟨rfl, by simp [hoff], UInt8.or_zero⟩
  · intro hon
    rw [htimer]
    exact if_pos hon
  · intro hon hwithin
    rw [← Timer.ticks_of_enabled hon] at hwithin ⊢
    obtain ⟨hcounter, hpassed⟩ := Timer.countUp_within b.timer.modulo hwithin
    rw [htimer, hrequests, hpassed]
    exact ⟨hcounter, UInt8.or_zero⟩
  · intro hon hbeyond
    rw [← Timer.ticks_of_enabled hon] at hbeyond ⊢
    obtain ⟨hcounter, hpassed⟩ := Timer.countUp_beyond b.timer.modulo hbeyond
    rw [htimer, hrequests, hpassed]
    exact ⟨hcounter, rfl⟩

/-- However the cycles are cut into parts, only their total matters. -/
theorem foldl_advanceTimer {counts : List Nat} (h : counts ≠ []) :
    counts.foldl advanceTimer b = b.advanceTimer counts.sum := by
  induction counts generalizing b with
  | nil => exact absurd rfl h
  | cons first counts ih =>
    rw [List.foldl_cons, List.sum_cons]
    cases counts with
    | nil => rfl
    | cons second counts =>
      rw [ih _ (List.cons_ne_nil _ _), advanceTimer_advanceTimer]

/-- No sum that the timer forms on the way exceeds 32 bits. -/
def TimesFit : Bus → List Nat → Prop
  | _, [] => True
  | b, cycles :: counts => b.timer.Fits cycles ∧ (b.advanceTimer cycles).TimesFit counts

theorem foldlM_advanceBusTimer {counts : List Nat} (h : b.TimesFit counts) :
    counts.foldlM Checked.advanceBusTimer b = .ok (counts.foldl advanceTimer b) := by
  induction counts generalizing b with
  | nil => rfl
  | cons cycles counts ih =>
    obtain ⟨hfits, hlater⟩ := h
    rw [List.foldlM_cons, Checked.advanceBusTimer_of_fits hfits, Checked.ok_bind, List.foldl_cons]
    exact ih _ hlater

/-- The timer in closed form.  Cycles that pass in any number of parts come to what
their total comes to at once, and that is told by two divisions; numbers of 32 bits
hold all that is added up on the way, if the sums do not exceed them. -/
theorem timer_after_cycles {counts : List Nat} (h : counts ≠ []) :
    b.TimedFor counts.sum (counts.foldl advanceTimer b) ∧
    counts.foldl advanceTimer b = b.advanceTimer counts.sum ∧
    (b.TimesFit counts →
      counts.foldlM Checked.advanceBusTimer b = .ok (counts.foldl advanceTimer b)) := by
  have htotal := b.foldl_advanceTimer h
  refine ⟨?_, htotal, b.foldlM_advanceBusTimer⟩
  rw [htotal]
  exact b.timedFor_advanceTimer counts.sum

/-- A bus of which the timer is about to pass 255, on a short round from 253. -/
def aboutToPass : Bus :=
  { powerOn with
    requests := 0x01
    timer := { divider := 0xFF, counter := 0xFE, modulo := 0xFD, control := 0x05,
               dividerCycles := 63, counterCycles := 3 } }

/-- In 48 cycles it takes 12 steps, passes 255 with the second of them, and goes
round three times and one step behind it. -/
theorem timer_after_three_parts :
    [1, 24, 23] ≠ [] ∧
    ([1, 24, 23].foldl advanceTimer aboutToPass).timer.counter.toNat = 0xFD + 10 % 3 ∧
    ([1, 24, 23].foldl advanceTimer aboutToPass).requests = 0x05 ∧
    ([1, 24, 23].foldl advanceTimer aboutToPass).timer.divider.toNat = (0xFF + 1) % 256 ∧
    [1, 24, 23].foldl advanceTimer aboutToPass = aboutToPass.advanceTimer 48 ∧
    [1, 24, 23].foldlM Checked.advanceBusTimer aboutToPass =
      .ok (aboutToPass.advanceTimer 48) := by
  have hparts : [1, 24, 23] ≠ [] := by decide
  obtain ⟨hclosed, htotal, hfits⟩ := aboutToPass.timer_after_cycles hparts
  have hsum : [1, 24, 23].sum = 48 := rfl
  rw [hsum] at hclosed htotal
  have hrun := hfits ⟨⟨by decide, fun _ => by decide⟩, ⟨by decide, fun _ => by decide⟩,
    ⟨by decide, fun _ => by decide⟩, trivial⟩
  obtain ⟨hcounter, hrequests⟩ := hclosed.beyond rfl (by decide)
  exact ⟨hparts, hcounter, hrequests, hclosed.divider, htotal, hrun.trans (by rw [htotal])⟩

end Bus
end Handheld
