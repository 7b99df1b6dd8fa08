import Handheld.Proofs.Bus.Requests
import Handheld.Proofs.Screen.Step

/-!
# What the counters of the screen can be

A screen never waits longer for its next change of mode than the mode lasts, nor has
it spent a whole line of the vertical blank in one line.  And it requests only the
interrupts that there are.

There are two groups.

* The counters.  `InBounds` says what they can be; a change of mode sets them anew, and
  whatever passes in between only brings the change nearer.
* The requests.  `Interrupt.Wired` says that the bits of a request register are those of
  interrupts, and every function that answers requests answers such bits.
-/

namespace Handheld

namespace Screen

/-! ## The counters -/

/-- The values that the counters of a screen can have. -/
structure InBounds (s : Screen) : Prop where
  dotsLeft_pos : 1 ≤ s.dotsLeft
  dotsLeft_le : s.dotsLeft ≤ s.mode.dots
  vblankDots : s.vblankDots < 456

/-- A mode that was just entered for its whole length. -/
theorem inBounds_of_entered {s : Screen} (hleft : s.dotsLeft = s.mode.dots)
    (hvblank : s.vblankDots < 456) : s.InBounds := by
  have hpos : 1 ≤ s.mode.dots := by cases s.mode <;> decide
  exact ⟨hleft ▸ hpos, Nat.le_of_eq hleft, hvblank⟩

/-- A change of mode enters the next mode for its whole length. -/
theorem inBounds_changeMode {s : Screen} (h : s.vblankDots < 456) : s.changeMode.1.InBounds := by
  have hzero : 0 < 456 := by decide
  cases hm : s.mode with
  | oamScan =>
    rw [changeMode_oamScan hm]
    exact inBounds_of_entered rfl h
  | draw =>
    rw [changeMode_draw hm]
    exact inBounds_of_entered rfl h
  | hblank =>
    rw [changeMode_hblank hm]
    split
    · exact inBounds_of_entered rfl hzero
    · exact inBounds_of_entered rfl h
  | vblank =>
    rw [changeMode_vblank hm]
    exact inBounds_of_entered rfl hzero

theorem vblankDots_passDots {s : Screen} (h : s.vblankDots < 456) (dots : Nat) :
    (s.passDots dots).1.vblankDots < 456 := by
  by_cases hm : s.mode = .vblank
  · rw [passDots_of_vblank hm]
    exact Nat.mod_lt _ (by decide)
  · rw [passDots_of_ne hm]
    exact h

namespace InBounds

variable {s : Screen}

theorem passWithin (h : s.InBounds) (dots : Nat) : (s.passWithin dots).1.InBounds := by
  have hdots := vblankDots_passDots h.vblankDots dots
  have hmode := s.mode_passDots dots
  have hleft := s.dotsLeft_passDots dots
  unfold Screen.passWithin
  by_cases hend : (s.passDots dots).1.dotsLeft = 0
  · simp only [hend, if_true]
    exact inBounds_changeMode hdots
  · simp only [hend, if_false]
    refine ⟨Nat.pos_of_ne_zero hend, ?_, hdots⟩
    rw [hmode, hleft]
    exact Nat.le_trans (Nat.sub_le _ _) h.dotsLeft_le

theorem advance (h : s.InBounds) (cycles : Nat) : (s.advance cycles).1.InBounds := by
  unfold Screen.advance
  split
  · exact passAll_induction (P := fun _ s => s.InBounds)
      (fun _ dots _ _ _ hs => hs.passWithin dots) _ 0 s 0 h
  · exact h

/-- The counters alone decide. -/
theorem of_sameCourse {t : Screen} (h : s.InBounds) (hsame : s.SameCourse t) : t.InBounds := by
  have hmode : t.mode = s.mode := congrArg Position.mode hsame.position
  have hleft : t.dotsLeft = s.dotsLeft := congrArg Position.dotsLeft hsame.position
  exact ⟨hleft ▸ h.dotsLeft_pos, by rw [hleft, hmode]; exact h.dotsLeft_le,
    hsame.vblankDots ▸ h.vblankDots⟩

/-- The switch leads to the start of a frame, or to the place where a screen stands
still. -/
theorem switch (h : s.InBounds) {value : UInt8} (htoggles : s.toggles value = true) :
    (s.writeControl value).1.InBounds := by
  have hwait : 1 ≤ Mode.oamScan.dots ∧ Mode.oamScan.dots ≤ Mode.hblank.dots := by decide
  rcases toggles_eq_true_iff.1 htoggles with ⟨hoff, hbit⟩ | ⟨hon, hbit⟩
  · rw [writeControl_on hoff hbit]
    exact inBounds_of_entered rfl (Nat.zero_lt_succ 455)
  · rw [writeControl_off hon hbit]
    exact ⟨hwait.1, hwait.2, h.vblankDots⟩

theorem apply (h : s.InBounds) (op : ScreenOp) : (s.apply op).InBounds := by
  rcases s.apply_cases op with ⟨cycles, rfl⟩ | ⟨value, rfl, htoggles⟩ | ⟨-, hsame⟩
  · exact h.advance cycles
  · rw [apply_writeControl]
    exact h.switch htoggles
  · exact h.of_sameCourse hsame

end InBounds

/-- The counters of every screen are within their bounds. -/
theorem Reachable.inBounds {s : Screen} (h : s.Reachable) : s.InBounds := by
  induction h with
  | powerOn => exact ⟨by decide, by decide, by decide⟩
  | postBoot => exact ⟨by decide, Nat.le_refl 80, by decide⟩
  | apply op _ ih => exact ih.apply op

end Screen

/-! ## The requests -/

namespace Interrupt

/-- All bits that are set belong to interrupts. -/
def Wired (bits : UInt8) : Prop :=
  bits &&& 0xE0 = 0

theorem wired_zero : Wired 0 := rfl

theorem Wired.or {bits more : UInt8} (h : Wired bits) (h' : Wired more) :
    Wired (bits ||| more) := by
  rw [Wired, or_and_mask, h, h']
  rfl

theorem Wired.and {bits : UInt8} (h : Wired bits) (mask : UInt8) : Wired (bits &&& mask) := by
  rw [Wired, UInt8.and_assoc, UInt8.and_comm mask, ← UInt8.and_assoc, h, UInt8.zero_and]

/-- What is written to a request register loses the bits that belong to no interrupt. -/
theorem wired_and_wired (value : UInt8) : Wired (value &&& wired) := by
  have hnone : wired &&& 0xE0 = 0 := rfl
  rw [Wired, UInt8.and_assoc, hnone, UInt8.and_zero]

theorem wired_mask (i : Interrupt) : Wired i.mask := by
  cases i <;> rfl

/-- A request that is made under a condition. -/
theorem wired_ite (p : Prop) [Decidable p] (i : Interrupt) : Wired (if p then i.mask else 0) := by
  split
  · exact i.wired_mask
  · exact wired_zero

end Interrupt

namespace Screen

open Interrupt (Wired)

theorem wired_compareLine (s : Screen) : Wired s.compareLine.2 :=
  Interrupt.wired_ite _ .stat

theorem wired_modeRequest (s : Screen) (mode : Mode) : Wired (s.modeRequest mode) :=
  Interrupt.wired_ite _ .stat

theorem wired_goToLine (s : Screen) (line : UInt8) : Wired (s.goToLine line).2 :=
  wired_compareLine _

theorem wired_changeMode (s : Screen) : Wired s.changeMode.2 := by
  cases hm : s.mode with
  | oamScan =>
    rw [changeMode_oamScan hm]
    exact Interrupt.wired_zero
  | draw =>
    rw [changeMode_draw hm]
    exact s.wired_modeRequest .hblank
  | hblank =>
    rw [changeMode_hblank hm]
    split
    · exact ((s.wired_goToLine _).or (s.wired_modeRequest .vblank)).or Interrupt.vblank.wired_mask
    · exact (s.wired_goToLine _).or (s.wired_modeRequest .oamScan)
  | vblank =>
    rw [changeMode_vblank hm]
    exact (s.wired_goToLine 0).or (s.wired_modeRequest .oamScan)

theorem wired_passVblankLines (count : Nat) (s : Screen) :
    Wired (passVblankLines count s).2 := by
  induction count generalizing s with
  | zero => exact Interrupt.wired_zero
  | succ count ih =>
    rw [passVblankLines]
    by_cases hlast : s.line < lastLine
    · simp only [if_pos hlast]
      exact (s.wired_goToLine _).or (ih _)
    · simp only [if_neg hlast]
      exact Interrupt.wired_zero.or (ih s)

theorem wired_passWithin (s : Screen) (dots : Nat) : Wired (s.passWithin dots).2 := by
  have hpassed : Wired (s.passDots dots).2 := by
    by_cases hm : s.mode = .vblank
    · rw [passDots_of_vblank hm]
      exact wired_passVblankLines _ s
    · rw [passDots_of_ne hm]
      exact Interrupt.wired_zero
  unfold passWithin
  dsimp only
  split
  · exact hpassed.or (wired_changeMode _)
  · exact hpassed

theorem wired_passAll (dots : Nat) : ∀ (s : Screen) {raised : UInt8}, Wired raised →
    Wired (s.passAll dots raised).2 := by
  induction dots using Nat.strongRecOn with
  | ind dots ih =>
    intro s raised h
    by_cases hdots : 0 < dots
    · have hpos := s.stretch_pos hdots
      rw [passAll_of_pos s raised hdots]
      exact ih _ (by omega) _ (h.or (s.wired_passWithin _))
    · obtain rfl : dots = 0 := by omega
      rwa [passAll_zero]

theorem wired_advance (s : Screen) (cycles : Nat) : Wired (s.advance cycles).2 := by
  unfold advance
  split
  · exact wired_passAll _ s Interrupt.wired_zero
  · exact Interrupt.wired_zero

theorem wired_write (s : Screen) (value : UInt8) (r : ScreenRegister) :
    Wired (s.write value r).2 := by
  cases r with
  | control =>
    rw [write, writeControl]
    split
    · exact wired_compareLine _
    · exact Interrupt.wired_zero
  | lineCompare => exact wired_compareLine _
  | _ => exact Interrupt.wired_zero

/-- No operation on a screen requests anything but interrupts. -/
theorem wired_perform (s : Screen) (op : ScreenOp) : Wired (s.perform op).2 := by
  cases op with
  | advance cycles => exact s.wired_advance cycles
  | writeRegister address value =>
    rw [perform, writeAt]
    split
    · exact s.wired_write value _
    · exact Interrupt.wired_zero
  | _ => exact Interrupt.wired_zero

end Screen
end Handheld
