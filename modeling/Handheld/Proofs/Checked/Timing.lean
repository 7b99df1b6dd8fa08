import Handheld.Checked.Timing
import Handheld.Proofs.Checked.Picture
import Handheld.Proofs.Screen.FrameClock

/-!
# The course of a frame meets no fault

Time that passes for the screen by checked arithmetic has a result, and it is
that of passing it without checks.  A screen that keeps to the course of a
frame never lets a mode end late, so every mode is entered for its whole
length; only the count of pictures needs a bound.

The checked functions also answer whether a vertical blank began, from the changes of
mode themselves.  That is whether it was requested.
-/

namespace Handheld

/-- A screen on which the dots of its mode and of its line in the vertical
blank are within bounds. -/
structure Screen.InTime (s : Screen) : Prop where
  dotsLeft_pos : 0 < s.dotsLeft
  dotsLeft_le : s.dotsLeft ≤ 4560
  vblankDots : s.mode = .vblank → s.vblankDots < 456

theorem Screen.OnCourse.inTime {s : Screen} {before dots : Nat} (h : s.OnCourse before dots) :
    s.InTime := by
  have hp : dots % Screen.frameDots < Screen.frameDots := Nat.mod_lt _ (by decide)
  have hpos := h.phase.dotsLeft_pos hp
  have hphase := h.phase
  rcases Screen.phase_cases hp with ⟨line, q, hline, hq, heq⟩ | ⟨v, hv, heq⟩
  · rw [heq] at hphase
    obtain ⟨_, hcases⟩ := hphase.visible_cases hline hq
    refine ⟨hpos, by omega, fun hm => ?_⟩
    rcases hcases with ⟨h, _⟩ | ⟨h, _⟩ | ⟨h, _⟩ <;> rw [h] at hm <;> cases hm
  · rw [heq] at hphase
    obtain ⟨_, _, hleft, hdots⟩ := hphase.vblank
    exact ⟨hpos, by omega, fun _ => by omega⟩

namespace Checked

theorem limit_double : Width.double.limit = 0x100000000 := rfl

/-- A mode that ends in time is followed by a whole one. -/
theorem addSigned_zero (mode : Mode) : addSigned .double 0 mode.dots = .ok mode.dots := by
  have hlimit := limit_double
  have hdots : mode.dots ≤ 4560 := by cases mode <;> decide
  rw [addSigned_eq_ok (by omega) (by omega), Int.zero_add]

/-- A screen with the interrupts that it requests, and with whether the vertical
blank is one of them. -/
def withVblank (after : Screen × UInt8) : Screen × UInt8 × Bool :=
  (after.1, after.2, Interrupt.vblank.isSet after.2)

/-- The end of a mode meets no fault. -/
theorem changeMode_eq_ok {s : Screen} (h : s.changeMode.1.frameCount < Width.quad.limit) :
    changeMode s 0 = .ok (withVblank s.changeMode) := by
  rw [withVblank, s.isSet_vblank_changeMode]
  unfold changeMode Screen.changeMode at *
  cases hm : s.mode with
  | oamScan =>
    simp only [addSigned_zero, ok_bind, Int.toNat_natCast]
    rfl
  | draw =>
    have hmode : (s.enter .hblank).drawLine.mode = .hblank := by
      unfold Screen.drawLine
      split <;> rfl
    simp only [addSigned_zero, ok_bind, Int.toNat_natCast, drawLine_eq_ok, hmode]
    rfl
  | vblank =>
    simp only [addSigned_zero, ok_bind, Int.toNat_natCast]
    rfl
  | hblank =>
    simp only [hm] at h
    have hle : (144 ≤ (s.goToLine (s.line + 1)).1.line) ↔
        144 ≤ (s.goToLine (s.line + 1)).1.line.toNat := UInt8.le_iff_toNat_le
    simp only [addSigned_zero, ok_bind, Int.toNat_natCast]
    by_cases hlast : 144 ≤ (s.goToLine (s.line + 1)).1.line
    · rw [if_pos hlast] at h
      rw [if_pos (hle.1 hlast), if_pos hlast, add_eq_ok h, ok_bind]
      rfl
    · rw [if_neg (fun h => hlast (hle.2 h)), if_neg hlast]
      rfl

/-- The end of a line of the vertical blank, without checks. -/
def plainEndVblankLine (s : Screen) : Screen × UInt8 :=
  if s.line < Screen.lastLine then s.goToLine (s.line + 1) else (s, 0)

theorem endVblankLine_eq_ok (s : Screen) : endVblankLine s = .ok (plainEndVblankLine s) := by
  unfold endVblankLine plainEndVblankLine
  have hlimit := limit_byte
  by_cases hline : s.line < Screen.lastLine
  · have hbyte : s.line.toNat < 153 := UInt8.lt_iff_toNat_lt.1 hline
    have hsucc : (s.line.toNat + 1).toUInt8 = s.line + 1 := by
      apply UInt8.toNat_inj.1
      rw [UInt8.toNat_add]
      simp
    rw [if_pos hline, if_pos hline, add_eq_ok (by omega), ok_bind, hsucc, pure_eq_ok]
  · rw [if_neg hline, if_neg hline, pure_eq_ok]

/-- The end of a line leaves the dots of the line alone. -/
theorem plainEndVblankLine_vblankDots (s : Screen) (vblankDots : Nat) :
    plainEndVblankLine { s with vblankDots } =
      ({ (plainEndVblankLine s).1 with vblankDots }, (plainEndVblankLine s).2) := by
  unfold plainEndVblankLine
  by_cases hline : s.line < Screen.lastLine
  · rw [if_pos hline, if_pos hline]
    rfl
  · rw [if_neg hline, if_neg hline]

theorem passVblankLines_succ (s : Screen) (count : Nat) :
    Screen.passVblankLines (count + 1) s =
      ((Screen.passVblankLines count (plainEndVblankLine s).1).1,
        (plainEndVblankLine s).2 |||
          (Screen.passVblankLines count (plainEndVblankLine s).1).2) := rfl

/-- The lines of the vertical blank that end meet no fault. -/
theorem passVblankLines_eq_ok (dots : Nat) : ∀ s : Screen,
    passVblankLines s dots =
      .ok (Screen.passVblankLines (dots / 456) { s with vblankDots := dots % 456 }) := by
  have hperiod : Screen.vblankLineDots = 456 := rfl
  induction dots using Nat.strongRecOn with
  | ind dots ih =>
    intro s
    rw [passVblankLines, hperiod]
    by_cases h : 456 ≤ dots
    · have hcount : dots / 456 = (dots - 456) / 456 + 1 := by omega
      have hrest : dots % 456 = (dots - 456) % 456 := by omega
      rw [dif_pos h, sub_eq_ok h, ok_bind, endVblankLine_eq_ok, ok_bind]
      simp only
      rw [ih _ (by omega), ok_bind, hcount, hrest, passVblankLines_succ,
        plainEndVblankLine_vblankDots s ((dots - 456) % 456), pure_eq_ok]
    · rw [dif_neg h, Nat.div_eq_of_lt (by omega), Nat.mod_eq_of_lt (by omega), pure_eq_ok,
        Screen.passVblankLines]

theorem passVblankDots_eq_ok {s : Screen} (h : s.InTime) {dots : Nat}
    (hdots : dots ≤ s.dotsLeft) :
    passVblankDots { s with dotsLeft := s.dotsLeft - dots } dots = .ok (s.passDots dots) := by
  have hlimit := limit_double
  have hle := h.dotsLeft_le
  unfold passVblankDots Screen.passDots
  by_cases hm : s.mode = .vblank
  · have hblank := h.vblankDots hm
    simp only [hm, if_true]
    rw [add_eq_ok (by omega), ok_bind, passVblankLines_eq_ok]
    rfl
  · simp only [hm, if_false]
    rfl

/-- Dots within a mode meet no fault. -/
theorem passWithin_eq_ok {s : Screen} (h : s.InTime) {dots : Nat} (hdots : dots ≤ s.dotsLeft)
    (hcount : (s.passWithin dots).1.frameCount < Width.quad.limit) :
    passWithin s dots = .ok (withVblank (s.passWithin dots)) := by
  have hlimit := limit_double
  have hle := h.dotsLeft_le
  have hleft : ((s.dotsLeft : Int) - dots).toNat = s.dotsLeft - dots := by omega
  unfold passWithin
  rw [subSigned_eq_ok (by omega) (by omega), ok_bind]
  simp only [hleft]
  rw [passVblankDots_eq_ok h hdots, ok_bind]
  unfold Screen.passWithin at hcount ⊢
  simp only [Screen.dotsLeft_passDots] at hcount ⊢
  by_cases hend : s.dotsLeft - dots = 0
  · have hzero : (s.dotsLeft : Int) - dots = 0 := by omega
    rw [if_pos hend] at hcount
    rw [if_pos hend, if_pos (by omega), hzero, changeMode_eq_ok hcount, ok_bind]
    simp only [withVblank, Interrupt.isSet_or, s.isSet_vblank_passDots, Bool.false_or]
    rfl
  · rw [if_neg hend, if_neg (by omega)]
    simp only [withVblank, s.isSet_vblank_passDots]
    rfl

theorem laterFrames_passAll (s : Screen) (dots : Nat) (raised : UInt8) :
    s.LaterFrames (s.passAll dots raised).1 :=
  Screen.passAll_induction (P := fun _ t => s.LaterFrames t)
    (fun _ dots t _ _ ht => ht.trans (Screen.laterFrames_passWithin t dots)) dots 0 s raised
    (.of_eq rfl rfl)

/-- Dots meet no fault on a screen that keeps to the course of a frame. -/
theorem passAll_eq_ok (dots : Nat) : ∀ {s : Screen} {before since : Nat} (raised : UInt8),
    s.OnCourse before since → (s.passAll dots raised).1.frameCount < Width.quad.limit →
    passAll s dots raised (Interrupt.vblank.isSet raised) =
      .ok (withVblank (s.passAll dots raised)) := by
  -- on the dots that are left; the course of the frame keeps every mode in time
  induction dots using Nat.strongRecOn with
  | ind dots ih =>
    intro s before since raised h hcount
    rw [passAll]
    by_cases hpos : 0 < dots
    · have hnow := s.stretch_pos hpos
      have htime := h.inTime
      have hleft := htime.dotsLeft_pos
      have hle : s.stretch dots ≤ s.dotsLeft := by
        unfold Screen.stretch
        omega
      have hrest : s.stretch dots ≤ dots := Nat.min_le_left _ _
      rw [Screen.passAll_of_pos s raised hpos] at hcount
      have hwithin := passWithin_eq_ok htime hle
        (Nat.lt_of_le_of_lt (laterFrames_passAll _ _ _).frameCount_le hcount)
      rw [dif_pos hpos, sub_eq_ok hrest, ok_bind, hwithin, ok_bind,
        Screen.passAll_of_pos s raised hpos]
      simp only [withVblank, ← Interrupt.isSet_or]
      exact ih _ (by omega) _ (h.passWithin hnow hle) hcount
    · rw [dif_neg hpos, Nat.eq_zero_of_not_pos hpos, Screen.passAll_zero]
      rfl

/-- Time meets no fault on a reachable screen, while the dots and the count of
pictures are within bounds. -/
theorem advance_eq_ok {s : Screen} (h : s.Reachable) {cycles : Nat}
    (hcycles : cycles * Screen.dotsPerCycle < Width.double.limit)
    (hcount : (s.advance cycles).1.frameCount < Width.quad.limit) :
    advance s cycles = .ok ((s.advance cycles).1, (s.advance cycles).2, s.entersVblank cycles) := by
  unfold Screen.entersVblank
  unfold advance Screen.advance at *
  by_cases hon : s.enabled = true
  · obtain ⟨before, since, hcourse⟩ := h.onCourse hon
    have hpassed := passAll_eq_ok _ 0 hcourse (by rwa [if_pos hon] at hcount)
    rw [Interrupt.isSet_zero] at hpassed
    rw [if_pos hon, if_pos hon, mul_eq_ok hcycles, ok_bind]
    exact hpassed
  · rw [if_neg hon, if_neg hon, Interrupt.isSet_zero]
    rfl

end Checked
end Handheld
