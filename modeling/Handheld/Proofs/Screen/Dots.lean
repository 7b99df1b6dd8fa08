import Handheld.Proofs.Bus.Requests
import Handheld.Proofs.Screen.Position

/-!
# Dot by dot

Time passes for the screen in stretches that end where the mode changes.  How
time is cut makes no difference, so that a stretch can be taken apart into single
dots, and what one dot does can be said once for every place of the frame.

There are five groups.

* Stretches.  `passWithin_add` cuts a stretch that does not reach the end of a
  mode.
* Dots.  `passAll_succ` and `changesWithin_succ` take the first dot off the dots
  to pass; the inductions over dots start from them.
* The request of the vertical blank.  It is made by the changes to that mode and by
  nothing else.
* Any cut.  `advanceScreen_add` says that only the sum of the cycles matters.
* What a dot does.  `DotStep` lists what can happen at a place of the frame, and
  `dot_step` says that nothing else does.  What holds over time is read off it.
-/

namespace Handheld

namespace Screen

/-! ## Stretches -/

theorem passVblankLines_add (m n : Nat) (s : Screen) :
    passVblankLines (m + n) s =
      ((passVblankLines n (passVblankLines m s).1).1,
        (passVblankLines m s).2 ||| (passVblankLines n (passVblankLines m s).1).2) := by
  induction m generalizing s with
  | zero => rw [Nat.zero_add, passVblankLines, UInt8.zero_or]
  | succ m ih =>
    rw [Nat.add_right_comm, passVblankLines, passVblankLines]
    simp only [ih, UInt8.or_assoc]

theorem passDots_add (s : Screen) (m n : Nat) :
    s.passDots (m + n) =
      (((s.passDots m).1.passDots n).1, (s.passDots m).2 ||| ((s.passDots m).1.passDots n).2) := by
  have hmode := s.mode_passDots m
  by_cases hm : s.mode = .vblank
  · -- the lines that end in both parts are those that end in the whole
    have hcount : (s.vblankDots + (m + n)) / 456 =
        (s.vblankDots + m) / 456 + ((s.vblankDots + m) % 456 + n) / 456 := by omega
    have hrest : (s.vblankDots + (m + n)) % 456 = ((s.vblankDots + m) % 456 + n) % 456 := by omega
    rw [passDots_of_vblank (hmode.trans hm), passDots_of_vblank hm, passDots_of_vblank hm, hcount,
      hrest]
    simp only [passVblankLines_add, passVblankLines_update, Nat.sub_sub]
  · have hstill : (s.passDots m).1.mode ≠ .vblank := fun h => hm (hmode.symm.trans h)
    rw [passDots_of_ne hstill, passDots_of_ne hm, passDots_of_ne hm, Nat.sub_sub, UInt8.or_zero]

/-- Dots that do not reach the end of the mode. -/
theorem passWithin_of_lt {s : Screen} {dots : Nat} (h : dots < s.dotsLeft) :
    s.passWithin dots = s.passDots dots := by
  have hleft : ¬ (s.passDots dots).1.dotsLeft = 0 := by
    rw [dotsLeft_passDots]
    omega
  simp only [passWithin, hleft, if_false]

theorem passWithin_add {s : Screen} {m n : Nat} (h : m < s.dotsLeft) :
    s.passWithin (m + n) =
      (((s.passWithin m).1.passWithin n).1,
        (s.passWithin m).2 ||| ((s.passWithin m).1.passWithin n).2) := by
  rw [passWithin_of_lt h]
  unfold passWithin
  rw [passDots_add]
  dsimp only
  split
  · rw [UInt8.or_assoc]
  · rfl

/-! ## Dots -/

/-- The screen after one dot, and the interrupts that it requests. -/
def dot (s : Screen) : Screen × UInt8 :=
  s.passWithin 1

/-- The change of mode at the next dot, if it is the last one of its mode. -/
def changesOfDot (s : Screen) : List ModeChange :=
  if s.dotsLeft ≤ 1 then [⟨s.mode, s.dot.1.mode, s.dot.1.line⟩] else []

/-- A dot that is not the last one of its mode. -/
theorem dot_of_lt {s : Screen} (h : 1 < s.dotsLeft) :
    s.dot.1.mode = s.mode ∧ s.dot.1.dotsLeft = s.dotsLeft - 1 := by
  rw [dot, passWithin_of_lt h]
  exact ⟨s.mode_passDots 1, s.dotsLeft_passDots 1⟩

/-- A stretch of more than one dot is a dot and a stretch after it. -/
theorem stretch_succ {s : Screen} {dots : Nat} (h : s.stretch (dots + 1) ≠ 1) :
    1 < s.dotsLeft ∧ 0 < dots ∧ s.stretch (dots + 1) = 1 + s.dot.1.stretch dots := by
  have hpos := s.stretch_pos (show 0 < dots + 1 by omega)
  have hstretch : s.stretch (dots + 1) = min (dots + 1) (max s.dotsLeft 1) := rfl
  have hlt : 1 < s.dotsLeft := by omega
  have hnext : s.dot.1.stretch dots = min dots (max (s.dotsLeft - 1) 1) := by
    rw [stretch, (dot_of_lt hlt).2]
  exact ⟨hlt, by omega, by omega⟩

theorem passAll_succ (s : Screen) (dots : Nat) (raised : UInt8) :
    s.passAll (dots + 1) raised = s.dot.1.passAll dots (raised ||| s.dot.2) := by
  rw [passAll_of_pos s raised (show 0 < dots + 1 by omega)]
  by_cases hone : s.stretch (dots + 1) = 1
  · rw [hone, Nat.add_sub_cancel]
    rfl
  · obtain ⟨hlt, hdots, hstretch⟩ := stretch_succ hone
    rw [hstretch, passWithin_add hlt, passAll_of_pos s.dot.1 _ hdots, UInt8.or_assoc,
      Nat.add_comm dots 1, Nat.add_sub_add_left]
    rfl

@[simp] theorem changesWithin_zero (s : Screen) : s.changesWithin 0 = [] := by
  rw [changesWithin]
  simp

theorem changesWithin_of_pos (s : Screen) {dots : Nat} (h : 0 < dots) :
    s.changesWithin dots =
      (if s.dotsLeft ≤ s.stretch dots then
        [⟨s.mode, (s.passWithin (s.stretch dots)).1.mode,
          (s.passWithin (s.stretch dots)).1.line⟩]
      else []) ++ (s.passWithin (s.stretch dots)).1.changesWithin (dots - s.stretch dots) := by
  rw [changesWithin]
  simp [h]

theorem changesWithin_succ (s : Screen) (dots : Nat) :
    s.changesWithin (dots + 1) = s.changesOfDot ++ s.dot.1.changesWithin dots := by
  rw [changesWithin_of_pos s (show 0 < dots + 1 by omega)]
  by_cases hone : s.stretch (dots + 1) = 1
  · rw [hone, Nat.add_sub_cancel]
    rfl
  · obtain ⟨hlt, hdots, hstretch⟩ := stretch_succ hone
    obtain ⟨hmode, hleft⟩ := dot_of_lt hlt
    have hend : (s.dotsLeft ≤ 1 + s.dot.1.stretch dots) ↔
        s.dot.1.dotsLeft ≤ s.dot.1.stretch dots := by omega
    have hnone : s.changesOfDot = [] := if_neg (by omega)
    rw [hnone, List.nil_append, changesWithin_of_pos s.dot.1 hdots, hstretch, passWithin_add hlt,
      hmode, Nat.add_comm dots 1, Nat.add_sub_add_left]
    simp only [hend]
    rfl

/-! ## The request of the vertical blank -/

/-- Whether one of the changes is the start of a vertical blank. -/
def beginsVblank (changes : List ModeChange) : Bool :=
  changes.any (·.target == .vblank)

theorem beginsVblank_append (changes more : List ModeChange) :
    beginsVblank (changes ++ more) = (beginsVblank changes || beginsVblank more) :=
  List.any_append

theorem isSet_vblank_goToLine (s : Screen) (line : UInt8) :
    Interrupt.vblank.isSet (s.goToLine line).2 = false := by
  unfold goToLine compareLine
  dsimp only
  split <;> rfl

theorem isSet_vblank_modeRequest (s : Screen) (mode : Mode) :
    Interrupt.vblank.isSet (s.modeRequest mode) = false := by
  unfold modeRequest
  split <;> rfl

theorem isSet_vblank_changeMode (s : Screen) :
    Interrupt.vblank.isSet s.changeMode.2 = (s.changeMode.1.mode == .vblank) := by
  cases hm : s.mode with
  | oamScan =>
    rw [changeMode_oamScan hm]
    exact Interrupt.vblank.isSet_zero
  | draw =>
    rw [changeMode_draw hm]
    exact s.isSet_vblank_modeRequest .hblank
  | hblank =>
    rw [changeMode_hblank hm]
    split
    · rw [Interrupt.isSet_or]
      exact Bool.or_true _
    · rw [Interrupt.isSet_or, isSet_vblank_goToLine, isSet_vblank_modeRequest]
      rfl
  | vblank =>
    rw [changeMode_vblank hm]
    dsimp only
    rw [Interrupt.isSet_or, isSet_vblank_goToLine, isSet_vblank_modeRequest]
    rfl

theorem isSet_vblank_passVblankLines (count : Nat) (s : Screen) :
    Interrupt.vblank.isSet (passVblankLines count s).2 = false := by
  induction count generalizing s with
  | zero => exact Interrupt.vblank.isSet_zero
  | succ count ih =>
    rw [passVblankLines]
    dsimp only
    rw [Interrupt.isSet_or, ih, Bool.or_false]
    split
    · exact s.isSet_vblank_goToLine _
    · exact Interrupt.vblank.isSet_zero

theorem isSet_vblank_passDots (s : Screen) (dots : Nat) :
    Interrupt.vblank.isSet (s.passDots dots).2 = false := by
  by_cases hm : s.mode = .vblank
  · rw [passDots_of_vblank hm]
    exact isSet_vblank_passVblankLines _ s
  · rw [passDots_of_ne hm]
    exact Interrupt.vblank.isSet_zero

/-- A dot requests the vertical blank if it is the last one before that mode. -/
theorem isSet_vblank_dot (s : Screen) :
    Interrupt.vblank.isSet s.dot.2 = beginsVblank s.changesOfDot := by
  have hleft := s.dotsLeft_passDots 1
  rw [changesOfDot, dot, passWithin]
  dsimp only
  by_cases hlast : s.dotsLeft ≤ 1
  · rw [if_pos hlast, if_pos (by omega)]
    dsimp only
    rw [Interrupt.isSet_or, isSet_vblank_passDots, isSet_vblank_changeMode, Bool.false_or]
    exact (Bool.or_false _).symm
  · rw [if_neg hlast, if_neg (by omega)]
    exact s.isSet_vblank_passDots 1

theorem isSet_vblank_passAll (s : Screen) (dots : Nat) (raised : UInt8) :
    Interrupt.vblank.isSet (s.passAll dots raised).2 =
      (Interrupt.vblank.isSet raised || beginsVblank (s.changesWithin dots)) := by
  induction dots generalizing s raised with
  | zero =>
    rw [passAll_zero, changesWithin_zero]
    exact (Bool.or_false _).symm
  | succ dots ih =>
    rw [passAll_succ, changesWithin_succ, ih, Interrupt.isSet_or, isSet_vblank_dot,
      beginsVblank_append, Bool.or_assoc]

/-- A vertical blank is seen to begin if and only if the mode changes to it. -/
theorem entersVblank_eq (s : Screen) (cycles : Nat) :
    s.entersVblank cycles = beginsVblank (s.changesIn cycles) := by
  unfold entersVblank advance changesIn
  by_cases hon : s.enabled = true
  · rw [if_pos hon, if_pos hon, isSet_vblank_passAll, Interrupt.isSet_zero, Bool.false_or]
  · rw [if_neg hon, if_neg hon]
    exact Interrupt.vblank.isSet_zero

/-! ## Any cut -/

theorem passAll_raised (s : Screen) (dots : Nat) (raised : UInt8) :
    s.passAll dots raised = ((s.passAll dots 0).1, raised ||| (s.passAll dots 0).2) := by
  induction dots generalizing s raised with
  | zero => simp only [passAll_zero, UInt8.or_zero]
  | succ dots ih =>
    rw [passAll_succ, passAll_succ, ih, ih s.dot.1 (0 ||| s.dot.2), UInt8.zero_or, UInt8.or_assoc]

theorem passAll_add (s : Screen) (m n : Nat) (raised : UInt8) :
    s.passAll (m + n) raised = (s.passAll m raised).1.passAll n (s.passAll m raised).2 := by
  induction m generalizing s raised with
  | zero => rw [Nat.zero_add, passAll_zero]
  | succ m ih => rw [Nat.add_right_comm, passAll_succ, passAll_succ, ih]

theorem advance_zero (s : Screen) : s.advance 0 = (s, 0) := by
  rw [advance, Nat.zero_mul, passAll_zero, ite_self]

theorem advance_of_off {s : Screen} (hoff : s.enabled = false) (cycles : Nat) :
    s.advance cycles = (s, 0) := by
  rw [Screen.advance, if_neg (by simp [hoff])]

theorem advance_add (s : Screen) (m n : Nat) :
    s.advance (m + n) =
      (((s.advance m).1.advance n).1, (s.advance m).2 ||| ((s.advance m).1.advance n).2) := by
  have henabled := (sameSettings_advance s m).enabled
  by_cases hon : s.enabled = true
  · have hstill : (s.advance m).1.enabled = true := henabled.trans hon
    unfold advance at hstill ⊢
    rw [if_pos hon] at hstill ⊢
    rw [if_pos hon, if_pos hstill, Nat.add_mul, passAll_add, passAll_raised _ (n * dotsPerCycle)]
  · have hoff : s.enabled = false := Bool.eq_false_iff.2 hon
    rw [advance_of_off hoff, advance_of_off hoff, advance_of_off hoff, UInt8.or_zero]

theorem entersVblank_add (s : Screen) (m n : Nat) :
    s.entersVblank (m + n) = (s.entersVblank m || (s.advance m).1.entersVblank n) := by
  unfold entersVblank
  rw [advance_add, Interrupt.isSet_or]

theorem entersVblank_zero (s : Screen) : s.entersVblank 0 = false := by
  rw [entersVblank, advance_zero]
  exact Interrupt.vblank.isSet_zero

end Screen

namespace Bus

theorem advanceScreen_zero (b : Bus) : b.advanceScreen 0 = b := by
  unfold advanceScreen
  rw [b.screen.advance_zero]
  simp only [UInt8.or_zero]

theorem advanceScreen_of_off {b : Bus} (hoff : b.screen.enabled = false) (cycles : Nat) :
    b.advanceScreen cycles = b := by
  unfold advanceScreen
  rw [Screen.advance_of_off hoff]
  exact congrArg (fun requests => { b with requests }) UInt8.or_zero

theorem advanceScreen_advanceScreen (b : Bus) (m n : Nat) :
    (b.advanceScreen m).advanceScreen n = b.advanceScreen (m + n) := by
  unfold advanceScreen
  rw [b.screen.advance_add]
  simp only [UInt8.or_assoc]

/-- The bus after several advances of its screen, and whether a vertical blank
began in one of them. -/
def advanceScreenBy (b : Bus) : List Nat → Bus × Bool
  | [] => (b, false)
  | cycles :: more =>
    let rest := (b.advanceScreen cycles).advanceScreenBy more
    (rest.1, b.screen.entersVblank cycles || rest.2)

/-- How time is cut makes no difference to the screen, to the interrupts that it
requests, or to whether a vertical blank is seen to begin; only the sum of the
cycles does.  A vertical blank is seen to begin if and only if one of the changes
of mode in these cycles is to that mode. -/
theorem advanceScreen_add :
    (∀ (b : Bus) (m n : Nat),
      (b.advanceScreen m).advanceScreen n = b.advanceScreen (m + n) ∧
      (b.screen.entersVblank m || (b.advanceScreen m).screen.entersVblank n) =
        b.screen.entersVblank (m + n)) ∧
    (∀ (b : Bus) (parts : List Nat),
      b.advanceScreenBy parts =
        (b.advanceScreen (parts.foldr (· + ·) 0),
          b.screen.entersVblank (parts.foldr (· + ·) 0))) ∧
    ∀ (s : Screen) (cycles : Nat),
      s.entersVblank cycles = (s.changesIn cycles).any (·.target == .vblank) := by
  have hcut : ∀ (b : Bus) (m n : Nat),
      (b.screen.entersVblank m || (b.advanceScreen m).screen.entersVblank n) =
        b.screen.entersVblank (m + n) := fun b m n => (b.screen.entersVblank_add m n).symm
  refine ⟨fun b m n => ⟨b.advanceScreen_advanceScreen m n, hcut b m n⟩, ?_,
    Screen.entersVblank_eq⟩
  intro b parts
  induction parts generalizing b with
  | nil => rw [List.foldr_nil, advanceScreen_zero, b.screen.entersVblank_zero, advanceScreenBy]
  | cons cycles more ih =>
    rw [advanceScreenBy, ih, List.foldr_cons, advanceScreen_advanceScreen, hcut]

end Bus

namespace Screen

/-! ## What a dot does -/

/-- A place of the frame at which neither a line nor a mode begins. -/
def IsQuiet (place : Nat) : Prop :=
  (∃ line q, line < 144 ∧ 0 < q ∧ q < 455 ∧ q ≠ 80 ∧ q ≠ 310 ∧
      place = 455 * line + q) ∨
    ∃ v, v < 4560 ∧ v % 456 ≠ 0 ∧ place = visibleDots + v

/-- What can happen at the dot after a place of the frame: the changes of mode,
and the screen afterwards with the interrupts that it requests. -/
inductive DotStep (s : Screen) (place : Nat) : List ModeChange → Screen × UInt8 → Prop where
  | quiet (vblankDots : Nat) (hplace : IsQuiet (place + 1))
      (hdots : visibleDots ≤ place → vblankDots = s.vblankDots + 1) :
      DotStep s place [] ({ s with dotsLeft := s.dotsLeft - 1, vblankDots }, 0)
  | drawBegins (hline : s.line.toNat < 144) (hplace : place + 1 = 455 * s.line.toNat + 80) :
      DotStep s place [⟨.oamScan, .draw, s.line⟩] ({ s with mode := .draw, dotsLeft := 230 }, 0)
  | lineDrawn (hline : s.line.toNat < 144) (hplace : place + 1 = 455 * s.line.toNat + 310) :
      DotStep s place [⟨.draw, .hblank, s.line⟩]
        ({ s with mode := .hblank, dotsLeft := 145, picture := s.drawLine.picture },
          s.modeRequest .hblank)
  | lineBegins (hline : s.line.toNat < 143) (hplace : place + 1 = 455 * (s.line.toNat + 1)) :
      DotStep s place [⟨.hblank, .oamScan, s.line + 1⟩]
        ({ (s.goToLine (s.line + 1)).1 with mode := .oamScan, dotsLeft := 80 },
          (s.goToLine (s.line + 1)).2 ||| s.modeRequest .oamScan)
  | vblankBegins (hline : s.line.toNat = 143) (hplace : place + 1 = visibleDots) :
      DotStep s place [⟨.hblank, .vblank, s.line + 1⟩]
        ({ (s.goToLine (s.line + 1)).1 with
            mode := .vblank, dotsLeft := 4560, vblankDots := 0
            frameCount := s.frameCount + 1, frameReady := true },
          (s.goToLine (s.line + 1)).2 ||| s.modeRequest .vblank ||| Interrupt.vblank.mask)
  | vblankLine (hline : 144 ≤ s.line.toNat) (hlast : s.line.toNat < 153)
      (hplace : place + 1 = visibleDots + 456 * (s.line.toNat - 143)) :
      DotStep s place []
        ({ (s.goToLine (s.line + 1)).1 with dotsLeft := s.dotsLeft - 1, vblankDots := 0 },
          (s.goToLine (s.line + 1)).2)
  | frameBegins (hline : s.line.toNat = 153) (hplace : place + 1 = frameDots) :
      DotStep s place [⟨.vblank, .oamScan, 0⟩]
        ({ (s.goToLine 0).1 with mode := .oamScan, dotsLeft := 80, vblankDots := 0 },
          (s.goToLine 0).2 ||| s.modeRequest .oamScan)

/-- A place that is not the last one of the frame is followed by the next number. -/
theorem next_eq {place next : Nat} (h : place + 1 = next) (hlt : next < frameDots) :
    (place + 1) % frameDots = next := by
  rw [h, Nat.mod_eq_of_lt hlt]

/-- The last dot of a mode outside the vertical blank. -/
theorem dot_of_last {s : Screen} (hmode : s.mode ≠ .vblank) (hleft : s.dotsLeft = 1) :
    s.dot = s.changeMode := by
  rw [dot, passWithin, passDots_of_ne hmode]
  simp only [hleft, Nat.sub_self, if_true, UInt8.zero_or, changeMode_update]

/-- The end of a visible line. -/
private theorem dot_lineEnd {s : Screen} {place : Nat} (hm : s.mode = .hblank)
    (hline : s.line.toNat < 144) (hleft : s.dotsLeft = 1)
    (hplace : place + 1 = 455 * (s.line.toNat + 1)) :
    DotStep s place s.changesOfDot s.dot := by
  have hnext := toNat_add_one (show s.line.toNat < 255 by omega)
  rw [changesOfDot, if_pos (by omega), dot_of_last (by rw [hm]; decide) hleft]
  by_cases hlast : s.line.toNat = 143
  · have hvblank : 144 ≤ s.line + 1 := by
      rw [UInt8.le_iff_toNat_le, hnext, hlast]
      decide
    have hV : visibleDots = 65520 := rfl
    rw [changeMode_hblank hm, if_pos hvblank, hm]
    exact .vblankBegins hlast (by omega)
  · have hvisible : ¬ 144 ≤ s.line + 1 := by
      rw [UInt8.le_iff_toNat_le, hnext]
      simp only [UInt8.reduceToNat]
      omega
    rw [changeMode_hblank hm, if_neg hvisible, hm]
    exact .lineBegins (by omega) hplace

private theorem dot_visible {s : Screen} {line q : Nat} (h : s.AtPhase (455 * line + q))
    (hline : line < 144) (hq : q < 455) :
    DotStep s (455 * line + q) s.changesOfDot s.dot := by
  obtain ⟨rfl, hcases⟩ := h.visible_cases hline hq
  have hmode : s.mode ≠ .vblank := by
    rcases hcases with ⟨hm, _⟩ | ⟨hm, _⟩ | ⟨hm, _⟩ <;> rw [hm] <;> decide
  by_cases hlast : s.dotsLeft = 1
  · rcases hcases with ⟨hm, h80, hleft⟩ | ⟨hm, h80, h310, hleft⟩ | ⟨hm, h310, hleft⟩
    · rw [changesOfDot, if_pos (by omega), dot_of_last hmode hlast, changeMode_oamScan hm, hm]
      exact .drawBegins hline (by omega)
    · rw [changesOfDot, if_pos (by omega), dot_of_last hmode hlast, changeMode_draw hm, hm]
      exact .lineDrawn hline (by omega)
    · exact dot_lineEnd hm hline hlast (by omega)
  · have hmore : ¬ s.dotsLeft - 1 = 0 := by omega
    rw [changesOfDot, if_neg (by omega), dot, passWithin, passDots_of_ne hmode]
    have hV : visibleDots = 65520 := rfl
    simp only [hmore, if_false]
    exact .quiet _ (Or.inl ⟨s.line.toNat, q + 1, by omega⟩) (by omega)

private theorem dot_vblank {s : Screen} {v : Nat} (h : s.AtPhase (visibleDots + v))
    (hv : v < 4560) : DotStep s (visibleDots + v) s.changesOfDot s.dot := by
  obtain ⟨hm, hl, hleft, hdots⟩ := h.vblank
  have hF : frameDots = visibleDots + 4560 := rfl
  rw [changesOfDot, dot, passWithin, passDots_of_vblank hm, hdots]
  by_cases hmore : v % 456 < 455
  · have hcount : (v % 456 + 1) / 456 = 0 := by omega
    have hgoing : ¬ s.dotsLeft - 1 = 0 := by omega
    rw [if_neg (by omega)]
    simp only [hcount, passVblankLines, hgoing, if_false]
    exact .quiet _ (Or.inr ⟨v + 1, by omega⟩) (by omega)
  have hcount : (v % 456 + 1) / 456 = 1 := by omega
  have hrest : (v % 456 + 1) % 456 = 0 := by omega
  by_cases hlast : v = 4559
  · -- the last line of the vertical blank does not end before the frame does
    have hline : s.line.toNat = 153 := by omega
    have hstay : ¬ s.line < lastLine := by
      rw [UInt8.lt_iff_toNat_lt, hline]
      decide
    have hend : s.dotsLeft - 1 = 0 := by omega
    rw [if_pos (by omega)]
    simp only [hcount, hrest, passVblankLines, if_neg hstay, hend, if_true, changeMode, hm,
      UInt8.zero_or]
    exact .frameBegins hline (by omega)
  · have hgo : s.line < lastLine := by
      rw [UInt8.lt_iff_toNat_lt, hl]
      show 144 + v / 456 < 153
      omega
    have hgoing : ¬ s.dotsLeft - 1 = 0 := by omega
    rw [if_neg (by omega)]
    simp only [hcount, hrest, passVblankLines, if_pos hgo, hgoing, if_false, UInt8.or_zero]
    exact .vblankLine (by omega) (by omega) (by omega)

theorem dot_step {s : Screen} {place : Nat} (h : s.AtPhase place) (hplace : place < frameDots) :
    DotStep s place s.changesOfDot s.dot := by
  rcases phase_cases hplace with ⟨line, q, hline, hq, rfl⟩ | ⟨v, hv, rfl⟩
  · exact dot_visible h hline hq
  · exact dot_vblank h hv

theorem IsQuiet.bounds {place : Nat} (h : IsQuiet place) :
    place < frameDots ∧ place ≠ visibleDots := by
  have hF : frameDots = 70080 := rfl
  have hV : visibleDots = 65520 := rfl
  rcases h with ⟨line, q, _, _, _, _, _, hplace⟩ | ⟨v, _, _, hplace⟩ <;> omega

/-- Within a mode and a line, a dot is taken off the mode. -/
theorem AtPhase.quiet {s : Screen} {place vblankDots : Nat} (h : s.AtPhase place)
    (hplace : IsQuiet (place + 1))
    (hdots : visibleDots ≤ place → vblankDots = s.vblankDots + 1) :
    { s with dotsLeft := s.dotsLeft - 1, vblankDots }.AtPhase (place + 1) := by
  have hV : visibleDots = 65520 := rfl
  rcases hplace with ⟨line, q, hline, hpos, hq, h80, h310, hnext⟩ | ⟨v, hv, hrest, hnext⟩
  · rw [hnext]
    obtain rfl : place = 455 * line + (q - 1) := by omega
    obtain ⟨hl, hcases⟩ := h.visible_cases hline (by omega)
    refine atPhase_of_visible_cases hline hq hl ?_
    rcases hcases with ⟨hm, _, _⟩ | ⟨hm, _, _, _⟩ | ⟨hm, _, _⟩
    · exact Or.inl ⟨hm, by omega, by simp only; omega⟩
    · exact Or.inr (Or.inl ⟨hm, by omega, by omega, by simp only; omega⟩)
    · exact Or.inr (Or.inr ⟨hm, by omega, by simp only; omega⟩)
  · rw [hnext]
    obtain rfl : place = visibleDots + (v - 1) := by omega
    obtain ⟨hm, hl, hleft, hcount⟩ := h.vblank
    have hdots' := hdots (by omega)
    refine atPhase_vblank ?_ (by simp only; omega)
    simp only [Screen.position, Position.mk.injEq]
    exact ⟨hm, by omega, by omega⟩

/-- The place moves by one, and the last place of the frame is followed by the
first. -/
theorem DotStep.atPhase {s : Screen} {place : Nat} {changes : List ModeChange}
    {after : Screen × UInt8} (h : DotStep s place changes after) (hphase : s.AtPhase place) :
    after.1.AtPhase ((place + 1) % frameDots) := by
  have hF : frameDots = 70080 := rfl
  have hV : visibleDots = 65520 := rfl
  cases h with
  | quiet vblankDots hquiet hdots =>
    rw [next_eq rfl hquiet.bounds.1]
    exact hphase.quiet hquiet hdots
  | drawBegins hline hnext =>
    rw [next_eq hnext (by omega)]
    exact atPhase_of_visible_cases hline (by omega) rfl
      (Or.inr (Or.inl ⟨rfl, by omega, by omega, rfl⟩))
  | lineDrawn hline hnext =>
    rw [next_eq hnext (by omega)]
    exact atPhase_of_visible_cases hline (by omega) rfl (Or.inr (Or.inr ⟨rfl, by omega, rfl⟩))
  | lineBegins hline hnext =>
    have hl := toNat_add_one (show s.line.toNat < 255 by omega)
    rw [next_eq hnext (by omega)]
    refine atPhase_visible (s.line.toNat + 1) 0 (by omega) (by omega) ?_
    rw [positionInLine, if_pos (by omega), ← hl]
    rfl
  | vblankBegins hline hnext =>
    have hl : (s.line + 1).toNat = 144 := by rw [toNat_add_one (by omega), hline]
    rw [next_eq hnext (by omega)]
    refine atPhase_vblank (v := 0) ?_ rfl
    simp only [position, Position.mk.injEq, goToLine, compareLine]
    exact ⟨trivial, hl, trivial⟩
  | vblankLine hline hlast hnext =>
    have hl := toNat_add_one (show s.line.toNat < 255 by omega)
    rw [next_eq hnext (by omega)]
    obtain ⟨v, hv⟩ : ∃ v, place = visibleDots + v := ⟨place - visibleDots, by omega⟩
    rw [hv] at hphase
    obtain ⟨hm, hl', hleft, hcount⟩ := hphase.vblank
    refine atPhase_vblank ?_ (by simp only; omega)
    simp only [position, Position.mk.injEq, goToLine, compareLine]
    exact ⟨hm, by omega, by omega⟩
  | frameBegins hline hnext =>
    rw [hnext, Nat.mod_self]
    exact atPhase_zero rfl

/-- A vertical blank begins at the dot that comes to its place. -/
theorem DotStep.entersVblank {s : Screen} {place : Nat} {changes : List ModeChange}
    {after : Screen × UInt8} (h : DotStep s place changes after) :
    beginsVblank changes = decide ((place + 1) % frameDots = visibleDots) := by
  have hV : visibleDots = 65520 := rfl
  have hF : frameDots = 70080 := rfl
  rw [hF]
  cases h with
  | vblankBegins hline hnext => rw [decide_eq_true (by omega)]; rfl
  | quiet _ hquiet =>
    have hnext := hquiet.bounds
    rw [decide_eq_false (by omega)]
    rfl
  | drawBegins hline hnext | lineDrawn hline hnext | lineBegins hline hnext
  | frameBegins hline hnext => rw [decide_eq_false (by omega)]; rfl
  | vblankLine hline hlast hnext => rw [decide_eq_false (by omega)]; rfl

/-- A picture is completed where the vertical blank begins. -/
theorem DotStep.frameCount {s : Screen} {place : Nat} {changes : List ModeChange}
    {after : Screen × UInt8} (h : DotStep s place changes after) :
    after.1.frameCount =
      s.frameCount + if (place + 1) % frameDots = visibleDots then 1 else 0 := by
  have hcount : after.1.frameCount =
      s.frameCount + if beginsVblank changes = true then 1 else 0 := by
    cases h <;> rfl
  rw [hcount, h.entersVblank]
  simp only [decide_eq_true_iff]

theorem sameSettings_dot (s : Screen) : s.SameSettings s.dot.1 :=
  sameSettings_passWithin s 1

end Screen
end Handheld
