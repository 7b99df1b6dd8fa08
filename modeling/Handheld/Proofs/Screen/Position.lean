import Mathlib.Tactic.SplitIfs
import Handheld.Proofs.Screen.Step

/-!
# The position of the screen in closed form

A screen that is on goes through a frame of 70080 dots again and again: 144
visible lines of 455 dots each, then ten lines of 456 dots.  Each of the dots is a
place of the frame, and the place fixes the mode, the line and the dots left.

There are two groups.

* The closed form.  `positionAt` gives the position for a number of dots from
  the start of a frame, `Position.phase` gives the dots back, and `picturesIn`
  counts the pictures completed since the switch-on.
* A place of the frame.  `AtPhase` says that a screen stands at a place.  It also
  fixes the dots of the current line of the vertical blank, which the position does
  not show.
-/

namespace Handheld.Screen

/-! ## The closed form -/

/-- Dots in a visible line. -/
def lineDots : Nat := 455

/-- Dots in the visible lines of a frame. -/
def visibleDots : Nat := 144 * lineDots

/-- Dots in a frame. -/
def frameDots : Nat := visibleDots + 10 * vblankLineDots

/-- The position of a screen that is off. -/
def Position.off : Position :=
  { mode := .hblank, line := 0, dotsLeft := 80 }

/-- The position within a visible line, `q` dots after the start of the line. -/
def positionInLine (line q : Nat) : Position :=
  if q < 80 then { mode := .oamScan, line, dotsLeft := 80 - q }
  else if q < 310 then { mode := .draw, line, dotsLeft := 310 - q }
  else { mode := .hblank, line, dotsLeft := 455 - q }

/-- The position `p` dots after the start of a frame. -/
def positionAt (p : Nat) : Position :=
  if p < visibleDots then positionInLine (p / lineDots) (p % lineDots)
  else
    { mode := .vblank
      line := 144 + (p - visibleDots) / vblankLineDots
      dotsLeft := frameDots - p }

/-- The pictures completed in the given dots from the start of a frame.  A
picture is complete when its vertical blank begins. -/
def picturesIn (dots : Nat) : Nat :=
  (dots + 10 * vblankLineDots) / frameDots

theorem positionAt_visible {line q : Nat} (hline : line < 144) (hq : q < 455) :
    positionAt (455 * line + q) = positionInLine line q := by
  have hp : 455 * line + q < visibleDots := by
    simp only [visibleDots, lineDots]
    omega
  rw [positionAt, if_pos hp, lineDots]
  congr 1 <;> omega

theorem positionAt_vblank (v : Nat) :
    positionAt (visibleDots + v) =
      { mode := .vblank, line := 144 + v / 456, dotsLeft := 4560 - v } := by
  rw [positionAt, if_neg (by omega)]
  simp only [Position.mk.injEq, true_and, visibleDots, vblankLineDots, lineDots, frameDots]
  omega

/-- A place in the frame is either in a visible line or in the vertical
blank. -/
theorem phase_cases {p : Nat} (h : p < frameDots) :
    (∃ line q, line < 144 ∧ q < 455 ∧ p = 455 * line + q) ∨
      ∃ v, v < 4560 ∧ p = visibleDots + v := by
  by_cases hp : p < visibleDots
  · refine Or.inl ⟨p / 455, p % 455, ?_, by omega, by omega⟩
    simp only [visibleDots, lineDots] at hp
    omega
  · refine Or.inr ⟨p - visibleDots, ?_, by omega⟩
    simp only [frameDots, vblankLineDots] at h
    omega

/-- The dots since the start of the frame, as a position shows them. -/
def Position.phase (p : Position) : Nat :=
  match p.mode with
  | .oamScan => lineDots * p.line + (80 - p.dotsLeft)
  | .draw => lineDots * p.line + (310 - p.dotsLeft)
  | .hblank => lineDots * p.line + (455 - p.dotsLeft)
  | .vblank => frameDots - p.dotsLeft

theorem phase_positionInLine {line q : Nat} (hq : q < 455) :
    (positionInLine line q).phase = 455 * line + q := by
  unfold positionInLine
  split_ifs <;> simp only [Position.phase, lineDots] <;> omega

/-- No two places of the frame have the same position. -/
theorem phase_positionAt {p : Nat} (h : p < frameDots) : (positionAt p).phase = p := by
  rcases phase_cases h with ⟨line, q, hline, hq, rfl⟩ | ⟨v, hv, rfl⟩
  · rw [positionAt_visible hline hq, phase_positionInLine hq]
  · have hF : frameDots = visibleDots + 4560 := rfl
    rw [positionAt_vblank]
    simp only [Position.phase]
    omega

/-! ## A place of the frame -/

/-- The screen is `p` dots after the start of a frame. -/
structure AtPhase (s : Screen) (p : Nat) : Prop where
  position : s.position = positionAt p
  vblankDots : visibleDots ≤ p → s.vblankDots = (p - visibleDots) % vblankLineDots

theorem atPhase_visible {s : Screen} (line q : Nat) (hline : line < 144) (hq : q < 455)
    (h : s.position = positionInLine line q) : s.AtPhase (455 * line + q) := by
  refine ⟨h.trans (positionAt_visible hline hq).symm, ?_⟩
  intro hle
  simp only [visibleDots, lineDots] at hle
  omega

theorem atPhase_vblank {s : Screen} {v : Nat}
    (h : s.position = { mode := .vblank, line := 144 + v / 456, dotsLeft := 4560 - v })
    (hdots : s.vblankDots = v % 456) : s.AtPhase (visibleDots + v) := by
  refine ⟨h.trans (positionAt_vblank v).symm, ?_⟩
  intro _
  rw [hdots, Nat.add_sub_cancel_left, vblankLineDots]

/-- The start of a frame. -/
theorem atPhase_zero {s : Screen}
    (h : s.position = { mode := .oamScan, line := 0, dotsLeft := 80 }) : s.AtPhase 0 :=
  atPhase_visible 0 0 (by omega) (by omega) h

/-- In a visible line the screen is in one of the three modes of the line. -/
theorem AtPhase.visible_cases {s : Screen} {line q : Nat} (h : s.AtPhase (455 * line + q))
    (hline : line < 144) (hq : q < 455) :
    s.line.toNat = line ∧
      (s.mode = .oamScan ∧ q < 80 ∧ s.dotsLeft = 80 - q ∨
        s.mode = .draw ∧ 80 ≤ q ∧ q < 310 ∧ s.dotsLeft = 310 - q ∨
        s.mode = .hblank ∧ 310 ≤ q ∧ s.dotsLeft = 455 - q) := by
  have hpos := h.position
  rw [positionAt_visible hline hq, positionInLine] at hpos
  split_ifs at hpos with h80 h310
  all_goals
    simp only [Screen.position, Position.mk.injEq] at hpos
    obtain ⟨hmode, hl, hleft⟩ := hpos
    refine ⟨hl, ?_⟩
  · exact Or.inl ⟨hmode, h80, hleft⟩
  · exact Or.inr (Or.inl ⟨hmode, by omega, h310, hleft⟩)
  · exact Or.inr (Or.inr ⟨hmode, by omega, hleft⟩)

theorem atPhase_of_visible_cases {s : Screen} {line q : Nat} (hline : line < 144) (hq : q < 455)
    (hl : s.line.toNat = line)
    (hcases : s.mode = .oamScan ∧ q < 80 ∧ s.dotsLeft = 80 - q ∨
      s.mode = .draw ∧ 80 ≤ q ∧ q < 310 ∧ s.dotsLeft = 310 - q ∨
      s.mode = .hblank ∧ 310 ≤ q ∧ s.dotsLeft = 455 - q) : s.AtPhase (455 * line + q) := by
  refine atPhase_visible line q hline hq ?_
  rw [position, hl]
  rcases hcases with ⟨hm, h80, hleft⟩ | ⟨hm, h80, h310, hleft⟩ | ⟨hm, h310, hleft⟩
  · rw [positionInLine, if_pos h80, hm, hleft]
  · rw [positionInLine, if_neg (by omega), if_pos h310, hm, hleft]
  · rw [positionInLine, if_neg (by omega), if_neg (by omega), hm, hleft]

theorem AtPhase.vblank {s : Screen} {v : Nat} (h : s.AtPhase (visibleDots + v)) :
    s.mode = .vblank ∧ s.line.toNat = 144 + v / 456 ∧ s.dotsLeft = 4560 - v ∧
      s.vblankDots = v % 456 := by
  have hpos := h.position
  rw [positionAt_vblank] at hpos
  simp only [Screen.position, Position.mk.injEq] at hpos
  have hdots := h.vblankDots (by omega)
  rw [Nat.add_sub_cancel_left, vblankLineDots] at hdots
  exact ⟨hpos.1, hpos.2.1, hpos.2.2, hdots⟩

/-- The vertical blank has no place among the visible lines. -/
theorem AtPhase.visibleDots_le {s : Screen} {p : Nat} (h : s.AtPhase p)
    (hm : s.mode = .vblank) : visibleDots ≤ p := by
  refine Nat.le_of_not_lt fun hlt => ?_
  have hmode : s.mode = (positionAt p).mode := congrArg Position.mode h.position
  rw [hm, positionAt, if_pos hlt, positionInLine] at hmode
  split_ifs at hmode

/-- A mode always has dots left. -/
theorem AtPhase.dotsLeft_pos {s : Screen} {p : Nat} (h : s.AtPhase p) (hp : p < frameDots) :
    0 < s.dotsLeft := by
  rcases phase_cases hp with ⟨line, q, hline, hq, rfl⟩ | ⟨v, hv, rfl⟩
  · obtain ⟨_, hcases⟩ := h.visible_cases hline hq
    omega
  · obtain ⟨_, _, hleft, _⟩ := h.vblank
    omega

end Handheld.Screen
