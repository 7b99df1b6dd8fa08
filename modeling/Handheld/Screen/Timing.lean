import Handheld.Screen.Picture

/-!
# The course of a frame

Time passes for the screen in dots, four to a machine cycle, and only while it
is on.  A stretch of time is cut where the mode changes.  At the end of its
drawing mode a line is drawn; at the end of the last visible line the frame is
complete.

Passing time can only request interrupts, never withdraw them, so each
function answers the requests as bits to be set.
-/

namespace Handheld.Screen

/-- Dots in a line of the vertical blank. -/
def vblankLineDots : Nat := 456

/-- The last line of the vertical blank. -/
def lastLine : UInt8 := 153

/-- The request for the status interrupt that the start of a mode makes. -/
def modeRequest (s : Screen) (mode : Mode) : UInt8 :=
  if s.modeInterrupts mode then Interrupt.stat.mask else 0

/-- Enters a mode for its whole length. -/
def enter (s : Screen) (mode : Mode) : Screen :=
  { s with mode, dotsLeft := mode.dots }

/-- The end of the current mode. -/
def changeMode (s : Screen) : Screen × UInt8 :=
  match s.mode with
  | .oamScan => (s.enter .draw, 0)
  | .draw =>
    let s := (s.enter .hblank).drawLine
    (s, s.modeRequest .hblank)
  | .hblank =>
    let (s, raised) := s.goToLine (s.line + 1)
    if 144 ≤ s.line then
      let s := { s.enter .vblank with
        vblankDots := 0, frameCount := s.frameCount + 1, frameReady := true }
      (s, raised ||| s.modeRequest .vblank ||| Interrupt.vblank.mask)
    else
      let s := s.enter .oamScan
      (s, raised ||| s.modeRequest .oamScan)
  | .vblank =>
    let (s, raised) := s.goToLine 0
    let s := { s.enter .oamScan with vblankDots := 0 }
    (s, raised ||| s.modeRequest .oamScan)

/-- Ends `count` lines of the vertical blank.  The last line goes on until the
frame ends. -/
def passVblankLines : (count : Nat) → Screen → Screen × UInt8
  | 0, s => (s, 0)
  | count + 1, s =>
    let (s, first) := if s.line < lastLine then s.goToLine (s.line + 1) else (s, 0)
    let (s, others) := passVblankLines count s
    (s, first ||| others)

/-- Passes dots that do not reach beyond the current mode. -/
def passDots (s : Screen) (dots : Nat) : Screen × UInt8 :=
  let s := { s with dotsLeft := s.dotsLeft - dots }
  if s.mode = .vblank then
    let total := s.vblankDots + dots
    passVblankLines (total / vblankLineDots) { s with vblankDots := total % vblankLineDots }
  else (s, 0)

/-- Passes dots that do not reach beyond the current mode, and changes the
mode if they reach its end. -/
def passWithin (s : Screen) (dots : Nat) : Screen × UInt8 :=
  let (s, passed) := s.passDots dots
  if s.dotsLeft = 0 then
    let (s, changed) := s.changeMode
    (s, passed ||| changed)
  else (s, passed)

/-- How many of the dots to come pass before the mode changes. -/
def stretch (s : Screen) (dots : Nat) : Nat :=
  min dots (max s.dotsLeft 1)

theorem stretch_pos (s : Screen) {dots : Nat} (h : 0 < dots) : 0 < s.stretch dots := by
  simp only [stretch]
  omega

/-- Passes dots.  `raised` holds the interrupts requested before. -/
def passAll (s : Screen) (dots : Nat) (raised : UInt8) : Screen × UInt8 :=
  if h : 0 < dots then
    have := s.stretch_pos h
    let now := s.stretch dots
    let (s, more) := s.passWithin now
    s.passAll (dots - now) (raised ||| more)
  else (s, raised)
termination_by dots

/-- Dots in a machine cycle. -/
def dotsPerCycle : Nat := 4

/-- The screen after machine cycles, and the interrupts that it requests. -/
def advance (s : Screen) (cycles : Nat) : Screen × UInt8 :=
  if s.enabled then s.passAll (cycles * dotsPerCycle) 0 else (s, 0)

/-- Whether a vertical blank begins in machine cycles: it is requested exactly
then. -/
def entersVblank (s : Screen) (cycles : Nat) : Bool :=
  Interrupt.vblank.isSet (s.advance cycles).2

/-! ## Changes of mode -/

/-- A change of mode, and the line on which the new mode begins. -/
structure ModeChange where
  source : Mode
  target : Mode
  line : UInt8
  deriving DecidableEq, Repr

/-- The changes of mode while dots pass. -/
def changesWithin (s : Screen) (dots : Nat) : List ModeChange :=
  if h : 0 < dots then
    have := s.stretch_pos h
    let now := s.stretch dots
    let next := (s.passWithin now).1
    let change := if s.dotsLeft ≤ now then [⟨s.mode, next.mode, next.line⟩] else []
    change ++ next.changesWithin (dots - now)
  else []
termination_by dots

/-- The changes of mode in machine cycles. -/
def changesIn (s : Screen) (cycles : Nat) : List ModeChange :=
  if s.enabled then s.changesWithin (cycles * dotsPerCycle) else []

end Handheld.Screen
