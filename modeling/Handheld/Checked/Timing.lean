import Handheld.Checked.Picture
import Handheld.Screen.Timing

/-!
# The course of a frame with checked arithmetic

The dots up to the next change of mode are a number with a sign, the dots of a
line of the vertical blank and the dots to pass are numbers without one.
-/

namespace Handheld.Checked

/-- The end of the current mode, which may be `left` dots behind its time.  Answers
the interrupts that this requests, and whether the vertical blank begins. -/
def changeMode (s : Screen) (left : Int) : Result (Screen × UInt8 × Bool) :=
  match s.mode with
  | .oamScan => do
    let left ← addSigned .double left Mode.draw.dots
    return ({ s with mode := .draw, dotsLeft := left.toNat }, 0, false)
  | .draw => do
    let left ← addSigned .double left Mode.hblank.dots
    let s ← drawLine { s with mode := .hblank, dotsLeft := left.toNat }
    return (s, s.modeRequest .hblank, false)
  | .hblank =>
    let (s, raised) := s.goToLine (s.line + 1)
    if 144 ≤ s.line.toNat then do
      let left ← addSigned .double left Mode.vblank.dots
      let frameCount ← add .quad s.frameCount 1
      return ({ s with
        mode := .vblank, dotsLeft := left.toNat, vblankDots := 0, frameCount
        frameReady := true },
        raised ||| s.modeRequest .vblank ||| Interrupt.vblank.mask, true)
    else do
      let left ← addSigned .double left Mode.oamScan.dots
      return ({ s with mode := .oamScan, dotsLeft := left.toNat },
        raised ||| s.modeRequest .oamScan, false)
  | .vblank => do
    let left ← addSigned .double left Mode.oamScan.dots
    let (s, raised) := s.goToLine 0
    return ({ s with mode := .oamScan, dotsLeft := left.toNat, vblankDots := 0 },
      raised ||| s.modeRequest .oamScan, false)

/-- Ends a line of the vertical blank. -/
def endVblankLine (s : Screen) : Result (Screen × UInt8) := do
  if s.line < Screen.lastLine then
    let line ← add .byte s.line.toNat 1
    return s.goToLine line.toUInt8
  else return (s, 0)

/-- Ends lines of the vertical blank while `dots` reaches to the end of one. -/
def passVblankLines (s : Screen) (dots : Nat) : Result (Screen × UInt8) :=
  if _h : Screen.vblankLineDots ≤ dots then do
    let _ ← sub dots Screen.vblankLineDots
    let (s, first) ← endVblankLine s
    let (s, others) ← passVblankLines s (dots - Screen.vblankLineDots)
    return (s, first ||| others)
  else return ({ s with vblankDots := dots }, 0)
termination_by dots
decreasing_by
  have : Screen.vblankLineDots = 456 := rfl
  omega

/-- Counts dots in the line of the vertical blank. -/
def passVblankDots (s : Screen) (dots : Nat) : Result (Screen × UInt8) := do
  if s.mode = .vblank then passVblankLines s (← add .double s.vblankDots dots)
  else return (s, 0)

/-- Passes dots that do not reach beyond the current mode, and changes the
mode if they reach its end. -/
def passWithin (s : Screen) (dots : Nat) : Result (Screen × UInt8 × Bool) := do
  let left ← subSigned .double s.dotsLeft dots
  let (s, passed) ← passVblankDots { s with dotsLeft := left.toNat } dots
  if left ≤ 0 then
    let (s, changed, entered) ← changeMode s left
    return (s, passed ||| changed, entered)
  else return (s, passed, false)

/-- Passes dots.  `raised` holds the interrupts requested before, `entered` whether
a vertical blank has begun. -/
def passAll (s : Screen) (dots : Nat) (raised : UInt8) (entered : Bool) :
    Result (Screen × UInt8 × Bool) :=
  if h : 0 < dots then do
    have := s.stretch_pos h
    let _ ← sub dots (s.stretch dots)
    let (next, more, begins) ← passWithin s (s.stretch dots)
    passAll next (dots - s.stretch dots) (raised ||| more) (entered || begins)
  else return (s, raised, entered)
termination_by dots

/-- The screen after machine cycles, the interrupts that it requests, and whether a
vertical blank began. -/
def advance (s : Screen) (cycles : Nat) : Result (Screen × UInt8 × Bool) := do
  if s.enabled then passAll s (← mul .double cycles Screen.dotsPerCycle) 0 false
  else return (s, 0, false)

end Handheld.Checked
