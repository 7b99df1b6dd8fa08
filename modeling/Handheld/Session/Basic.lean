import Handheld.Input.Command
import Handheld.Input.Replay
import Handheld.Machine.Frame

/-!
# Sessions

A session runs its machine frame by frame until a limit is reached, and keeps
the last picture.  Button events come from a replay, whose clock is the number
of completed pictures, and from typed commands.
-/

namespace Handheld

/-! ## Input -/

/-- The input of a session. -/
structure SessionInput where
  replay : Replay := {}
  /-- The events that were typed and not taken yet. -/
  typed : List ButtonEvent := []
  deriving DecidableEq, Repr, Inhabited

/-- The source of events: those of the replay that are due, then those that
were typed. -/
def SessionInput.source : InputSource SessionInput where
  drain := fun input =>
    let (due, replay) := input.replay.drain
    (due ++ input.typed, { replay })

/-! ## Frames -/

/-- When a session ends, looked at after each frame. -/
structure Limits where
  frames : Option Nat := none
  cycles : Option Nat := none
  deriving DecidableEq, Repr, Inhabited

/-- A session. -/
structure Session where
  machine : Machine
  input : SessionInput := {}
  /-- The last picture that was handed out. -/
  shown : Option Machine.Presented := none
  /-- The frames that were run. -/
  runs : Nat := 0
  /-- The cycles that were run. -/
  cycles : Nat := 0

namespace Session

/-- The number of the last picture, which is the number of the pictures so
far. -/
def presented (s : Session) : Nat :=
  (s.shown.map (·.number)).getD 0

/-- The input with the clock of the replay set. -/
def frameInput (s : Session) : SessionInput :=
  { s.input with replay := s.input.replay.goTo s.machine.frameCount }

/-- Keeps the last picture. -/
def keepLast : Machine.PictureSink (Option Machine.Presented) where
  present := fun picture number _ => some { number, picture }

/-- Runs a frame. -/
def frame (s : Session) : Session :=
  let r := s.machine.runFrame SessionInput.source s.frameInput
  { machine := r.machine
    input := r.input
    shown := r.tellSink keepLast s.shown
    runs := s.runs + 1
    cycles := s.cycles + r.cycles }

/-- The session with more typed events. -/
def addTyped (s : Session) (events : List ButtonEvent) : Session :=
  { s with input.typed := s.input.typed ++ events }

/-- Whether a limit is reached. -/
def isOver (limits : Limits) (s : Session) : Bool :=
  limits.frames.any (· ≤ s.runs) || limits.cycles.any (· ≤ s.cycles)

/-- Runs frames until a limit is reached, at most `fuel` frames. -/
def run (limits : Limits) : (fuel : Nat) → Session → Session
  | 0, s => s
  | fuel + 1, s =>
    let next := s.frame
    if next.isOver limits then next else run limits fuel next

end Session

/-- The most frames that can be counted. -/
def Limits.countable : Nat := UInt64.size

/-- A bound on the frames of a session.  At least one frame is run, and every
frame takes at least one cycle. -/
def Limits.mostFrames (l : Limits) : Nat :=
  min (max 1 (l.frames.getD countable)) (max 1 (l.cycles.getD countable))

end Handheld
