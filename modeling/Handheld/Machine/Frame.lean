import Handheld.Machine.Notice

/-!
# Running a frame

A frame is run step by step until the screen has completed a picture.  Before
each step the input is asked for button events.  While the screen is off no
picture is ever completed; the run then gives up after the time of two
frames.
-/

namespace Handheld

/-- A source of button events with states in `σ`. -/
structure InputSource (σ : Type) where
  /-- Whether events are heeded; without focus they are taken and dropped. -/
  focused : σ → Bool := fun _ => true
  /-- Takes the events that are there. -/
  drain : σ → List ButtonEvent × σ

namespace Machine

/-- The machine after a button event. -/
def press (m : Machine) (event : ButtonEvent) : Machine :=
  { m with bus.joypad := m.bus.joypad.apply event }

/-- Takes the events of a source and applies them if the source has focus. -/
def pump {σ : Type} (source : InputSource σ) (m : Machine) (state : σ) : Machine × σ :=
  let focused := source.focused state
  let (events, state) := source.drain state
  (if focused then events.foldl press m else m, state)

/-- A frame while it is run. -/
structure FrameRun (σ : Type) where
  machine : Machine
  input : σ
  /-- The cycles spent so far. -/
  cycles : Nat := 0

/-- Cycles in a frame. -/
def frameCycles : Nat := 17520

/-- Cycles after which a run gives up. -/
def frameBudget : Nat := 2 * frameCycles

namespace FrameRun

variable {σ : Type}

/-- Whether the run is over: a picture is complete or the time is up. -/
def finished (r : FrameRun σ) : Bool :=
  r.machine.bus.screen.frameReady || frameBudget ≤ r.cycles

/-- Asks for input and makes a step. -/
def next (source : InputSource σ) (r : FrameRun σ) : FrameRun σ :=
  let (m, input) := r.machine.pump source r.input
  let (machine, cycles) := m.step
  { machine, input, cycles := r.cycles + cycles }

/-- Goes on until the run is over, for at most `fuel` steps. -/
def run (source : InputSource σ) : (fuel : Nat) → FrameRun σ → FrameRun σ
  | 0, r => r
  | fuel + 1, r => if r.finished then r else run source fuel (r.next source)

/-- The notices while the run goes on, for at most `fuel` steps. -/
def notices (source : InputSource σ) : (fuel : Nat) → FrameRun σ → List Notice
  | 0, _ => []
  | fuel + 1, r =>
    if r.finished then []
    else
      (r.machine.pump source r.input).1.stepNotices ++ notices source fuel (r.next source)

end FrameRun

/-- A picture that was handed out, with its number. -/
structure Presented where
  number : Nat
  picture : Picture

/-- Takes the completed pictures, with states in `τ`. -/
structure PictureSink (τ : Type) where
  present : (picture : Picture) → (number : Nat) → τ → τ

/-- Is told of each completed picture, and may wait then, with states in `τ`. -/
structure PaceMaker (τ : Type) where
  completed : (number : Nat) → τ → τ

/-- What running a frame comes to. -/
structure FrameResult (σ : Type) where
  machine : Machine
  input : σ
  cycles : Nat
  presented : Option Presented

/-- Hands out the picture of a run that is over, if it was completed. -/
def FrameRun.present {σ : Type} (r : FrameRun σ) : FrameResult σ :=
  let screen := r.machine.bus.screen
  if screen.frameReady then
    { machine := { r.machine with bus.screen := screen.takeFrame }
      input := r.input
      cycles := r.cycles
      presented := some ⟨screen.frameCount, screen.picture⟩ }
  else { machine := r.machine, input := r.input, cycles := r.cycles, presented := none }

namespace FrameResult

variable {σ : Type}

/-- The sink after a frame. -/
def tellSink {τ : Type} (r : FrameResult σ) (sink : PictureSink τ) (state : τ) : τ :=
  match r.presented with
  | some p => sink.present p.picture p.number state
  | none => state

/-- The pace maker after a frame. -/
def tellPaceMaker {τ : Type} (r : FrameResult σ) (pace : PaceMaker τ) (state : τ) : τ :=
  match r.presented with
  | some p => pace.completed p.number state
  | none => state

end FrameResult

/-- Runs a frame.  A step takes at least one cycle, so there are no more steps
than cycles. -/
def runFrame {σ : Type} (source : InputSource σ) (m : Machine) (input : σ) : FrameResult σ :=
  (FrameRun.run source frameBudget { machine := m, input }).present

/-- The notices while a frame is run. -/
def frameNotices {σ : Type} (source : InputSource σ) (m : Machine) (input : σ) : List Notice :=
  FrameRun.notices source frameBudget { machine := m, input }

/-! ## Scripts -/

/-- A script of answers to the question for events: each element is one
answer, and `none` says that there is no event. -/
abbrev Script := List (Option ButtonEvent)

/-- The events up to the next answer that there is none. -/
def Script.drain : Script → List ButtonEvent × Script
  | [] => ([], [])
  | none :: rest => ([], rest)
  | some event :: rest =>
    let (events, rest) := drain rest
    (event :: events, rest)

/-- A script as a source of events. -/
def scriptSource (focused : Bool) : InputSource Script where
  focused := fun _ => focused
  drain := Script.drain

end Machine
end Handheld
