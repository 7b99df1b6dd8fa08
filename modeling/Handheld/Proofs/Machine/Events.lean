import Handheld.Proofs.Machine.Writes

/-!
# What happens to the bus in a step

A step changes the bus in a fixed order: the writes of the instruction, the time
of the timer, the request that is withdrawn and the writes of the dispatch, once
more the timer, and the screen at last.  `BusEvent` is one such change.

* Events.  `Bus.undergoAll` is the bus after a list of them.
* Steps.  `stepEvents` are the events of a step, and `step_bus` says that they
  are all that happens to the bus.
* Runs.  `runEvents` are the events of a number of steps, and `steps_bus` says
  the same of them.
-/

namespace Handheld

/-! ## Events -/

/-- One change of the bus. -/
inductive BusEvent where
  /-- A byte is written, by an instruction or on to the stack. -/
  | write (address : UInt16) (value : UInt8)
  /-- The timer runs. -/
  | runTimer (cycles : Nat)
  /-- An interrupt is dispatched: its request is withdrawn. -/
  | dispatch (i : Interrupt)
  /-- The screen runs. -/
  | runScreen (cycles : Nat)
  deriving DecidableEq, Repr

/-- The events of a list of writes. -/
def writeEvents (writes : List (UInt16 × UInt8)) : List BusEvent :=
  writes.map fun w => .write w.1 w.2

namespace Bus

/-- The bus after an event. -/
def undergo (b : Bus) : BusEvent → Bus
  | .write address value => b.write address value
  | .runTimer cycles => b.advanceTimer cycles
  | .dispatch i => { b with requests := i.clear b.requests }
  | .runScreen cycles => b.advanceScreen cycles

/-- The bus after events, one after another. -/
def undergoAll (b : Bus) (events : List BusEvent) : Bus :=
  events.foldl undergo b

variable (b : Bus)

@[simp] theorem undergoAll_nil : b.undergoAll [] = b := rfl

@[simp] theorem undergoAll_cons (e : BusEvent) (events : List BusEvent) :
    b.undergoAll (e :: events) = (b.undergo e).undergoAll events := rfl

theorem undergoAll_append (events more : List BusEvent) :
    b.undergoAll (events ++ more) = (b.undergoAll events).undergoAll more :=
  List.foldl_append

theorem undergoAll_writeEvents (writes : List (UInt16 × UInt8)) :
    b.undergoAll (writeEvents writes) = b.writeAll writes := by
  unfold undergoAll writeEvents writeAll
  rw [List.foldl_map]
  rfl

end Bus

namespace Machine

/-! ## Steps -/

/-- The events of serving an interrupt. -/
def serviceEvents (m : Machine) : List BusEvent :=
  match m.pending with
  | none => []
  | some i =>
    if m.cpu.ime then .dispatch i :: writeEvents m.dispatchWrites ++ [.runTimer dispatchCycles]
    else []

/-- The events of a step. -/
def stepEvents (m : Machine) : List BusEvent :=
  writeEvents m.instructionWrites ++
    .runTimer m.executeOrIdle.2 ::
      (m.executeOrIdle.1.runTimer m.executeOrIdle.2).serviceEvents ++
    [.runScreen m.step.2]

theorem serveInterrupts_bus (m : Machine) :
    m.serveInterrupts.1.bus = m.bus.undergoAll m.serviceEvents := by
  unfold serveInterrupts serviceEvents dispatchWrites
  cases m.pending with
  | none => rfl
  | some i =>
    simp only
    by_cases hime : m.cpu.ime = true
    · rw [if_pos hime, if_pos hime, if_pos hime]
      simp only [Bus.undergoAll_append, Bus.undergoAll_cons, Bus.undergoAll_nil,
        Bus.undergoAll_writeEvents]
      rfl
    · rw [if_neg hime, if_neg hime]
      rfl

/-- The bus that a step comes to when it looks for interrupts. -/
theorem runTimer_executeOrIdle_bus (m : Machine) :
    (m.executeOrIdle.1.runTimer m.executeOrIdle.2).bus =
      (m.bus.undergoAll (writeEvents m.instructionWrites)).undergo
        (.runTimer m.executeOrIdle.2) := by
  rw [Bus.undergoAll_writeEvents, ← executeOrIdle_bus]
  rfl

/-- Its events are all that a step does to the bus. -/
theorem step_bus (m : Machine) : m.step.1.bus = m.bus.undergoAll m.stepEvents := by
  have hserved := (m.executeOrIdle.1.runTimer m.executeOrIdle.2).serveInterrupts_bus
  rw [runTimer_executeOrIdle_bus] at hserved
  simp only [stepEvents, Bus.undergoAll_append, Bus.undergoAll_cons, Bus.undergoAll_nil,
    ← hserved]
  rfl

/-! ## Runs -/

/-- The machine after a number of steps. -/
def steps : (n : Nat) → Machine → Machine
  | 0, m => m
  | n + 1, m => steps n m.step.1

/-- The events of a number of steps. -/
def runEvents : (n : Nat) → Machine → List BusEvent
  | 0, _ => []
  | n + 1, m => m.stepEvents ++ runEvents n m.step.1

/-- Their events are all that steps do to the bus. -/
theorem steps_bus (n : Nat) (m : Machine) : (steps n m).bus = m.bus.undergoAll (runEvents n m) := by
  induction n generalizing m with
  | zero => rfl
  | succ n ih =>
    show (steps n m.step.1).bus = _
    rw [ih, step_bus, runEvents, Bus.undergoAll_append]

end Machine
end Handheld
