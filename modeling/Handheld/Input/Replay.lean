import Handheld.Joypad

/-!
# Replayed input

Button events can be written down beforehand, each with the frame from which
on it is due.  A replay hands every event out once, when its frame has come,
in the order of the frames; events of one frame keep the order in which they
were written down.
-/

namespace Handheld

/-- An event as it is written down. -/
structure ScriptEntry where
  frame : Nat := 0
  button : String := ""
  pressed : Bool := true
  deriving DecidableEq, Repr, Inhabited

namespace ScriptEntry

/-- The event of the entry, if there is a button of its name. -/
def event? (entry : ScriptEntry) : Option ButtonEvent :=
  (Button.ofName? entry.button).map fun button => { button, pressed := entry.pressed }

/-- The entry's frame and event. -/
def dated? (entry : ScriptEntry) : Option (Nat × ButtonEvent) :=
  entry.event?.map fun event => (entry.frame, event)

/-- The names of the entries whose button is not known. -/
def unknownNames (entries : List ScriptEntry) : List String :=
  (entries.filter (·.event?.isNone)).map (·.button)

end ScriptEntry

/-- The events that are still to come, and the frame that has been reached. -/
structure Replay where
  pending : List (Nat × ButtonEvent) := []
  frame : Nat := 0
  deriving DecidableEq, Repr, Inhabited

namespace Replay

/-- The replay of a list of entries. -/
def ofEntries (entries : List ScriptEntry) : Replay where
  pending := (entries.filterMap (·.dated?)).mergeSort fun x y => x.1 ≤ y.1

/-- The replay at a frame. -/
def goTo (r : Replay) (frame : Nat) : Replay :=
  { r with frame }

/-- Takes the next event if it is due. -/
def next? (r : Replay) : Option (ButtonEvent × Replay) :=
  match r.pending with
  | (frame, event) :: rest =>
    if frame ≤ r.frame then some (event, { r with pending := rest }) else none
  | [] => none

/-- Takes events from the front of a list up to the first one that is not due. -/
def takeDue (frame : Nat) :
    List (Nat × ButtonEvent) → List ButtonEvent × List (Nat × ButtonEvent)
  | [] => ([], [])
  | (due, event) :: rest =>
    if due ≤ frame then
      let (events, later) := takeDue frame rest
      (event :: events, later)
    else ([], (due, event) :: rest)

/-- Takes events until none is due. -/
def drain (r : Replay) : List ButtonEvent × Replay :=
  let (events, pending) := takeDue r.frame r.pending
  (events, { r with pending })

end Replay
end Handheld
