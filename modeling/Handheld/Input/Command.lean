import Handheld.Joypad
import Handheld.Text.Blank

/-!
# Typed commands

A button can be operated by typing `press` or `release` and the name of the
button, with blanks between and around the two words.  The verb is in lower
case; the name may be in any case.
-/

namespace Handheld

/-- What a verb makes of its button. -/
def pressedOfVerb? (verb : String) : Option Bool :=
  if verb = "press" then some true
  else if verb = "release" then some false
  else none

/-- The event that a line commands, if it is a command. -/
def ButtonEvent.ofCommand? (line : String) : Option ButtonEvent :=
  match Text.words line with
  | [verb, name] => do
    let pressed ← pressedOfVerb? verb
    let button ← Button.ofName? name
    return { button, pressed }
  | _ => none

/-- What a typed line comes to. -/
inductive TypedLine where
  | empty
  | command (event : ButtonEvent)
  | unrecognized (line : String)
  deriving DecidableEq, Repr

/-- Reads a typed line.  Blanks around it do not matter. -/
def TypedLine.read (line : String) : TypedLine :=
  let line := Text.trim line
  if line.isEmpty then empty
  else
    match ButtonEvent.ofCommand? line with
    | some event => command event
    | none => unrecognized line

/-- The event of a typed line, if there is one. -/
def TypedLine.event? : TypedLine → Option ButtonEvent
  | command event => some event
  | _ => none

end Handheld
