/-!
# The joypad

Eight buttons in two groups.  The register P1 shows one group at a time in its
four low bits; the program selects the group with bits 4 and 5.  A released
button reads as one, a pressed button as zero.
-/

namespace Handheld

/-- The buttons, actions before directions. -/
inductive Button where
  | a | b | select | start | right | left | up | down
  deriving DecidableEq, Repr, Inhabited

namespace Button

/-- The buttons in the order of their bits. -/
def all : List Button := [a, b, select, start, right, left, up, down]

/-- The button's bit in the state byte. -/
def mask : Button → UInt8
  | a => 0x01
  | b => 0x02
  | select => 0x04
  | start => 0x08
  | right => 0x10
  | left => 0x20
  | up => 0x40
  | down => 0x80

/-- The button's name. -/
def name : Button → String
  | a => "A"
  | b => "B"
  | select => "Select"
  | start => "Start"
  | right => "Right"
  | left => "Left"
  | up => "Up"
  | down => "Down"

/-- A letter in lower case; only the letters A to Z change. -/
def foldCase (c : Char) : Char :=
  if 'A' ≤ c ∧ c ≤ 'Z' then Char.ofNat (c.toNat + 32) else c

/-- A name with its letters A to Z in lower case. -/
def foldName (name : String) : List Char :=
  name.toList.map foldCase

/-- The button with this name, whatever the case of its letters. -/
def ofName? (name : String) : Option Button :=
  all.find? fun button => foldName button.name = foldName name

end Button

/-- A button goes down or up. -/
structure ButtonEvent where
  button : Button
  pressed : Bool
  deriving DecidableEq, Repr, Inhabited

/-- The state of all buttons, one bit each, set while the button is released. -/
structure Buttons where
  bits : UInt8 := 0xFF
  deriving DecidableEq, Repr, Inhabited

namespace Buttons

/-- Whether the button is down. -/
def isPressed (s : Buttons) (button : Button) : Bool :=
  s.bits &&& button.mask == 0

/-- The state after a button goes down or up. -/
def set (s : Buttons) (button : Button) (pressed : Bool) : Buttons :=
  if pressed then ⟨s.bits &&& ~~~button.mask⟩ else ⟨s.bits ||| button.mask⟩

/-- The state after an event. -/
def apply (s : Buttons) (event : ButtonEvent) : Buttons :=
  s.set event.button event.pressed

/-- The buttons that are down, in the order of their bits. -/
def pressed (s : Buttons) : List Button :=
  Button.all.filter s.isPressed

end Buttons

/-- The buttons and the group that P1 selects. -/
structure Joypad where
  buttons : Buttons := {}
  /-- Bits 4 and 5 of P1 as last written. -/
  selection : UInt8 := 0x30
  deriving DecidableEq, Repr, Inhabited

namespace Joypad

/-- The register P1.  With both selection bits set no group is shown; else bit
4 selects the actions and its absence the directions. -/
def read (j : Joypad) : UInt8 :=
  if j.selection = 0x30 then 0x3F
  else
    j.selection |||
      (if j.selection &&& 0x10 != 0 then j.buttons.bits &&& 0x0F else j.buttons.bits >>> 4)

/-- Writes P1; only the selection bits are kept. -/
def write (j : Joypad) (value : UInt8) : Joypad :=
  { j with selection := value &&& 0x30 }

/-- The joypad after an event. -/
def apply (j : Joypad) (event : ButtonEvent) : Joypad :=
  { j with buttons := j.buttons.apply event }

end Joypad
end Handheld
