/-!
# Control sequences of terminals

A text may hold control characters and control sequences, which would move the
cursor of a terminal or change its colours.  Here they are taken out, so that
only what can be seen and white space is left.

The sequences are recognized by a state machine.  It looks at a character in the
state that the characters before have led to, with one exception: behind a
character that is kept, it looks at the next one as plain text, and goes back to
the state only behind the first one that is not kept.
-/

namespace Handheld.Text.Terminal

/-- Where in a control sequence a character stands. -/
inductive Control where
  /-- In plain text. -/
  | plain
  /-- Behind the escape character. -/
  | escape
  /-- Behind an intermediate character of an escape sequence. -/
  | escapeIntermediate
  /-- In a sequence that is introduced by `[`. -/
  | sequence
  /-- In a command to the operating system, introduced by `]`. -/
  | command
  /-- In a sequence for the device, introduced by `P`. -/
  | device
  /-- In the parameters of a sequence for the device. -/
  | deviceParameter
  /-- Behind an intermediate character of a sequence for the device. -/
  | deviceIntermediate
  /-- In a string that is not interpreted. -/
  | string
  deriving DecidableEq, Repr, Inhabited

/-- The escape character. -/
def escapeChar : Char := '\x1b'

/-- Whether the character cancels a control sequence. -/
def isCancel (c : Char) : Bool := c = '\x18' || c = '\x1a'

/-- Whether the character is a control character. -/
def isControl (c : Char) : Bool := c < ' '

/-- Whether the character is a control character that is white space. -/
def isLayout (c : Char) : Bool := c = '\t' || c = '\n' || c = '\x0c' || c = '\r'

/-- Whether the character is no character of ASCII. -/
def isWide (c : Char) : Bool := '\x7f' < c

/-- Whether the character can be seen, or is a space. -/
def isPrintable (c : Char) : Bool := ' ' ≤ c && c ≠ '\x7f'

/-- Whether the code point of the character lies between two others. -/
def within (least greatest : Char) (c : Char) : Bool := least ≤ c && c ≤ greatest

/-- The state behind a character that the escape character stands before. -/
def behindEscape (c : Char) : Control :=
  if c = '[' then .sequence
  else if c = ']' then .command
  else if c = 'P' then .device
  else if c = 'X' || c = '^' || c = '_' then .string
  else if within ' ' '/' c then .escapeIntermediate
  else if within '0' '~' c then .plain
  else .escape

/-- Whether a byte of the character's encoding ends a string.  It is one of the
bytes behind the first, which hold six bits each. -/
def endsString (c : Char) : Bool :=
  let digits := [c.toNat % 64, c.toNat / 64 % 64, c.toNat / 4096 % 64]
  let count := if c.toNat < 0x800 then 1 else if c.toNat < 0x10000 then 2 else 3
  isWide c && (digits.take count).contains 0x1C

/-- The state behind a character in a state. -/
def Control.next (state : Control) (c : Char) : Control :=
  if isCancel c then .plain
  else if c = escapeChar then .escape
  else
    match state with
    | .plain => .plain
    | .escape => if isControl c then .escape else behindEscape c
    | .escapeIntermediate => if within '0' '~' c then .plain else .escapeIntermediate
    | .sequence => if within '@' '~' c then .plain else .sequence
    | .command => if c = '\x07' then .plain else .command
    | .device =>
      if within ' ' '/' c then .deviceIntermediate
      else if within '0' '?' c then .deviceParameter
      else if within '@' '~' c then .string
      else .device
    | .deviceParameter =>
      if within ' ' '/' c then .deviceIntermediate
      else if within '<' '~' c then .string
      else .deviceParameter
    | .deviceIntermediate => if within '0' '~' c then .string else .deviceIntermediate
    | .string => if endsString c then .plain else .string

/-- Whether a character is kept in a state. -/
def Control.keeps (state : Control) (c : Char) : Bool :=
  match state with
  | .plain => isPrintable c || isLayout c
  | .escape | .escapeIntermediate | .sequence => isLayout c
  | _ => false

/-- The characters that are kept.  `printing` says that the character before was
kept. -/
def keep : (printing : Bool) → Control → List Char → List Char
  | _, _, [] => []
  | true, state, c :: rest =>
    if Control.plain.keeps c then c :: keep true (if isWide c then .plain else state) rest
    else if isCancel c || c = escapeChar then keep false (Control.plain.next c) rest
    else keep false state rest
  | false, state, c :: rest =>
    if state.keeps c then c :: keep true (state.next c) rest
    else keep false (state.next c) rest

/-- The text without control characters and control sequences. -/
def strip (text : String) : String :=
  .ofList (keep false .plain text.toList)

end Handheld.Text.Terminal
