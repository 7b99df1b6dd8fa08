import Handheld.Pattern.Fault
import Handheld.Text.Blank

/-!
# Going through a pattern

A reader goes through the characters of a pattern, and may find a fault.
-/

namespace Handheld.Pattern

/-- A place in a pattern that is being read. -/
structure Cursor where
  /-- How many characters have been read. -/
  place : Nat := 0
  /-- The characters that have not been read. -/
  rest : List Char
  /-- Whether blanks and comments are passed over. -/
  spaced : Bool := false
  /-- The names of the groups so far. -/
  names : List (String × Span) := []

/-- A reader takes a part off the front of a pattern. -/
abbrev Reader := StateT Cursor (Except Fault)

/-- The characters without blanks and comments at the start.  `comment` says
that a comment has begun; it ends with the line. -/
def skipFiller : (comment : Bool) → List Char → List Char
  | _, [] => []
  | true, c :: rest => skipFiller (c ≠ '\n') rest
  | false, c :: rest =>
    if Text.isBlank c then skipFiller false rest
    else if c = '#' then skipFiller true rest
    else c :: rest

/-- The cursor where only some of the characters are left. -/
def Cursor.goTo (c : Cursor) (rest : List Char) : Cursor :=
  { c with place := c.place + (c.rest.length - rest.length), rest }

/-- The cursor behind blanks and comments, if they are passed over. -/
def Cursor.skip (c : Cursor) : Cursor :=
  if c.spaced then c.goTo (skipFiller false c.rest) else c

namespace Reader

/-- The place of the next character. -/
def place : Reader Nat := return (← get).place

/-- The next character; `none` at the end. -/
def peek : Reader (Option Char) := return (← get).rest.head?

/-- Passes over blanks and comments, if they are passed over. -/
def skip : Reader Unit := modify Cursor.skip

/-- Passes over a number of characters. -/
def advance (count : Nat) : Reader Unit := modify fun c => c.goTo (c.rest.drop count)

/-- Passes over a character, and over blanks and comments behind it. -/
def advanceAndSkip : Reader Unit := do
  advance 1
  skip

/-- Passes over an expected text, if it comes next. -/
def accept (text : String) : Reader Bool := do
  let expected := text.toList
  if expected.isPrefixOf (← get).rest then
    advance expected.length
    return true
  else return false

/-- The part from a place up to here. -/
def spanFrom (start : Nat) : Reader Span := return ⟨start, ← place⟩

/-- The empty part at this place. -/
def emptySpan : Reader Span := do spanFrom (← place)

/-- The part with the next character. -/
def charSpan : Reader Span := do
  let start ← place
  return ⟨start, start + 1⟩

/-- Finds a fault. -/
def fault {α : Type} (kind : FaultKind) (span : Span) (other : Option Span := none) : Reader α :=
  throw { kind, span, other }

/-- Reads the characters that are wanted, passing over blanks and comments
behind each.  `fuel` bounds their number. -/
def run (wanted : Char → Bool) : (fuel : Nat) → Reader (List Char)
  | 0 => return []
  | fuel + 1 => do
    match ← peek with
    | some c =>
      if wanted c then
        advanceAndSkip
        return c :: (← run wanted fuel)
      else return []
    | none => return []

/-- Reads the longest run of wanted characters. -/
def runOf (wanted : Char → Bool) : Reader (List Char) := do
  run wanted (← get).rest.length

/-- Passes over blanks, whatever the mode. -/
def skipBlanks : Reader Unit := modify fun c => c.goTo (c.rest.dropWhile Text.isBlank)

end Reader
end Handheld.Pattern
