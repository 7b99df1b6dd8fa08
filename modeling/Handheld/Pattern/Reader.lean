import Handheld.Pattern.Bracket

/-!
# Reading patterns

A pattern is a choice between sequences.  A sequence consists of characters,
sets, assertions and groups, each of which may be repeated.
-/

namespace Handheld.Pattern.Reader

/-! ## Repetition -/

/-- Takes the last item of a sequence, which is to be repeated. -/
def lastItem (items : List Tree) : Reader (Tree × List Tree) := do
  match items with
  | item :: items =>
    if item.isRepeatable then return (item, items)
    else fault .nothingToRepeat (← emptySpan)
  | [] => fault .nothingToRepeat (← emptySpan)

/-- Passes over the mark of a short repetition.  Whether a text has a match does
not depend on it. -/
def shortMark : Reader Unit := do
  if (← peek) = some '?' then advance 1

/-- Reads a sign of repetition. -/
def sign (least : Nat) (most : Option Nat) (items : List Tree) : Reader (List Tree) := do
  let (item, items) ← lastItem items
  advance 1
  shortMark
  return .repeated item least most :: items

/-- The greatest number of repetitions that can be written. -/
def maxCount : Nat := 4294967295

/-- Reads a decimal number.  Blanks may stand around it.  That there is none is
answered as a fault. -/
def decimal : Reader (Except Fault Nat) := do
  skipBlanks
  let start ← place
  let digits ← runOf Char.isDigit
  let span ← spanFrom start
  skipBlanks
  if digits.isEmpty then return .error { kind := .countEmpty, span }
  let n := digits.foldl (fun n c => n * 10 + (c.toNat - 48)) 0
  if maxCount < n then return .error { kind := .decimalInvalid, span }
  return .ok n

/-- The number that was read, or its fault. -/
def given (n : Except Fault Nat) : Reader Nat := liftM n

/-- Passes over a character in a counted repetition, which must go on. -/
def advanceInCount (start : Nat) : Reader Unit := do
  advanceAndSkip
  if (← peek).isNone then fault .countUnclosed (← spanFrom start)

/-- Reads the numbers between the braces of a counted repetition. -/
def countBounds (start : Nat) : Reader (Nat × Option Nat) := do
  let least ← decimal
  match ← peek with
  | none => fault .countUnclosed (← spanFrom start)
  | some ',' =>
    advanceInCount start
    if (← peek) = some '}' then return (← given least, none)
    else
      let least ← given least
      return (least, some (← given (← decimal)))
  | some _ =>
    let least ← given least
    return (least, some least)

/-- Reads a counted repetition.  Its opening brace comes next. -/
def counted (items : List Tree) : Reader (List Tree) := do
  let start ← place
  let (item, items) ← lastItem items
  advanceInCount start
  let (least, most) ← countBounds start
  if (← peek) ≠ some '}' then fault .countUnclosed (← spanFrom start)
  advanceAndSkip
  shortMark
  if most.any (· < least) then fault .countRange (← spanFrom start)
  return .repeated item least most :: items

/-! ## Groups -/

/-- Whether the character may begin the name of a group. -/
def isNameStart (c : Char) : Bool :=
  c = '_' || c.isAlpha || ('\x7f' < c && !Text.isBlank c)

/-- Whether the character may stand in the name of a group. -/
def isNameChar (c : Char) : Bool :=
  isNameStart c || c.isDigit || c = '.' || c = '[' || c = ']'

/-- Reads the name of a group, up to the bracket behind it.  Names differ. -/
def groupName : Reader Unit := do
  let start ← place
  if let some c ← peek then
    if c ≠ '>' && !isNameStart c then fault .nameInvalid (← charSpan)
  let name := (← get).rest.takeWhile isNameChar
  advance name.length
  match ← peek with
  | none => fault .nameUnfinished (← emptySpan)
  | some '>' =>
    let span ← spanFrom start
    advance 1
    if name.isEmpty then fault .nameEmpty ⟨start, start⟩
    let name := String.ofList name
    if let some other := (← get).names.lookup name then fault .nameDuplicate span other
    modify fun c => { c with names := (name, span) :: c.names }
  | some _ => fault .nameInvalid (← charSpan)

/-- What a group switches: modes, and with `none` the sense of switching.  Each
is one character. -/
abbrev Switches := List (Option Mode × Span)

/-- The changes of modes that switches ask for. -/
def changesOf : (on : Bool) → Switches → ModeChanges
  | _, [] => []
  | _, (none, _) :: rest => changesOf false rest
  | on, (some mode, _) :: rest => (mode, on) :: changesOf on rest

/-- Reads switches up to the character behind them.  `fuel` bounds their
number. -/
def switches : (fuel : Nat) → Switches → Reader Switches
  | 0, _ => do fault .flagUnfinished (← emptySpan)
  | fuel + 1, read => do
    match ← peek with
    | none => fault .flagUnfinished (← emptySpan)
    | some c =>
      if c = ':' || c = ')' then
        match read.getLast? with
        | some (none, span) => fault .flagDangling span
        | _ => return read
      let span ← charSpan
      let mode := if c = '-' then none else Mode.ofLetter? c
      if mode.isNone ∧ c ≠ '-' then fault .flagUnknown span
      if let some other := read.lookup mode then
        fault (if mode.isNone then .flagNegations else .flagDuplicate) span other
      advance 1
      switches fuel (read ++ [(mode, span)])

/-- Switches a mode of reading. -/
def applySpacing (changes : ModeChanges) : Reader Unit :=
  if let some on := changes.lookup .spaced then modify fun c => { c with spaced := on }
  else return

/-- Whether a group looks around, which is refused. -/
def looksAround : Reader Bool := do
  if ← accept "?=" then return true
  if ← accept "?!" then return true
  if ← accept "?<=" then return true
  accept "?<!"

/-- The start of a group. -/
inductive GroupStart where
  /-- There is no group, but modes are changed. -/
  | modes (changes : ModeChanges)
  | group (changes : ModeChanges)

/-- Reads the start of a group.  `opening` is the bracket, which has been
read. -/
def groupStart (opening : Span) : Reader GroupStart := do
  skip
  if ← looksAround then fault .lookAround (← spanFrom opening.start)
  let inner ← emptySpan
  if (← accept "?P<") || (← accept "?<") then
    groupName
    return .group []
  if ← accept "?" then
    if (← peek).isNone then fault .groupUnclosed opening
    let read ← switches ((← get).rest.length + 1) []
    let changes := changesOf true read
    let modesOnly := (← peek) = some ')'
    advance 1
    if modesOnly ∧ read.isEmpty then fault .nothingToRepeat inner
    return if modesOnly then .modes changes else .group changes
  return .group []

/-! ## Patterns -/

/-- The items of a sequence, the last one first, as a pattern. -/
def sequenceOf (items : List Tree) : Tree :=
  match items with
  | [] => .empty
  | last :: items => items.foldl (fun tree item => .sequence item tree) last

/-- A choice between sequences.  The last sequence and the last choice come
first. -/
def choiceOf (items : List Tree) (choices : List Tree) : Tree :=
  choices.foldl (fun tree choice => .either choice tree) (sequenceOf items)

/-- Reads something that is written without brackets. -/
def primitive (c : Char) : Reader Tree := do
  if c = '\\' then return (← escape).1
  let span ← charSpan
  advance 1
  return match c with
    | '.' => .dot span
    | '^' => .assertion .start
    | '$' => .assertion .stop
    | c => .literal { char := c, span }

/-- Reads a pattern to its end, or to the bracket that closes the group opened
by `opening`.  `choices` and `items` hold what has been read, the last first.
`fuel` bounds the number of items. -/
def pattern :
    (fuel : Nat) → (opening : Option Span) → (choices items : List Tree) → Reader Tree
  | 0, _, choices, items => return choiceOf items choices
  | fuel + 1, opening, choices, items => do
    skip
    match ← peek with
    | none =>
      match opening with
      | some span => fault .groupUnclosed span
      | none => return choiceOf items choices
    | some ')' =>
      if opening.isNone then fault .groupUnopened (← charSpan)
      return choiceOf items choices
    | some '(' =>
      let span ← charSpan
      let spaced := (← get).spaced
      advance 1
      match ← groupStart span with
      | .modes changes =>
        applySpacing changes
        pattern fuel opening choices (.modes changes :: items)
      | .group changes =>
        applySpacing changes
        let inner ← pattern fuel (some span) [] []
        modify fun c => { c with spaced }
        advance 1
        pattern fuel opening choices (.group changes inner :: items)
    | some '|' =>
      advance 1
      pattern fuel opening (sequenceOf items :: choices) []
    | some '[' => pattern fuel opening choices (.set (← bracketed) :: items)
    | some '?' => pattern fuel opening choices (← sign 0 (some 1) items)
    | some '*' => pattern fuel opening choices (← sign 0 none items)
    | some '+' => pattern fuel opening choices (← sign 1 none items)
    | some '\x7b' => pattern fuel opening choices (← counted items)
    | some c => pattern fuel opening choices ((← primitive c) :: items)

end Reader

/-- Reads a pattern. -/
def Tree.read (text : String) : Except Fault Tree := do
  let cs := text.toList
  let (tree, _) ← Reader.pattern (cs.length + 1) none [] [] { rest := cs }
  return tree

end Handheld.Pattern
