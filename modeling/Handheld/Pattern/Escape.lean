import Handheld.Pattern.Cursor
import Handheld.Pattern.Tree
import Handheld.Text.Hex

/-!
# Escapes

What a backslash and the characters behind it stand for: a character, an
assertion or a class of characters.
-/

namespace Handheld.Pattern.Reader

/-- Something that is written without brackets: what it stands for, and its
part of the pattern. -/
abbrev Primitive := Tree × Span

/-! ## Characters by number -/

/-- Whether the character is a hexadecimal digit. -/
def isHexDigit (c : Char) : Bool := (Text.hexValue? c).isSome

/-- The character that hexadecimal digits write. -/
def charOfDigits (digits : List Char) (span : Span) : Reader Char :=
  match (Text.hexNumber? digits).bind Text.charOfCode? with
  | some c => return c
  | none => fault .hexScalar span

/-- Reads a number of hexadecimal digits. -/
def hexDigits : (count : Nat) → Reader (List Char)
  | 0 => return []
  | count + 1 => do
    match ← peek with
    | none => fault .escapeUnfinished (← emptySpan)
    | some c =>
      if isHexDigit c then
        advanceAndSkip
        return c :: (← hexDigits count)
      else fault .hexDigit (← charSpan)

/-- Reads hexadecimal digits between braces. -/
def hexBraces : Reader Char := do
  let brace ← place
  advanceAndSkip
  let digits ← runOf isHexDigit
  match ← peek with
  | none => fault .escapeUnfinished (← spanFrom brace)
  | some c =>
    if c ≠ '}' then fault .hexDigit (← charSpan)
    let stop ← place
    advanceAndSkip
    if digits.isEmpty then fault .hexEmpty (← spanFrom brace)
    charOfDigits digits ⟨brace + 1, stop⟩

/-- How many hexadecimal digits follow a letter. -/
def hexCount : Char → Nat
  | 'x' => 2
  | 'u' => 4
  | _ => 8

/-- Reads a character by number.  The letter comes next; the backslash was at
`start`. -/
def hex (start : Nat) (letter : Char) : Reader Primitive := do
  advanceAndSkip
  if (← peek) = some '\x7b' then
    let c ← hexBraces
    let span ← spanFrom start
    return (.literal { char := c, span }, span)
  else
    let first ← place
    let digits ← hexDigits (hexCount letter)
    let c ← charOfDigits digits (← spanFrom first)
    let span ← spanFrom start
    return (.literal { char := c, span, isByte := letter = 'x' }, span)

/-! ## Properties -/

/-- The key of a property: its name in lower-case letters, without the marks
between words and without the word that may stand in front. -/
def propertyKey (name : List Char) : String :=
  let letters := (name.filter fun c => c ≠ ' ' && c ≠ '_' && c ≠ '-').map Char.toLower
  .ofList (if ['i', 's'].isPrefixOf letters then letters.drop 2 else letters)

/-- Reads a property, given by a letter or by a name between braces. -/
def property (start : Nat) : Reader Primitive := do
  advanceAndSkip
  match ← peek with
  | none => fault .escapeUnfinished (← emptySpan)
  | some '\\' => fault .propertySyntax (← charSpan)
  | some '\x7b' =>
    advanceAndSkip
    let name ← runOf (· ≠ '}')
    if (← peek).isNone then fault .escapeUnfinished (← emptySpan)
    advance 1
    let span ← spanFrom start
    let plain := name.all fun c => c ≠ ':' && c ≠ '='
    return (.set (.property span (if plain then some (propertyKey name) else none)), span)
  | some c =>
    advanceAndSkip
    let span ← spanFrom start
    return (.set (.property span (some (propertyKey [c]))), span)

/-! ## Word boundaries -/

/-- Whether the character may stand in the name of an assertion. -/
def isWordLetter (c : Char) : Bool := c.isAlpha || c = '-'

/-- Reads the name of an assertion between braces, if it looks like one.  A
brace that other characters follow begins a repetition. -/
def wordAssertion? (start : Nat) : Reader (Option Assertion) := do
  let before ← get
  advanceAndSkip
  let first ← place
  match ← peek with
  | none => fault .wordUnfinished (← spanFrom start)
  | some c =>
    if !isWordLetter c then
      set before
      return none
    let name ← runOf isWordLetter
    if (← peek) ≠ some '}' then fault .wordUnclosed (← spanFrom before.place)
    let span ← spanFrom first
    advance 1
    match Assertion.ofName? (.ofList name) with
    | some a => return some a
    | none => fault .wordUnknown span

/-- Reads what may follow the mark of a word boundary. -/
def wordBoundary (start : Nat) : Reader Primitive := do
  let named ← if (← peek) = some '\x7b' then wordAssertion? start else pure none
  return (.assertion (named.getD .wordBoundary), ← spanFrom start)

/-! ## All escapes -/

/-- The control character that a letter stands for. -/
def controlOf? : Char → Option Char
  | 'a' => some '\x07'
  | 'f' => some '\x0c'
  | 't' => some '\t'
  | 'n' => some '\n'
  | 'r' => some '\r'
  | 'v' => some '\x0b'
  | _ => none

/-- The assertion that a letter stands for. -/
def assertionOf? : Char → Option Assertion
  | 'A' => some .textStart
  | 'z' => some .textStop
  | 'B' => some .notWordBoundary
  | '<' => some .wordStart
  | '>' => some .wordStop
  | _ => none

/-- Whether the character stands for itself behind a backslash. -/
def isEscapable (c : Char) : Bool :=
  c < '\x80' && !c.isAlphanum && c ≠ '<' && c ≠ '>'

/-- Reads an escape with one letter. -/
def letterEscape (start : Nat) (letter : Char) : Reader Primitive := do
  advance 1
  let span ← spanFrom start
  if isEscapable letter then return (.literal { char := letter, span }, span)
  match controlOf? letter, assertionOf? letter with
  | some c, _ => return (.literal { char := c, span }, span)
  | none, some a => return (.assertion a, span)
  | none, none =>
    if letter = 'b' then wordBoundary start else fault .escapeUnknown span

/-- Reads an escape.  Its backslash comes next. -/
def escape : Reader Primitive := do
  let start ← place
  advance 1
  match ← peek with
  | none => fault .escapeUnfinished (← spanFrom start)
  | some c =>
    if c.isDigit then fault .backreference ⟨start, start + 2⟩
    else if c = 'x' || c = 'u' || c = 'U' then hex start c
    else if c = 'p' || c = 'P' then property start
    else
      match ShortClass.ofLetter? c with
      | some name =>
        advance 1
        let span ← spanFrom start
        return (.set (.short span c.isUpper name), span)
      | none => letterEscape start c

end Handheld.Pattern.Reader
