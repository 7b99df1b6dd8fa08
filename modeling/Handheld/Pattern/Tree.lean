import Handheld.Pattern.CharSet
import Handheld.Pattern.Fault

/-!
# Patterns as they are written

The structure of a pattern, before it is decided what its parts stand for: that
depends on the modes that hold where they are written.
-/

namespace Handheld.Pattern

/-! ## Modes -/

/-- A mode that can be switched on and off within a pattern. -/
inductive Mode where
  /-- Letters stand for both cases. -/
  | ignoreCase
  /-- Lines have starts and ends, and not only the text. -/
  | lines
  /-- A dot stands also for a line break. -/
  | dotAll
  /-- Repetitions are short by default.  This does not change what is found. -/
  | short
  /-- Characters are those of Unicode, and not bytes. -/
  | unicode
  /-- A carriage return belongs to a line break. -/
  | carriageReturn
  /-- Blanks and comments in the pattern are passed over. -/
  | spaced
  deriving DecidableEq, Repr, Inhabited

/-- The mode of a letter. -/
def Mode.ofLetter? : Char → Option Mode
  | 'i' => some ignoreCase
  | 'm' => some lines
  | 's' => some dotAll
  | 'U' => some short
  | 'u' => some unicode
  | 'R' => some carriageReturn
  | 'x' => some spaced
  | _ => none

/-- Modes that are switched on or off. -/
abbrev ModeChanges := List (Mode × Bool)

/-! ## Characters and sets -/

/-- A character that stands for itself. -/
structure Literal where
  char : Char
  span : Span
  /-- Whether it is written as the number of a byte. -/
  isByte : Bool := false
  deriving DecidableEq, Repr, Inhabited

/-- A class of characters with a short name. -/
inductive ShortClass where
  | digit
  | space
  | word
  deriving DecidableEq, Repr, Inhabited

namespace ShortClass

/-- The class of a letter. -/
def ofLetter? : Char → Option ShortClass
  | 'd' | 'D' => some digit
  | 's' | 'S' => some space
  | 'w' | 'W' => some word
  | _ => none

/-- The characters of the class in ASCII. -/
def set : ShortClass → CharSet
  | digit => .range '0' '9'
  | space => (CharSet.range '\t' '\r').union (.single ' ')
  | word => ((CharSet.range '0' '9').union (CharSet.lower.union .upper)).union (.single '_')

end ShortClass

/-- The class of ASCII with a name. -/
def namedSet? : String → Option CharSet
  | "alnum" => some ((CharSet.range '0' '9').union (CharSet.lower.union .upper))
  | "alpha" => some (CharSet.lower.union .upper)
  | "ascii" => some (.range '\x00' '\x7f')
  | "blank" => some ((CharSet.single '\t').union (.single ' '))
  | "cntrl" => some ((CharSet.range '\x00' '\x1f').union (.single '\x7f'))
  | "digit" => some ShortClass.digit.set
  | "graph" => some (.range '!' '~')
  | "lower" => some .lower
  | "print" => some (.range ' ' '~')
  | "punct" => some (((CharSet.range '!' '/').union (.range ':' '@')).union
      ((CharSet.range '[' '\x60').union (.range '\x7b' '~')))
  | "space" => some ShortClass.space.set
  | "upper" => some .upper
  | "word" => some ShortClass.word.set
  | "xdigit" =>
    some ((CharSet.range '0' '9').union ((CharSet.range 'a' 'f').union (.range 'A' 'F')))
  | _ => none

/-- How two sets are combined. -/
inductive SetOperation where
  | intersection
  | difference
  | symmetricDifference
  deriving DecidableEq, Repr, Inhabited

/-- The set that an operation makes of two sets. -/
def SetOperation.apply : SetOperation → CharSet → CharSet → CharSet
  | intersection => .intersection
  | difference => .difference
  | symmetricDifference => .symmetricDifference

/-- A set of characters as it is written. -/
inductive SetTree where
  | nothing
  | single (literal : Literal)
  | range (first last : Literal)
  /-- A class of ASCII. -/
  | named (span : Span) (negated : Bool) (set : CharSet)
  | short (span : Span) (negated : Bool) (name : ShortClass)
  /-- The characters with a property; `key` is `none` where the property is
  written with a value. -/
  | property (span : Span) (key : Option String)
  | nested (span : Span) (negated : Bool) (inner : SetTree)
  | union (first second : SetTree)
  | combined (operation : SetOperation) (first : SetTree) (firstSpan : Span)
      (second : SetTree) (secondSpan : Span)
  deriving DecidableEq, Repr, Inhabited

/-! ## Patterns -/

/-- A condition on what stands before and behind a place. -/
inductive Assertion where
  /-- The start of the text or, by mode, of a line. -/
  | start
  /-- The end of the text or, by mode, of a line. -/
  | stop
  | textStart
  | textStop
  | wordBoundary
  | notWordBoundary
  | wordStart
  | wordStop
  /-- Where no word goes on from before. -/
  | wordStartHalf
  /-- Where no word goes on behind. -/
  | wordStopHalf
  deriving DecidableEq, Repr, Inhabited

/-- The assertion with a name. -/
def Assertion.ofName? : String → Option Assertion
  | "start" => some wordStart
  | "end" => some wordStop
  | "start-half" => some wordStartHalf
  | "end-half" => some wordStopHalf
  | _ => none

/-- A pattern as it is written. -/
inductive Tree where
  | empty
  | literal (literal : Literal)
  | dot (span : Span)
  | assertion (assertion : Assertion)
  | set (set : SetTree)
  /-- Modes that hold from here to the end of the group. -/
  | modes (changes : ModeChanges)
  /-- A group with modes of its own. -/
  | group (changes : ModeChanges) (inner : Tree)
  | repeated (inner : Tree) (least : Nat) (most : Option Nat)
  | sequence (first second : Tree)
  | either (first second : Tree)
  deriving DecidableEq, Repr, Inhabited

/-- Whether something can be repeated. -/
def Tree.isRepeatable : Tree → Bool
  | empty | modes _ => false
  | _ => true

end Handheld.Pattern
