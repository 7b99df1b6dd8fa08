import Handheld.Pattern.CharSet

/-!
# Regular expressions

What patterns stand for, and where an expression occurs in a text.

The places of a text lie before its first character, between two characters, and
behind its last one.  An expression leads from some places to others: from the
places where an occurrence begins to those where it ends.
-/

namespace Handheld.Pattern

/-! ## Places -/

/-- What stands before and behind a place. -/
structure Sides where
  before : Option Char
  behind : Option Char
  deriving DecidableEq, Repr, Inhabited

/-- The sides of the places in a text, from the first to the last. -/
def sidesFrom (before : Option Char) : List Char → List Sides
  | [] => [⟨before, none⟩]
  | c :: rest => ⟨before, some c⟩ :: sidesFrom (some c) rest

/-- Whether the character is a letter or a digit of ASCII, or an underscore. -/
def isWordChar (c : Char) : Bool := c.isAlphanum || c = '_'

namespace Sides

/-- Whether a word goes on before the place. -/
def wordBefore (s : Sides) : Bool := s.before.any isWordChar

/-- Whether a word goes on behind the place. -/
def wordBehind (s : Sides) : Bool := s.behind.any isWordChar

end Sides

/-- A condition on a place. -/
inductive Look where
  | textStart
  | textStop
  | lineStart
  | lineStop
  /-- The start of a line, where a carriage return also ends lines. -/
  | returnStart
  /-- The end of a line, where a carriage return also ends lines. -/
  | returnStop
  | wordBoundary
  | notWordBoundary
  | wordStart
  | wordStop
  | wordStartHalf
  | wordStopHalf
  /-- A condition on words of Unicode.  There is no table of their letters. -/
  | unicodeWord
  deriving DecidableEq, Repr, Inhabited

/-- Whether a place fulfils a condition. -/
def Look.holds (l : Look) (s : Sides) : Bool :=
  match l with
  | textStart => s.before.isNone
  | textStop => s.behind.isNone
  | lineStart => s.before.all (· = '\n')
  | lineStop => s.behind.all (· = '\n')
  | returnStart =>
    s.before.all fun c => c = '\n' || (c = '\r' && s.behind ≠ some '\n')
  | returnStop =>
    s.behind.all fun c => c = '\r' || (c = '\n' && s.before ≠ some '\r')
  | wordBoundary => s.wordBefore != s.wordBehind
  | notWordBoundary => s.wordBefore == s.wordBehind
  | wordStart => !s.wordBefore && s.wordBehind
  | wordStop => s.wordBefore && !s.wordBehind
  | wordStartHalf => !s.wordBefore
  | wordStopHalf => !s.wordBehind
  | unicodeWord => false

/-! ## Expressions -/

/-- A regular expression. -/
inductive Expression where
  | empty
  | oneOf (set : CharSet)
  | look (condition : Look)
  | sequence (first second : Expression)
  | either (first second : Expression)
  /-- A number of occurrences one behind the other; `none` is no limit. -/
  | repeated (inner : Expression) (least : Nat) (most : Option Nat)
  deriving DecidableEq, Repr, Inhabited

/-- Whether no condition needs a table that there is not.  What is repeated
zero times does not count. -/
def Expression.isSupported : Expression → Bool
  | look condition => condition ≠ .unicodeWord
  | sequence first second | either first second => first.isSupported && second.isSupported
  | repeated inner _ most => most = some 0 || inner.isSupported
  | _ => true

/-! ## Size -/

/-- How many states an automaton needs for a character of a set.  It looks at
bytes, of which a character outside ASCII takes several. -/
def CharSet.size (s : CharSet) : Nat :=
  match s.ranges with
  | [(first, last)] =>
    if last < 0x80 then 1
    else if first = last then (if first < 0x800 then 2 else if first < 0x10000 then 3 else 4)
    else 14
  | _ => if s.isAscii then 2 else 14

namespace Expression

/-- Whether no occurrence of the expression takes a character. -/
def isStill : Expression → Bool
  | empty | look _ => true
  | oneOf _ => false
  | sequence first second | either first second => first.isStill && second.isStill
  | repeated inner _ most => most = some 0 || inner.isStill

/-- How many states an automaton for the expression has.  What is repeated has
states of its own each time, unless it takes no character. -/
def size : Expression → Nat
  | empty | look _ => 1
  | oneOf set => set.size
  | sequence first second => first.size + second.size
  | either first second => first.size + second.size + 1
  | repeated inner least most =>
    match most with
    | some 0 => 1
    | some most => if inner.isStill then inner.size else most * inner.size + (most - least)
    | none => if inner.isStill then inner.size else max least 1 * inner.size + 1

/-- The greatest size of an automaton, in bytes. -/
def maxBytes : Nat := 10485760

/-- Whether an automaton for the expression is too large.  A state takes 32
bytes. -/
def isTooLarge (e : Expression) : Bool := maxBytes < 32 * e.size

end Expression

/-! ## Occurrences -/

/-- For each place of a text, whether it is marked. -/
abbrev Marked := List Bool

namespace Marked

/-- The places that one of two has marked. -/
def union (a b : Marked) : Marked := a.zipWith (· || ·) b

/-- The places behind a character of a set, if the place before it is marked. -/
def step (set : CharSet) (text : List Char) (m : Marked) : Marked :=
  false :: m.zipWith (fun marked c => marked && set.contains c) text

/-- The marked places that fulfil a condition. -/
def filter (l : Look) (text : List Char) (m : Marked) : Marked :=
  m.zipWith (fun marked sides => marked && l.holds sides) (sidesFrom none text)

/-- What a function leads to in at most so many steps. -/
def upTo (f : Marked → Marked) : (steps : Nat) → Marked → Marked
  | 0, m => m
  | steps + 1, m =>
    let next := m.union (f m)
    if next = m then m else upTo f steps next

/-- What a function leads to in exactly so many steps. -/
def exactly (f : Marked → Marked) : (steps : Nat) → Marked → Marked
  | 0, m => m
  | steps + 1, m => exactly f steps (f m)

end Marked

/-- The places where occurrences end that begin at marked places.  An expression
never leads backwards, so of more repetitions than there are places at least one
stays where it is: one more makes no difference then. -/
def Expression.reach (text : List Char) : Expression → Marked → Marked
  | empty, m => m
  | oneOf set, m => m.step set text
  | look condition, m => m.filter condition text
  | sequence first second, m => second.reach text (first.reach text m)
  | either first second, m => (first.reach text m).union (second.reach text m)
  | repeated inner least most, m =>
    let limit := text.length + 1
    let more := match most with
      | some most => min (most - least) limit
      | none => limit
    Marked.upTo (inner.reach text) more (Marked.exactly (inner.reach text) (min least limit) m)

/-- Whether the expression occurs somewhere in a text. -/
def Expression.occursIn (e : Expression) (text : String) : Bool :=
  let cs := text.toList
  (e.reach cs (List.replicate (cs.length + 1) true)).any id

end Handheld.Pattern
