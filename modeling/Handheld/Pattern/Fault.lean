import Handheld.Text.Field

/-!
# Faults of patterns

A pattern that cannot be used has a fault: of some kind, at some part of the
pattern.  The report on it shows the pattern with that part underlined.
-/

namespace Handheld.Pattern

/-- A part of a pattern: its characters from one place up to another. -/
structure Span where
  start : Nat
  stop : Nat
  deriving DecidableEq, Repr, Inhabited

/-- What is wrong with a part of a pattern. -/
inductive FaultKind where
  | classEscape
  | classRange
  | classBoundary
  | classUnclosed
  | decimalInvalid
  | hexEmpty
  | hexScalar
  | hexDigit
  | escapeUnfinished
  | escapeUnknown
  | flagDangling
  | flagDuplicate
  | flagNegations
  | flagUnfinished
  | flagUnknown
  | nameDuplicate
  | nameEmpty
  | nameInvalid
  | nameUnfinished
  | groupUnclosed
  | groupUnopened
  | countRange
  | countEmpty
  | countUnclosed
  | nothingToRepeat
  | wordUnclosed
  | wordUnknown
  | wordUnfinished
  | propertySyntax
  | backreference
  | lookAround
  | unicodeRefused
  | notUtf8
  | propertyUnknown
  | propertyValueUnknown
  | classUnavailable
  | caseUnavailable
  deriving DecidableEq, Repr, Inhabited

/-- The kind of fault in words. -/
def FaultKind.text : FaultKind → String
  | classEscape => "invalid escape sequence found in character class"
  | classRange => "invalid character class range, the start must be <= the end"
  | classBoundary => "invalid range boundary, must be a literal"
  | classUnclosed => "unclosed character class"
  | decimalInvalid => "decimal literal invalid"
  | hexEmpty => "hexadecimal literal empty"
  | hexScalar => "hexadecimal literal is not a Unicode scalar value"
  | hexDigit => "invalid hexadecimal digit"
  | escapeUnfinished => "incomplete escape sequence, reached end of pattern prematurely"
  | escapeUnknown => "unrecognized escape sequence"
  | flagDangling => "dangling flag negation operator"
  | flagDuplicate => "duplicate flag"
  | flagNegations => "flag negation operator repeated"
  | flagUnfinished => "expected flag but got end of regex"
  | flagUnknown => "unrecognized flag"
  | nameDuplicate => "duplicate capture group name"
  | nameEmpty => "empty capture group name"
  | nameInvalid => "invalid capture group character"
  | nameUnfinished => "unclosed capture group name"
  | groupUnclosed => "unclosed group"
  | groupUnopened => "unopened group"
  | countRange => "invalid repetition count range, the start must be <= the end"
  | countEmpty => "repetition quantifier expects a valid decimal"
  | countUnclosed => "unclosed counted repetition"
  | nothingToRepeat => "repetition operator missing expression"
  | wordUnclosed =>
    "special word boundary assertion is either unclosed or contains an invalid character"
  | wordUnknown =>
    "unrecognized special word boundary assertion, valid choices are: " ++
      "start, end, start-half or end-half"
  | wordUnfinished =>
    "found either the beginning of a special word boundary or a bounded repetition on a \\b " ++
      "with an opening brace, but no closing brace"
  | propertySyntax => "invalid Unicode character class"
  | backreference => "backreferences are not supported"
  | lookAround => "look-around, including look-ahead and look-behind, is not supported"
  | unicodeRefused => "Unicode not allowed here"
  | notUtf8 => "pattern can match invalid UTF-8"
  | propertyUnknown => "Unicode property not found"
  | propertyValueUnknown => "Unicode property value not found"
  | classUnavailable =>
    "Unicode-aware Perl class not found (make sure the unicode-perl feature is enabled)"
  | caseUnavailable =>
    "Unicode-aware case insensitivity matching is not available " ++
      "(make sure the unicode-case feature is enabled)"

/-- A fault of a pattern. -/
structure Fault where
  kind : FaultKind
  span : Span
  /-- The part of the pattern that the fault is about as well. -/
  other : Option Span := none
  deriving DecidableEq, Repr, Inhabited

/-! ## Reports -/

/-- The line and the column of a place, both counted from zero. -/
structure Position where
  line : Nat
  column : Nat
  deriving DecidableEq, Repr, Inhabited

/-- The position behind a character. -/
def Position.behind (p : Position) (c : Char) : Position :=
  if c = '\n' then { line := p.line + 1, column := 0 } else { p with column := p.column + 1 }

/-- The position of a place in a text. -/
def positionOf (text : String) (place : Nat) : Position :=
  (text.toList.take place).foldl Position.behind { line := 0, column := 0 }

/-- The lines of a text.  A line break at the end begins no line. -/
def linesOf (text : String) : List String :=
  match (text.splitOn "\n").reverse with
  | [] => []
  | last :: lines =>
    lines.reverse.map (fun line => if line.endsWith "\r" then (line.dropEnd 1).toString else line)
      ++ if last.isEmpty then [] else [last]

/-- The line that marks parts of a line, given from left to right.  An empty
part is marked like one character. -/
def marks : (column : Nat) → List (Position × Position) → String
  | _, [] => ""
  | column, (start, stop) :: rest =>
    let count := max 1 (stop.column - start.column)
    Text.blanks (start.column - column) ++ .ofList (List.replicate count '^') ++
      marks (max column start.column + count) rest

/-- The parts of a pattern that a fault is about, from left to right. -/
def Fault.parts (pattern : String) (f : Fault) : List (Position × Position) :=
  let spans := match f.other with
    | none => [f.span]
    | some other => if other.start ≤ f.span.start then [other, f.span] else [f.span, other]
  spans.map fun span => (positionOf pattern span.start, positionOf pattern span.stop)

/-- A line of a pattern, with the marks below it.  Behind the margin the line
begins. -/
def markedLine (margin line : String) (parts : List (Position × Position)) : List String :=
  (margin ++ line) :: if parts.isEmpty then [] else [Text.blanks margin.length ++ marks 0 parts]

/-- The lines of a pattern, with marks below the parts that lie within a line. -/
def markedLines (margin : Nat → String) (pattern : String) (parts : List (Position × Position)) :
    List String :=
  (linesOf pattern).zipIdx.flatMap fun (line, i) =>
    markedLine (margin i) line
      (parts.filter fun (start, stop) => start.line = i ∧ stop.line = i)

/-- The number of a line, in a margin as wide as the greatest number needs. -/
def numberMargin (count i : Nat) : String :=
  Text.Field.lay { alignment := .right, width := (toString count).length } (toString (i + 1))
    ++ ": "

/-- A note on a part that several lines share. -/
def longNote (start stop : Position) : String :=
  "on line " ++ toString (start.line + 1) ++ " (column " ++ toString (start.column + 1) ++
    ") through line " ++ toString (stop.line + 1) ++ " (column " ++ toString stop.column ++ ")"

/-- The report on a fault. -/
def Fault.report (pattern : String) (f : Fault) : String :=
  let parts := f.parts pattern
  let error := "error: " ++ f.kind.text
  let count := (pattern.splitOn "\n").length
  let lines :=
    if count = 1 then markedLines (fun _ => Text.blanks 4) pattern parts
    else
      let divider := String.ofList (List.replicate 79 '~')
      let long := parts.filter fun (start, stop) => start.line ≠ stop.line
      divider :: markedLines (numberMargin count) pattern parts ++
        divider :: long.map fun (start, stop) => longNote start stop
  "\n".intercalate ("regex parse error:" :: lines ++ [error])

end Handheld.Pattern
