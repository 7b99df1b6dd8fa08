import Handheld.Pattern.Expression
import Handheld.Pattern.Reader

/-!
# What patterns mean

The modes decide what the parts of a pattern stand for.  There are no tables of
Unicode: whatever would need one is a fault, unless the mode is switched to that
of bytes.  Bytes must not tear the encoding of a character apart.
-/

namespace Handheld.Pattern

/-- The modes that hold at a place in a pattern. -/
structure Modes where
  ignoreCase : Bool := false
  lines : Bool := false
  dotAll : Bool := false
  unicode : Bool := true
  carriageReturn : Bool := false
  deriving DecidableEq, Repr, Inhabited

namespace Modes

/-- Switches a mode. -/
def set (m : Modes) (mode : Mode) (on : Bool) : Modes :=
  match mode with
  | .ignoreCase => { m with ignoreCase := on }
  | .lines => { m with lines := on }
  | .dotAll => { m with dotAll := on }
  | .unicode => { m with unicode := on }
  | .carriageReturn => { m with carriageReturn := on }
  | .short | .spaced => m

/-- Switches several modes. -/
def change (m : Modes) (changes : ModeChanges) : Modes :=
  changes.foldl (fun m change => m.set change.1 change.2) m

/-- What a dot stands for. -/
def dot (m : Modes) : CharSet :=
  if m.dotAll then .all
  else if m.carriageReturn then CharSet.all.difference ((CharSet.single '\n').union (.single '\r'))
  else CharSet.all.difference (.single '\n')

/-- The condition of an assertion. -/
def condition (m : Modes) : Assertion → Look
  | .textStart => .textStart
  | .textStop => .textStop
  | .start =>
    if m.lines then (if m.carriageReturn then .returnStart else .lineStart) else .textStart
  | .stop => if m.lines then (if m.carriageReturn then .returnStop else .lineStop) else .textStop
  | .wordBoundary => if m.unicode then .unicodeWord else .wordBoundary
  | .notWordBoundary => if m.unicode then .unicodeWord else .notWordBoundary
  | .wordStart => if m.unicode then .unicodeWord else .wordStart
  | .wordStop => if m.unicode then .unicodeWord else .wordStop
  | .wordStartHalf => if m.unicode then .unicodeWord else .wordStartHalf
  | .wordStopHalf => if m.unicode then .unicodeWord else .wordStopHalf

end Modes

/-- A fault, found while the meaning is looked for. -/
def refuse {α : Type} (kind : FaultKind) (span : Span) : Except Fault α :=
  .error { kind, span }

/-! ## Sets -/

/-- The set in both cases, where case is ignored. -/
def Modes.foldCase (m : Modes) (span : Span) (s : CharSet) : Except Fault CharSet :=
  if m.ignoreCase then
    if m.unicode then (if s.isEmpty then .ok s else refuse .caseUnavailable span)
    else .ok s.foldCase
  else .ok s

/-- The set, or the characters outside it. -/
def Modes.negateIf (m : Modes) (negated : Bool) (span : Span) (s : CharSet) :
    Except Fault CharSet :=
  if m.unicode then .ok (if negated then CharSet.all.difference s else s)
  else
    let s := if negated then CharSet.bytes.difference s else s
    if s.isAscii then .ok s else refuse .notUtf8 span

/-- The set in both cases, where case is ignored, or the characters outside
it. -/
def Modes.foldAndNegate (m : Modes) (negated : Bool) (span : Span) (s : CharSet) :
    Except Fault CharSet := do
  m.negateIf negated span (← m.foldCase span s)

/-- The character that a literal stands for.  The number of a byte must be that
of a character. -/
def Literal.meaning (m : Modes) (l : Literal) : Except Fault Char :=
  if !m.unicode && l.isByte && '\x7f' < l.char then refuse .notUtf8 l.span else .ok l.char

/-- The character that a literal in a set stands for. -/
def Literal.inSet (m : Modes) (l : Literal) : Except Fault Char := do
  let c ← l.meaning m
  if !m.unicode && '\x7f' < c then refuse .unicodeRefused l.span else return c

/-- Why a property cannot be used.  Some names could also be values of the
property that tells categories. -/
def propertyFault (key : Option String) : FaultKind :=
  if key = some "cf" ∨ key = some "lc" ∨ key = some "sc" then .propertyValueUnknown
  else .propertyUnknown

/-- The set that is written. -/
def SetTree.meaning (m : Modes) : SetTree → Except Fault CharSet
  | .nothing => .ok .none
  | .single l => return .single (← l.inSet m)
  | .range first last => do
    let first ← first.inSet m
    let last ← last.inSet m
    return .range first last
  | .named span negated set => m.foldAndNegate negated span set
  | .short span negated name =>
    if m.unicode then refuse .classUnavailable span else m.negateIf negated span name.set
  | .property span key => refuse (if m.unicode then propertyFault key else .unicodeRefused) span
  | .nested span negated inner => do m.foldAndNegate negated span (← inner.meaning m)
  | .union first second => do
    let first ← first.meaning m
    let second ← second.meaning m
    return first.union second
  | .combined operation first firstSpan second secondSpan => do
    let first ← first.meaning m
    let second ← second.meaning m
    let second ← m.foldCase secondSpan second
    let first ← m.foldCase firstSpan first
    return operation.apply first second

/-! ## Patterns -/

/-- The set of a literal, in both cases where case is ignored. -/
def Literal.set (m : Modes) (l : Literal) : Except Fault CharSet := do
  m.foldCase l.span (.single (← l.meaning m))

/-- What a pattern means where modes hold.  Answers also the modes that hold
behind it. -/
def Tree.meaning (m : Modes) : Tree → Except Fault (Expression × Modes)
  | .empty => .ok (.empty, m)
  | .literal l => return (.oneOf (← l.set m), m)
  | .dot span => if m.unicode then .ok (.oneOf m.dot, m) else refuse .notUtf8 span
  | .assertion a => .ok (.look (m.condition a), m)
  | .set s => return (.oneOf (← s.meaning m), m)
  | .modes changes => .ok (.empty, m.change changes)
  | .group changes inner => do
    let (inner, _) ← inner.meaning (m.change changes)
    return (inner, m)
  | .repeated inner least most => do
    let (inner, m) ← inner.meaning m
    return (.repeated inner least most, m)
  | .sequence first second => do
    let (first, m) ← first.meaning m
    let (second, m) ← second.meaning m
    return (.sequence first second, m)
  | .either first second => do
    let (first, m) ← first.meaning m
    let (second, m) ← second.meaning m
    return (.either first second, m)

/-- Reads an expression.  Why it cannot be used is answered in words. -/
def Expression.read (pattern : String) : Except String Expression :=
  match (do (← Tree.read pattern).meaning {}) with
  | .error f => .error (f.report pattern)
  | .ok (e, _) =>
    if e.isTooLarge then
      .error ("Compiled regex exceeds size limit of " ++ toString maxBytes ++ " bytes.")
    else if e.isSupported then .ok e
    else .error "error building NFA"

end Handheld.Pattern
