import Handheld.Pattern.Escape

/-!
# Sets between brackets

A set lists characters, ranges and classes.  Sets may nest, and two operands may
be combined by an operation; operations associate to the left.
-/

namespace Handheld.Pattern

/-- The part of a set that has been read since its start or the last
operation. -/
structure Operand where
  tree : SetTree := .nothing
  span : Span
  deriving Repr, Inhabited

namespace Operand

/-- Adds an item. -/
def add (o : Operand) (item : SetTree) (span : Span) : Operand :=
  match o.tree with
  | .nothing => { tree := item, span }
  | tree => { tree := .union tree item, span := ⟨o.span.start, span.stop⟩ }

/-- Two operands, combined. -/
def combine (operation : SetOperation) (first second : Operand) : Operand where
  tree := .combined operation first.tree first.span second.tree second.span
  span := ⟨first.span.start, second.span.stop⟩

/-- The operand, combined with what stands before it. -/
def close (waiting : Option (SetOperation × Operand)) (o : Operand) : Operand :=
  match waiting with
  | some (operation, first) => combine operation first o
  | none => o

end Operand

/-- The start of a set. -/
structure SetOpening where
  span : Span
  negated : Bool
  /-- What has been read with the start. -/
  operand : Operand
  deriving Repr, Inhabited

/-- A class of ASCII by its name, between brackets and colons.  Answers the set,
whether it is negated, and the number of characters that it takes. -/
def readNamed? (cs : List Char) : Option (CharSet × Bool × Nat) :=
  match cs with
  | '[' :: ':' :: rest => do
    let negated := rest.head? = some '^'
    let rest := if negated then rest.drop 1 else rest
    let name := rest.takeWhile (· ≠ ':')
    guard ([':', ']'].isPrefixOf (rest.drop name.length))
    let set ← namedSet? (.ofList name)
    return (set, negated, name.length + if negated then 5 else 4)
  | _ => none

/-- The next character behind this one.  Where blanks are passed over, so is a
mark of a comment. -/
def Cursor.second (c : Cursor) : Option Char :=
  if c.spaced then
    match (c.rest.drop 1).dropWhile Text.isBlank with
    | '#' :: rest => (rest.dropWhile Text.isBlank).head?
    | rest => rest.head?
  else (c.rest.drop 1).head?

namespace Reader

/-- Reads something that stands for itself, or an escape. -/
def setPrimitive (c : Char) : Reader Primitive := do
  if c = '\\' then escape
  else
    let span ← charSpan
    advance 1
    return (.literal { char := c, span }, span)

/-- An item of a set, if it can be one. -/
def itemOf (p : Primitive) : Reader SetTree :=
  match p.1 with
  | .literal l => return .single l
  | .set s => return s
  | _ => fault .classEscape p.2

/-- A bound of a range, if it can be one. -/
def boundOf (p : Primitive) : Reader Literal :=
  match p.1 with
  | .literal l => return l
  | _ => fault .classBoundary p.2

/-- Reads an item of a set: a character, a range or a class. -/
def setItem (opening : Span) (c : Char) : Reader (SetTree × Span) := do
  let first ← setPrimitive c
  skip
  match ← peek with
  | none => fault .classUnclosed opening
  | some d =>
    let second := (← get).second
    if d ≠ '-' || second = some ']' || second = some '-' then
      return (← itemOf first, first.2)
    advanceAndSkip
    match ← peek with
    | none => fault .classUnclosed opening
    | some d =>
      let last ← setPrimitive d
      let span := ⟨first.2.start, last.2.stop⟩
      let low ← boundOf first
      let high ← boundOf last
      if high.char < low.char then fault .classRange span
      return (.range low high, span)

/-- Reads hyphens at the start of a set, which stand for themselves.  `fuel`
bounds their number. -/
def hyphens (start : Nat) : (fuel : Nat) → Operand → Reader Operand
  | 0, o => return o
  | fuel + 1, o => do
    if (← peek) ≠ some '-' then return o
    let span ← charSpan
    advanceAndSkip
    if (← peek).isNone then fault .classUnclosed ⟨start, start⟩
    hyphens start fuel (o.add (.single { char := '-', span }) span)

/-- Passes over a character at the start of a set; the set must go on. -/
def advanceInSet (start : Nat) : Reader Unit := do
  advanceAndSkip
  if (← peek).isNone then fault .classUnclosed (← spanFrom start)

/-- Reads the start of a set.  Hyphens there and a closing bracket right behind
it stand for themselves. -/
def openSet : Reader SetOpening := do
  let start ← place
  advanceInSet start
  let negated := (← peek) = some '^'
  if negated then advanceInSet start
  let operand ← hyphens start (← get).rest.length { span := ← emptySpan }
  if operand.tree = .nothing ∧ (← peek) = some ']' then
    let span ← charSpan
    advanceInSet start
    return { span := ← spanFrom start, negated
             operand := operand.add (.single { char := ']', span }) span }
  return { span := ← spanFrom start, negated, operand }

/-- Reads an operation on sets. -/
def setOperation : Reader (Option SetOperation) := do
  if ← accept "&&" then return some .intersection
  if ← accept "--" then return some .difference
  if ← accept "~~" then return some .symmetricDifference
  return none

/-- Reads the rest of a set.  `waiting` holds the operation that waits for its
second operand, and `o` what has been read of the present one.  `fuel` bounds
the number of items. -/
def restOfSet : (fuel : Nat) → SetOpening → Option (SetOperation × Operand) → Operand →
    Reader (SetTree × Span)
  | 0, opening, _, _ => fault .classUnclosed opening.span
  | fuel + 1, opening, waiting, o => do
    skip
    match ← peek with
    | none => fault .classUnclosed opening.span
    | some ']' =>
      advance 1
      let span ← spanFrom opening.span.start
      return (.nested span opening.negated (o.close waiting).tree, span)
    | some '[' =>
      match readNamed? (← get).rest with
      | some (set, negated, length) =>
        let start ← place
        advance length
        let span ← spanFrom start
        restOfSet fuel opening waiting (o.add (.named span negated set) span)
      | none =>
        let inner ← openSet
        let (item, span) ← restOfSet fuel inner none inner.operand
        restOfSet fuel opening waiting (o.add item span)
    | some c =>
      match ← setOperation with
      | some operation =>
        restOfSet fuel opening (some (operation, o.close waiting)) { span := ← emptySpan }
      | none =>
        let (item, span) ← setItem opening.span c
        restOfSet fuel opening waiting (o.add item span)

/-- Reads a set.  Its opening bracket comes next. -/
def bracketed : Reader SetTree := do
  let fuel := (← get).rest.length
  let opening ← openSet
  return (← restOfSet (fuel + 1) opening none opening.operand).1

end Reader
end Handheld.Pattern
