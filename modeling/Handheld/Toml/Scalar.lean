import Handheld.Toml.Value

/-!
# TOML numbers, booleans and dates

A value without delimiters is a run of letters, digits and a few signs.  The
whole run must be a boolean, an integer, a floating-point number or a date.
-/

namespace Handheld.Toml

/-! ## Digits -/

/-- Whether the character is a decimal digit. -/
def isDecimal (c : Char) : Bool := '0' ≤ c && c ≤ '9'

/-- The digits of a number in which single underscores may separate digits. -/
def ungroup? (isDigit : Char → Bool) : List Char → Option (List Char)
  | [] => none
  | [c] => if isDigit c then some [c] else none
  | c :: '_' :: rest => if isDigit c then (ungroup? isDigit rest).map (c :: ·) else none
  | c :: rest => if isDigit c then (ungroup? isDigit rest).map (c :: ·) else none

/-- The value of a digit, letters counting on from ten. -/
def digitValue (c : Char) : Nat :=
  if c.toNat < 58 then c.toNat - 48 else if c.toNat < 91 then c.toNat - 55 else c.toNat - 87

/-- The number that digits write. -/
def number (base : Nat) (digits : List Char) : Nat :=
  digits.foldl (fun n c => n * base + digitValue c) 0

/-- Whether the character is a digit of the base. -/
def isDigitOf (base : Nat) (c : Char) : Bool :=
  (isDecimal c || ('a' ≤ c && c ≤ 'f') || ('A' ≤ c && c ≤ 'F')) && digitValue c < base

/-- A natural number in a base. -/
def natural? (base : Nat) (cs : List Char) : Option Nat :=
  (ungroup? (isDigitOf base) cs).map (number base)

/-- The digits of a decimal number, which has no superfluous zero in front. -/
def decimalDigits? (cs : List Char) : Option (List Char) := do
  let digits ← ungroup? isDecimal cs
  guard (digits.length = 1 ∨ digits.head? ≠ some '0')
  return digits

/-- A sign, if there is one, and the characters behind it. -/
def splitSign : List Char → Bool × List Char
  | '-' :: rest => (true, rest)
  | '+' :: rest => (false, rest)
  | cs => (false, cs)

/-- An integer: decimal with an optional sign, or in another base behind its
letter. -/
def integer? : List Char → Option Int
  | '0' :: 'x' :: rest => (natural? 16 rest).map Int.ofNat
  | '0' :: 'o' :: rest => (natural? 8 rest).map Int.ofNat
  | '0' :: 'b' :: rest => (natural? 2 rest).map Int.ofNat
  | cs => do
    let (negative, cs) := splitSign cs
    let n := number 10 (← decimalDigits? cs)
    return if negative then -n else n

/-! ## Floating-point numbers -/

/-- The digits behind a point, if there is a point. -/
def fraction? : List Char → Option (List Char)
  | [] => some []
  | '.' :: rest => ungroup? isDecimal rest
  | _ => none

/-- The exponent behind its letter, if there is one. -/
def exponent? : List Char → Option Int
  | [] => some 0
  | _ :: rest => do
    let (negative, cs) := splitSign rest
    let n := number 10 (← ungroup? isDecimal cs)
    return if negative then -n else n

/-- A number with a point, an exponent or both. -/
def decimal? (cs : List Char) : Option Decimal := do
  let isMark := fun c => c = 'e' || c = 'E'
  let mantissa := cs.takeWhile fun c => !isMark c
  let whole := mantissa.takeWhile (· ≠ '.')
  guard (whole.length < cs.length)
  let wholeDigits ← decimalDigits? whole
  let fractionDigits ← fraction? (mantissa.drop whole.length)
  let exponent ← exponent? (cs.drop mantissa.length)
  return {
    digits := number 10 (wholeDigits ++ fractionDigits)
    exponent := exponent - fractionDigits.length }

/-- A floating-point number. -/
def float? (cs : List Char) : Option FloatNumber :=
  match (splitSign cs).2 with
  | ['i', 'n', 'f'] => some .infinity
  | ['n', 'a', 'n'] => some .notANumber
  | cs => (decimal? cs).map .decimal

/-! ## Dates and times -/

/-- A number of exactly `width` digits between two bounds, at the start of the
characters. -/
def ranged? (width least greatest : Nat) (cs : List Char) : Option (Nat × List Char) := do
  let digits := cs.take width
  guard (digits.length = width ∧ digits.all isDecimal)
  let n := number 10 digits
  guard (least ≤ n ∧ n ≤ greatest)
  return (n, cs.drop width)

/-- The characters behind an expected one. -/
def expect? (c : Char) : List Char → Option (List Char)
  | d :: rest => if d = c then some rest else none
  | [] => none

/-- The days of a month. -/
def daysIn (year month : Nat) : Nat :=
  if month = 2 then
    if year % 4 = 0 ∧ (year % 100 ≠ 0 ∨ year % 400 = 0) then 29 else 28
  else if month = 4 ∨ month = 6 ∨ month = 9 ∨ month = 11 then 30
  else 31

/-- The characters behind a date. -/
def afterDate? (cs : List Char) : Option (List Char) := do
  let (year, cs) ← ranged? 4 0 9999 cs
  let (month, cs) ← ranged? 2 1 12 (← expect? '-' cs)
  let (_, cs) ← ranged? 2 1 (daysIn year month) (← expect? '-' cs)
  return cs

/-- The characters behind the fraction of a second, if there is one. -/
def afterFraction? : List Char → Option (List Char)
  | '.' :: rest =>
    if rest.head?.any isDecimal then some (rest.dropWhile isDecimal) else none
  | cs => some cs

/-- The characters behind a time of day.  It may end with the minute. -/
def afterTime? (cs : List Char) : Option (List Char) := do
  let (_, cs) ← ranged? 2 0 23 cs
  let (_, cs) ← ranged? 2 0 59 (← expect? ':' cs)
  match cs with
  | ':' :: rest =>
    let (_, cs) ← ranged? 2 0 60 rest
    afterFraction? cs
  | cs => return cs

/-- The characters behind the offset of a time zone. -/
def afterOffset? : List Char → Option (List Char)
  | 'Z' :: rest | 'z' :: rest => some rest
  | '+' :: rest | '-' :: rest => do
    let (_, cs) ← ranged? 2 0 23 rest
    let (_, cs) ← ranged? 2 0 59 (← expect? ':' cs)
    return cs
  | _ => none

/-- Whether the characters are a date, a time of day, or a date and a time of
day, the last with or without the offset of a time zone. -/
def isDateTime (cs : List Char) : Bool :=
  match afterDate? cs with
  | some [] => true
  | some (mark :: rest) =>
    (mark = 'T' || mark = 't' || mark = ' ') &&
      match afterTime? rest with
      | some [] => true
      | some rest => afterOffset? rest = some []
      | none => false
  | none => afterTime? cs = some []

/-! ## Runs -/

/-- Whether the character may stand in a value without delimiters. -/
def isRunChar (c : Char) : Bool :=
  ('a' ≤ c && c ≤ 'z') || ('A' ≤ c && c ≤ 'Z') || isDecimal c ||
    c = '_' || c = '-' || c = '+' || c = '.' || c = ':'

/-- The value that a run of characters writes. -/
def scalarOf? (run : List Char) : Option Value :=
  match run with
  | ['t', 'r', 'u', 'e'] => some (.boolean true)
  | ['f', 'a', 'l', 's', 'e'] => some (.boolean false)
  | run =>
    if isDateTime run then some (.dateTime (String.ofList run))
    else
      match integer? run with
      | some value => some (.integer value)
      | none => (float? run).map .float

/-- The run at the start of the characters.  A date and a time of day may have
a space between them. -/
def runOf (cs : List Char) : List Char :=
  let run := cs.takeWhile isRunChar
  match cs.drop run.length with
  | ' ' :: digit :: rest =>
    if afterDate? run = some [] ∧ isDecimal digit = true then
      run ++ ' ' :: (digit :: rest).takeWhile isRunChar
    else run
  | _ => run

/-- Reads a value without delimiters. -/
def readScalar? (cs : List Char) : Option (Value × List Char) :=
  let run := runOf cs
  (scalarOf? run).map fun value => (value, cs.drop run.length)

end Handheld.Toml
