import Handheld.Text.Hex

/-!
# Terms of the assembler notation

A statement names what it works on by terms: registers, pairs, places in
memory, conditions and numbers.  A term is read off its text alone, without
the bytes of any instruction.
-/

namespace Handheld.Assembly

/-- A term of a statement.  The letter C is a register, and a condition where
a condition is expected. -/
inductive Term where
  | a | b | c | d | e | h | l
  | af | bc | de | hl | sp
  | nz | z | nc
  | atBC | atDE | atHL | atHLUp | atHLDown | atHighC
  | memory (address : UInt16)
  | byte (value : UInt8)
  | word (value : UInt16)
  | number (value : Int)
  | spPlus (value : Int)
  deriving DecidableEq, Repr

namespace Term

open Text (hexByte hexWord hexNumber?)

/-! ## Writing -/

/-- The text of a term. -/
def text : Term → String
  | a => "A" | b => "B" | c => "C" | d => "D" | e => "E" | h => "H" | l => "L"
  | af => "AF" | bc => "BC" | de => "DE" | hl => "HL" | sp => "SP"
  | nz => "NZ" | z => "Z" | nc => "NC"
  | atBC => "(BC)" | atDE => "(DE)" | atHL => "(HL)"
  | atHLUp => "(HL+)" | atHLDown => "(HL-)" | atHighC => "($FF00+C)"
  | memory address => "($" ++ hexWord address ++ ")"
  | byte value => "$" ++ hexByte value
  | word value => "$" ++ hexWord value
  | number value => toString value
  | spPlus value => (if value < 0 then "SP" else "SP+") ++ toString value

/-! ## Reading -/

/-- The terms that are names. -/
def names : List Term :=
  [a, b, c, d, e, h, l, af, bc, de, hl, sp, nz, z, nc, atBC, atDE, atHL, atHLUp, atHLDown]

/-- The number that decimal digits write. -/
def decimal? (digits : List Char) : Option Nat :=
  if digits ≠ [] ∧ digits.all Char.isDigit then some (Nat.ofDigitChars 10 digits 0) else none

/-- The number that decimal digits write, a minus sign before them or not. -/
def signed? : List Char → Option Int
  | '-' :: digits => (decimal? digits).map fun n => -n
  | digits => (decimal? digits).map fun n => n

/-- The byte or the word that hexadecimal digits write, told apart by how many
there are. -/
def hex? (digits : List Char) : Option Term := do
  let n ← hexNumber? digits
  match digits.length with
  | 2 => some (byte n.toUInt8)
  | 4 => some (word n.toUInt16)
  | _ => none

/-- The place in memory that stands in parentheses, of which the first and the
dollar sign are left out. -/
def place? (rest : List Char) : Option Term :=
  if rest = "FF00+C)".toList then some atHighC
  else if rest.length = 5 ∧ rest.getLast? = some ')' then
    (hexNumber? rest.dropLast).map fun n => memory n.toUInt16
  else none

/-- The term with a text. -/
def ofChars? : List Char → Option Term
  | '$' :: digits => hex? digits
  | '(' :: '$' :: rest => place? rest
  | 'S' :: 'P' :: '+' :: digits => (decimal? digits).map fun n => spPlus n
  | 'S' :: 'P' :: '-' :: digits => (decimal? digits).map fun n => spPlus (-n)
  | text => (signed? text).map number <|> names.find? fun t => t.text.toList == text

end Term
end Handheld.Assembly
