/-!
# TOML values

The values of a TOML document.  A table remembers how it came about, because
that decides whether it may still be extended.
-/

namespace Handheld.Toml

/-- How a table came about. -/
inductive Origin where
  /-- Under a header of its own, or as the document itself. -/
  | header
  /-- As a parent of a header. -/
  | parent
  /-- By a dotted key. -/
  | dotted
  /-- Between braces. -/
  | inline
  deriving DecidableEq, Repr, Inhabited

/-- A number with a point or an exponent: `digits * 10 ^ exponent`. -/
structure Decimal where
  digits : Nat
  exponent : Int
  deriving DecidableEq, Repr, Inhabited

/-- A floating-point number. -/
inductive FloatNumber where
  | decimal (value : Decimal)
  | infinity
  | notANumber
  deriving DecidableEq, Repr, Inhabited

/-- A value. -/
inductive Value where
  | string (text : String)
  | integer (value : Int)
  /-- A floating-point number; its sign is not kept. -/
  | float (magnitude : FloatNumber)
  | boolean (value : Bool)
  | dateTime (text : String)
  | array (items : List Value)
  | table (origin : Origin) (entries : List (String × Value))
  /-- An array of tables, each under a header of its own. -/
  | tables (items : List (List (String × Value)))
  deriving Repr, Inhabited

/-- The entries of a table. -/
abbrev Entries := List (String × Value)

/-- The value of a key. -/
def Entries.find? (entries : Entries) (key : String) : Option Value :=
  entries.lookup key

/-- The entries with the value of a key replaced, or added behind the others. -/
def Entries.put (entries : Entries) (key : String) (value : Value) : Entries :=
  match entries with
  | [] => [(key, value)]
  | (k, v) :: rest => if k = key then (key, value) :: rest else (k, v) :: Entries.put rest key value

/-! ## Values of a kind -/

namespace Value

/-- The text of a string. -/
def string? : Value → Option String
  | string text => some text
  | _ => none

/-- The value of a boolean. -/
def boolean? : Value → Option Bool
  | boolean value => some value
  | _ => none

/-- The value of an integer that is a natural number of at most 64 bits. -/
def count? : Value → Option Nat
  | integer value => if 0 ≤ value ∧ value < UInt64.size then some value.toNat else none
  | _ => none

end Value

/-! ## Numbers that can be represented -/

/-- Whether the number, rounded to double precision, is finite: it is below
the largest finite number and half a unit in its last place. -/
def Decimal.isFinite (d : Decimal) : Bool :=
  let bound := Nat.pow 2 1024 - Nat.pow 2 970
  if d.digits = 0 then true
  else if 310 < d.exponent then false
  else if 0 ≤ d.exponent then d.digits * Nat.pow 10 d.exponent.toNat < bound
  else
    let places := (-d.exponent).toNat
    -- Ten is more than eight, so with so many places no power need be computed.
    d.digits.log2 < 3 * places + 1000 || d.digits < bound * Nat.pow 10 places

/-- Whether the number is finite or was written as infinite. -/
def FloatNumber.isRepresentable : FloatNumber → Bool
  | .decimal d => d.isFinite
  | .infinity | .notANumber => true

/-- Whether the number fits 128 bits, signed or unsigned. -/
def fitsWide (value : Int) : Bool :=
  -(Nat.pow 2 127 : Int) ≤ value && value < (Nat.pow 2 128 : Int)

mutual

/-- Whether every number in the value can be represented. -/
def Value.isRepresentable : Value → Bool
  | .integer value => fitsWide value
  | .float magnitude => magnitude.isRepresentable
  | .array items => allRepresentable items
  | .table _ entries => entriesRepresentable entries
  | .tables items => tablesRepresentable items
  | _ => true

/-- Whether every number in the values can be represented. -/
def allRepresentable : List Value → Bool
  | [] => true
  | value :: rest => value.isRepresentable && allRepresentable rest

/-- Whether every number in the entries can be represented. -/
def entriesRepresentable : List (String × Value) → Bool
  | [] => true
  | (_, value) :: rest => value.isRepresentable && entriesRepresentable rest

/-- Whether every number in the tables can be represented. -/
def tablesRepresentable : List (List (String × Value)) → Bool
  | [] => true
  | entries :: rest => entriesRepresentable entries && tablesRepresentable rest

end

end Handheld.Toml
