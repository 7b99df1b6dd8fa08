/-!
# Checked arithmetic

Numbers of fixed width do not hold every result.  Here a sum that is too
large, a difference below zero, a shift by the whole width, a division by zero
and an index behind the end are faults, and a computation that meets a fault
has no result.

Numbers without a sign are natural numbers, numbers with a sign integers; an
operation names the width that its result has to fit.
-/

namespace Handheld.Checked

/-- Why a computation has no result. -/
inductive Fault where
  /-- A result does not fit its width. -/
  | overflow
  /-- A shift by the width or more. -/
  | shift
  /-- A division by zero. -/
  | division
  /-- An index behind the end. -/
  | index
  /-- A condition that the program relies on fails. -/
  | assertion
  deriving DecidableEq, Repr

/-- A computation that may meet a fault. -/
abbrev Result := Except Fault

/-- The widths of numbers.  Indices have 32 bits, the least that the memories
and pictures are made for. -/
inductive Width where
  | byte
  | word
  | double
  | quad
  | index
  deriving DecidableEq, Repr

namespace Width

/-- The bits of a width. -/
def bits : Width → Nat
  | byte => 8
  | word => 16
  | double => 32
  | quad => 64
  | index => 32

/-- How many numbers a width holds. -/
def limit : Width → Nat
  | byte => 0x100
  | word => 0x10000
  | double => 0x100000000
  | quad => 0x10000000000000000
  | index => 0x100000000

end Width

/-! ## Numbers without a sign -/

/-- A number that has to fit a width. -/
def fit (w : Width) (n : Nat) : Result Nat :=
  if n < w.limit then .ok n else .error .overflow

/-- The sum. -/
def add (w : Width) (a b : Nat) : Result Nat :=
  fit w (a + b)

/-- The product. -/
def mul (w : Width) (a b : Nat) : Result Nat :=
  fit w (a * b)

/-- The difference. -/
def sub (a b : Nat) : Result Nat :=
  if b ≤ a then .ok (a - b) else .error .overflow

/-- The quotient. -/
def div (a b : Nat) : Result Nat :=
  if b = 0 then .error .division else .ok (a / b)

/-- The remainder. -/
def rem (a b : Nat) : Result Nat :=
  if b = 0 then .error .division else .ok (a % b)

/-- The number moved to the left; bits that leave the width are lost. -/
def shiftLeft (w : Width) (a amount : Nat) : Result Nat :=
  if amount < w.bits then .ok ((a <<< amount) % w.limit) else .error .shift

/-- The number moved to the right. -/
def shiftRight (w : Width) (a amount : Nat) : Result Nat :=
  if amount < w.bits then .ok (a >>> amount) else .error .shift

/-! ## Numbers with a sign -/

/-- A number with a sign that has to fit a width. -/
def fitSigned (w : Width) (n : Int) : Result Int :=
  if -(w.limit : Int) ≤ 2 * n ∧ 2 * n < w.limit then .ok n else .error .overflow

/-- The sum. -/
def addSigned (w : Width) (a b : Int) : Result Int :=
  fitSigned w (a + b)

/-- The difference. -/
def subSigned (w : Width) (a b : Int) : Result Int :=
  fitSigned w (a - b)

/-- The product. -/
def mulSigned (w : Width) (a b : Int) : Result Int :=
  fitSigned w (a * b)

/-! ## Indices and conditions -/

/-- Asks for a condition. -/
def require (p : Prop) [Decidable p] (fault : Fault) : Result Unit :=
  if p then .ok () else .error fault

/-- The element at an index. -/
def get {α : Type} {n : Nat} (v : Vector α n) (i : Nat) : Result α :=
  if h : i < n then .ok v[i] else .error .index

/-- Replaces the element at an index. -/
def set {α : Type} {n : Nat} (v : Vector α n) (i : Nat) (a : α) : Result (Vector α n) :=
  if h : i < n then .ok (v.set i a) else .error .index

/-- The element at an index of an array. -/
def getArray {α : Type} (v : Array α) (i : Nat) : Result α :=
  if h : i < v.size then .ok v[i] else .error .index

/-- Replaces the element at an index of an array. -/
def setArray {α : Type} (v : Array α) (i : Nat) (a : α) : Result (Array α) :=
  if h : i < v.size then .ok (v.set i a) else .error .index

/-! ## Where there is a result -/

section

variable {w : Width} {a b : Nat}

theorem ok_bind {α β : Type} (x : α) (f : α → Result β) : (Except.ok x >>= f) = f x := rfl

theorem pure_eq_ok {α : Type} (x : α) : (pure x : Result α) = .ok x := rfl

theorem add_eq_ok (h : a + b < w.limit) : add w a b = .ok (a + b) := if_pos h

theorem mul_eq_ok (h : a * b < w.limit) : mul w a b = .ok (a * b) := if_pos h

theorem sub_eq_ok (h : b ≤ a) : sub a b = .ok (a - b) := if_pos h

theorem div_eq_ok (h : 0 < b) : div a b = .ok (a / b) := if_neg (Nat.ne_of_gt h)

theorem rem_eq_ok (h : 0 < b) : rem a b = .ok (a % b) := if_neg (Nat.ne_of_gt h)

theorem shiftLeft_eq_ok (h : b < w.bits) : shiftLeft w a b = .ok ((a <<< b) % w.limit) := if_pos h

theorem shiftRight_eq_ok (h : b < w.bits) : shiftRight w a b = .ok (a >>> b) := if_pos h

theorem addSigned_eq_ok {x y : Int} (hlow : -(w.limit : Int) ≤ 2 * (x + y))
    (hhigh : 2 * (x + y) < w.limit) : addSigned w x y = .ok (x + y) :=
  if_pos ⟨hlow, hhigh⟩

theorem subSigned_eq_ok {x y : Int} (hlow : -(w.limit : Int) ≤ 2 * (x - y))
    (hhigh : 2 * (x - y) < w.limit) : subSigned w x y = .ok (x - y) :=
  if_pos ⟨hlow, hhigh⟩

theorem mulSigned_eq_ok {x y : Int} (hlow : -(w.limit : Int) ≤ 2 * (x * y))
    (hhigh : 2 * (x * y) < w.limit) : mulSigned w x y = .ok (x * y) :=
  if_pos ⟨hlow, hhigh⟩

theorem require_eq_ok {p : Prop} [Decidable p] (h : p) (fault : Fault) :
    require p fault = .ok () := if_pos h

theorem get_eq_ok {α : Type} {n i : Nat} {v : Vector α n} (h : i < n) :
    get v i = .ok (v.get ⟨i, h⟩) := dif_pos h

theorem set_eq_ok {α : Type} {n i : Nat} {v : Vector α n} (h : i < n) (x : α) :
    set v i x = .ok (v.set i x) := dif_pos h

theorem getArray_eq_ok {α : Type} {i : Nat} {v : Array α} (h : i < v.size) :
    getArray v i = .ok v[i] := dif_pos h

theorem setArray_eq_ok {α : Type} {i : Nat} {v : Array α} (h : i < v.size) (x : α) :
    setArray v i x = .ok (v.set i x) := dif_pos h

end

end Handheld.Checked
