import Mathlib.Data.Nat.Digits.Defs
import Mathlib.Tactic.Ring
import Handheld.Proofs.Checked.FlagByte

/-!
# Arithmetic on numbers of any length

A program adds two long numbers byte by byte, from the low end, and hands the
carry from byte to byte in the flags.  What this gives does not depend on what
the bytes stand for, as long as one byte is added right.

There are four groups.

* Systems of numerals.  `Numeral` says what number a byte stands for, and
  `Numeral.value` what a list of bytes does.
* Chains.  `chain` applies an operation to two lists of bytes; its flags are
  those of the last byte, `exists_last_chain`.
* One byte and many.  `Numeral.Columns` is addition as it is written down, column
  by column, and `Columns.value_add_value` says what it adds up to.  A chain of
  sums is such an addition, and a chain of differences is one read upwards.
* Sums and differences of a fixed length, `Numeral.IsSum` and
  `Numeral.IsDifference`, with what is lost at the high end.
-/

namespace Handheld.Alu

/-! ## Systems of numerals -/

/-- A system of numerals of which each byte is a digit. -/
structure Numeral where
  base : Nat
  /-- The bytes that are digits. -/
  IsDigit : UInt8 → Prop
  digit : UInt8 → Nat
  one_lt_base : 1 < base
  digit_lt : ∀ {byte}, IsDigit byte → digit byte < base

namespace Numeral

variable (N : Numeral)

/-- The number that bytes stand for, the lowest first. -/
def value (bytes : List UInt8) : Nat :=
  Nat.ofDigits N.base (bytes.map N.digit)

@[simp] theorem value_nil : N.value [] = 0 := rfl

@[simp] theorem value_cons (byte : UInt8) (bytes : List UInt8) :
    N.value (byte :: bytes) = N.digit byte + N.base * N.value bytes := by
  rw [value, List.map_cons, Nat.ofDigits_cons]
  rfl

theorem value_lt {bytes : List UInt8} (h : ∀ byte ∈ bytes, N.IsDigit byte) :
    N.value bytes < N.base ^ bytes.length := by
  have hdigits : ∀ n ∈ bytes.map N.digit, n < N.base := by
    intro n hn
    obtain ⟨byte, hbyte, rfl⟩ := List.mem_map.1 hn
    exact N.digit_lt (h byte hbyte)
  simpa [value] using Nat.ofDigits_lt_base_pow_length N.one_lt_base hdigits

end Numeral

/-! ## Chains -/

section

variable {φ : Type} (carry : φ → Bool) (op : UInt8 → UInt8 → Bool → UInt8 × φ)

/-- Applies an operation to the bytes of two lists, one pair after another.  Each
takes its carry from the flags that the one before has left. -/
def chain (flags : φ) : List UInt8 → List UInt8 → List UInt8 × φ
  | a :: as, b :: bs =>
    let (result, flags) := op a b (carry flags)
    let (results, flags) := chain flags as bs
    (result :: results, flags)
  | _, _ => ([], flags)

@[simp] theorem chain_cons (flags : φ) (a b : UInt8) (as bs : List UInt8) :
    chain carry op flags (a :: as) (b :: bs) =
      ((op a b (carry flags)).1 :: (chain carry op (op a b (carry flags)).2 as bs).1,
        (chain carry op (op a b (carry flags)).2 as bs).2) := rfl

/-- The last byte and the flags of a chain come from one operation. -/
theorem exists_last_chain (flags : φ) {as bs : List UInt8} (h : as.length = bs.length)
    (hne : as ≠ []) :
    ∃ a b carried, (chain carry op flags as bs).1.getLast? = some (op a b carried).1 ∧
      (chain carry op flags as bs).2 = (op a b carried).2 := by
  induction as generalizing flags bs with
  | nil => exact absurd rfl hne
  | cons a as ih =>
    cases bs with
    | nil => cases h
    | cons b bs =>
      rw [chain_cons]
      cases as with
      | nil => exact ⟨a, b, carry flags, rfl, rfl⟩
      | cons a' as =>
        obtain ⟨x, y, carried, hlast, hflags⟩ :=
          ih (op a b (carry flags)).2 (Nat.succ.inj h) nofun
        refine ⟨x, y, carried, ?_, hflags⟩
        rw [List.getLast?_cons, hlast]
        rfl

end

/-- The zero flag of a chain speaks of its last byte alone. -/
theorem zero_chain {op : UInt8 → UInt8 → Bool → UInt8 × Flags}
    (h : ∀ a b carried, (op a b carried).2.zero = ((op a b carried).1 == 0)) (flags : Flags)
    {as bs : List UInt8} (hlength : as.length = bs.length) (hne : as ≠ []) :
    (chain Flags.carry op flags as bs).2.zero = true ↔
      (chain Flags.carry op flags as bs).1.getLast? = some 0 := by
  obtain ⟨a, b, carried, hlast, hflags⟩ := exists_last_chain Flags.carry op flags hlength hne
  rw [hlast, hflags, h, beq_iff_eq, Option.some_inj]

theorem subtract_chain {op : UInt8 → UInt8 → Bool → UInt8 × Flags} {subtracts : Bool}
    (h : ∀ a b carried, (op a b carried).2.subtract = subtracts) (flags : Flags)
    {as bs : List UInt8} (hlength : as.length = bs.length) (hne : as ≠ []) :
    (chain Flags.carry op flags as bs).2.subtract = subtracts := by
  obtain ⟨a, b, carried, -, hflags⟩ := exists_last_chain Flags.carry op flags hlength hne
  rw [hflags, h]

/-- A chain with the flags as a byte is the chain with the flags apart. -/
theorem chain_toByte {op : UInt8 → UInt8 → Bool → UInt8 × Flags}
    {byteOp : UInt8 → UInt8 → Bool → UInt8 × UInt8}
    (h : ∀ a b carried, byteOp a b carried = Prod.map id Flags.toByte (op a b carried))
    (flags : Flags) (as bs : List UInt8) :
    chain Checked.FlagByte.carrySet byteOp flags.toByte as bs =
      Prod.map id Flags.toByte (chain Flags.carry op flags as bs) := by
  induction as generalizing flags bs with
  | nil => rfl
  | cons a as ih =>
    cases bs with
    | nil => rfl
    | cons b bs =>
      have hcarry : Checked.FlagByte.carrySet flags.toByte = flags.carry :=
        congrArg Flags.carry flags.ofByte_toByte
      simp only [chain_cons, hcarry, h, Prod.map_fst, Prod.map_snd, id_eq, ih, Prod.map_apply]

/-! ## One byte and many -/

namespace Numeral

variable (N : Numeral)

/-- A column of a written addition: two digits and what is carried into the column
make up the digit below them and what is carried out. -/
def Column (a b : UInt8) (carried : Bool) (result : UInt8) (carry : Bool) : Prop :=
  N.digit a + N.digit b + carried.toNat = N.digit result + N.base * carry.toNat

/-- A written addition, column after column from the low end. -/
inductive Columns : List UInt8 → List UInt8 → Bool → List UInt8 → Bool → Prop
  | nil (carry : Bool) : Columns [] [] carry [] carry
  | cons {a b result : UInt8} {as bs results : List UInt8} {carried handed carry : Bool}
      (column : N.Column a b carried result handed)
      (rest : Columns as bs handed results carry) :
      Columns (a :: as) (b :: bs) carried (result :: results) carry

/-- The operation adds digits. -/
def Adds (op : UInt8 → UInt8 → Bool → UInt8 × Flags) : Prop :=
  ∀ a b, N.IsDigit a → N.IsDigit b → ∀ carried,
    N.IsDigit (op a b carried).1 ∧
      N.Column a b carried (op a b carried).1 (op a b carried).2.carry

/-- The operation subtracts digits: adding what was taken away gives the first
digit back, and the carry is what was borrowed. -/
def Subtracts (op : UInt8 → UInt8 → Bool → UInt8 × Flags) : Prop :=
  ∀ a b, N.IsDigit a → N.IsDigit b → ∀ carried,
    N.IsDigit (op a b carried).1 ∧
      N.Column (op a b carried).1 b carried a (op a b carried).2.carry

variable {N} {op : UInt8 → UInt8 → Bool → UInt8 × Flags} {as bs results : List UInt8}
  {carried carry : Bool}

/-- What is carried out of the last column counts as much as a digit behind it. -/
theorem Columns.value_add_value (h : N.Columns as bs carried results carry) :
    N.value as + N.value bs + carried.toNat =
      N.value results + N.base ^ results.length * carry.toNat := by
  induction h with
  | nil carry => simp
  | @cons a b result as bs results carried handed carry column rest ih =>
    rw [Column] at column
    simp only [value_cons, List.length_cons]
    calc N.digit a + N.base * N.value as + (N.digit b + N.base * N.value bs) + carried.toNat
        = N.digit a + N.digit b + carried.toNat + N.base * (N.value as + N.value bs) := by ring
      _ = N.digit result + N.base * (N.value as + N.value bs + handed.toNat) := by
          rw [column]; ring
      _ = N.digit result + N.base * N.value results +
            N.base ^ (results.length + 1) * carry.toNat := by rw [ih]; ring

theorem Columns.length_eq (h : N.Columns as bs carried results carry) :
    as.length = results.length := by
  induction h with
  | nil carry => rfl
  | cons column rest ih => rw [List.length_cons, List.length_cons, ih]

/-- Induction along a chain on digits. -/
theorem chain_induction
    {motive : List UInt8 → List UInt8 → Flags → List UInt8 × Flags → Prop}
    (hnil : ∀ flags, motive [] [] flags ([], flags))
    (hcons : ∀ {a b as bs flags chained}, N.IsDigit a → N.IsDigit b →
      motive as bs (op a b flags.carry).2 chained →
        motive (a :: as) (b :: bs) flags ((op a b flags.carry).1 :: chained.1, chained.2))
    (hlength : as.length = bs.length) (has : ∀ a ∈ as, N.IsDigit a)
    (hbs : ∀ b ∈ bs, N.IsDigit b) (flags : Flags) :
    motive as bs flags (chain Flags.carry op flags as bs) := by
  induction as generalizing flags bs with
  | nil =>
    obtain rfl : bs = [] := List.eq_nil_of_length_eq_zero hlength.symm
    exact hnil flags
  | cons a as ih =>
    cases bs with
    | nil => cases hlength
    | cons b bs =>
      rw [List.forall_mem_cons] at has hbs
      exact hcons has.1 hbs.1 (ih (Nat.succ.inj hlength) has.2 hbs.2 _)

section

variable (hlength : as.length = bs.length) (has : ∀ a ∈ as, N.IsDigit a)
  (hbs : ∀ b ∈ bs, N.IsDigit b) (flags : Flags)
include hlength has hbs

theorem isDigit_chain
    (h : ∀ a b, N.IsDigit a → N.IsDigit b → ∀ carried, N.IsDigit (op a b carried).1) :
    ∀ byte ∈ (chain Flags.carry op flags as bs).1, N.IsDigit byte := by
  refine chain_induction (motive := fun _ _ _ chained => ∀ byte ∈ chained.1, N.IsDigit byte)
    (fun _ => nofun) ?_ hlength has hbs flags
  intro a b as bs flags chained ha hb ih
  exact List.forall_mem_cons.2 ⟨h a b ha hb _, ih⟩

theorem Adds.columns_chain (h : N.Adds op) :
    N.Columns as bs flags.carry (chain Flags.carry op flags as bs).1
      (chain Flags.carry op flags as bs).2.carry := by
  refine chain_induction
    (motive := fun as bs flags chained => N.Columns as bs flags.carry chained.1 chained.2.carry)
    (fun flags => .nil flags.carry) ?_ hlength has hbs flags
  intro a b as bs flags chained ha hb ih
  exact .cons (h a b ha hb flags.carry).2 ih

theorem Subtracts.columns_chain (h : N.Subtracts op) :
    N.Columns (chain Flags.carry op flags as bs).1 bs flags.carry as
      (chain Flags.carry op flags as bs).2.carry := by
  refine chain_induction
    (motive := fun as bs flags chained => N.Columns chained.1 bs flags.carry as chained.2.carry)
    (fun flags => .nil flags.carry) ?_ hlength has hbs flags
  intro a b as bs flags chained ha hb ih
  exact .cons (h a b ha hb flags.carry).2 ih

end

/-! ## Sums and differences of a fixed length -/

variable (N)

/-- `results` and `carry` are the sum of two numbers of the same length and a
carry. -/
structure IsSum (as bs : List UInt8) (carried : Bool) (results : List UInt8) (carry : Bool) :
    Prop where
  length : results.length = as.length
  isDigit : ∀ byte ∈ results, N.IsDigit byte
  value : N.value results = (N.value as + N.value bs + carried.toNat) % N.base ^ as.length
  carry : carry = true ↔ N.base ^ as.length ≤ N.value as + N.value bs + carried.toNat

/-- `results` and `carry` are the difference of two numbers of the same length and
a borrow. -/
structure IsDifference (as bs : List UInt8) (carried : Bool) (results : List UInt8)
    (carry : Bool) : Prop where
  length : results.length = as.length
  isDigit : ∀ byte ∈ results, N.IsDigit byte
  value : (N.value results : Int) =
    ((N.value as : Int) - N.value bs - carried.toNat) % (N.base ^ as.length : Nat)
  carry : carry = true ↔ N.value as < N.value bs + carried.toNat

variable {N}

/-- The line below a written addition is the sum. -/
theorem Columns.isSum (h : N.Columns as bs carried results carry)
    (hdigits : ∀ byte ∈ results, N.IsDigit byte) : N.IsSum as bs carried results carry := by
  have hlt := N.value_lt hdigits
  have hvalue := h.value_add_value
  have hlength := h.length_eq
  refine ⟨hlength.symm, hdigits, ?_, ?_⟩
  · rw [hvalue, hlength, Nat.add_mul_mod_self_left, Nat.mod_eq_of_lt hlt]
  · rw [hvalue, hlength]
    cases carry with
    | false => simpa using hlt
    | true => simp

/-- The line above a written addition is the difference of the line below and the
other one. -/
theorem Columns.isDifference (h : N.Columns results bs carried as carry)
    (hdigits : ∀ byte ∈ results, N.IsDigit byte) :
    N.IsDifference as bs carried results carry := by
  have hlt := N.value_lt hdigits
  have hvalue := h.value_add_value
  rw [h.length_eq] at hlt
  refine ⟨h.length_eq, hdigits, ?_, ?_⟩
  · have hdifference : (N.value as : Int) - N.value bs - carried.toNat =
        N.value results + (N.base ^ as.length : Nat) * -(carry.toNat : Int) := by
      have hcast := congrArg (Nat.cast : Nat → Int) hvalue
      push_cast at hcast ⊢
      linarith
    rw [hdifference, Int.add_mul_emod_self_left, Int.emod_eq_of_lt (by omega) (by omega)]
  · cases carry with
    | false =>
      rw [Bool.toNat_false, Nat.mul_zero] at hvalue
      simp only [Bool.false_eq_true, false_iff]
      omega
    | true =>
      rw [Bool.toNat_true, Nat.mul_one] at hvalue
      simp only [true_iff]
      omega

section

variable (hlength : as.length = bs.length) (has : ∀ a ∈ as, N.IsDigit a)
  (hbs : ∀ b ∈ bs, N.IsDigit b) (flags : Flags)
include hlength has hbs

theorem Adds.isSum_chain (h : N.Adds op) :
    N.IsSum as bs flags.carry (chain Flags.carry op flags as bs).1
      (chain Flags.carry op flags as bs).2.carry := by
  have hdigits := isDigit_chain hlength has hbs flags fun a b ha hb carried =>
    (h a b ha hb carried).1
  exact (h.columns_chain hlength has hbs flags).isSum hdigits

theorem Subtracts.isDifference_chain (h : N.Subtracts op) :
    N.IsDifference as bs flags.carry (chain Flags.carry op flags as bs).1
      (chain Flags.carry op flags as bs).2.carry := by
  have hdigits := isDigit_chain hlength has hbs flags fun a b ha hb carried =>
    (h a b ha hb carried).1
  exact (h.columns_chain hlength has hbs flags).isDifference hdigits

end

end Numeral
end Handheld.Alu
