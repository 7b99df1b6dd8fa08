import Handheld.Proofs.Cpu.Numeral

/-!
# Decimal arithmetic

A byte holds two decimal digits.  Adding such bytes as numbers and adjusting the
result is decimal addition, and subtracting them and adjusting is decimal
subtraction; the carry out of one byte goes into the next, so numbers of any
length can be added and subtracted.

There are three groups.

* The numerals, and the two operations on a byte.
* One byte.  The adjustment finds again what the flags have lost: whether the low
  digits were ten or more, and whether the bytes were a hundred or more.
* The result, `decimal_of_chains`.
-/

namespace Handheld.Alu

/-! ## Two digits in a byte -/

theorem one_lt_hundred : 1 < 100 := by decide

theorem twoDigits_lt {byte : UInt8} (h : byte.toNat / 16 ≤ 9 ∧ byte.toNat % 16 ≤ 9) :
    10 * (byte.toNat / 16) + byte.toNat % 16 < 100 := by
  omega

/-- Bytes of two decimal digits. -/
def decimal : Numeral where
  base := 100
  IsDigit byte := byte.toNat / 16 ≤ 9 ∧ byte.toNat % 16 ≤ 9
  digit byte := 10 * (byte.toNat / 16) + byte.toNat % 16
  one_lt_base := one_lt_hundred
  digit_lt := twoDigits_lt

theorem base_decimal : decimal.base = 100 := rfl

theorem isDigit_decimal (byte : UInt8) :
    decimal.IsDigit byte ↔ byte.toNat / 16 ≤ 9 ∧ byte.toNat % 16 ≤ 9 := Iff.rfl

theorem digit_decimal (byte : UInt8) :
    decimal.digit byte = 10 * (byte.toNat / 16) + byte.toNat % 16 := rfl

/-- An operation on two bytes, and then an adjustment of what it gave. -/
def adjusted {φ : Type} (adjust : UInt8 → φ → UInt8 × φ)
    (op : UInt8 → UInt8 → Bool → UInt8 × φ) (a b : UInt8) (carried : Bool) : UInt8 × φ :=
  let (result, flags) := op a b carried
  adjust result flags

/-- Addition, adjusted to decimal digits. -/
def addDecimal : UInt8 → UInt8 → Bool → UInt8 × Flags :=
  adjusted decimalAdjust addWithCarry

/-- Subtraction, adjusted to decimal digits. -/
def subtractDecimal : UInt8 → UInt8 → Bool → UInt8 × Flags :=
  adjusted decimalAdjust subtractWithCarry

/-- Adjusting with the flags as a byte is adjusting with the flags apart. -/
theorem adjusted_toByte {op : UInt8 → UInt8 → Bool → UInt8 × Flags}
    {byteOp : UInt8 → UInt8 → Bool → UInt8 × UInt8}
    (h : ∀ a b carried, byteOp a b carried = Prod.map id Flags.toByte (op a b carried))
    (a b : UInt8) (carried : Bool) :
    adjusted Checked.FlagByte.decimalAdjust byteOp a b carried =
      Prod.map id Flags.toByte (adjusted decimalAdjust op a b carried) := by
  simp only [adjusted, h, Prod.map, id_eq, Checked.FlagByte.decimalAdjust_eq,
    Flags.ofByte_toByte]

/-! ## One byte -/

/-- After a sum, six is added to each digit that has left the decimal range. -/
theorem decimalAdjust_of_sum (sum : UInt8) {f : Flags} (hf : f.subtract = false) :
    (decimalAdjust sum f).1.toNat =
        (sum.toNat + 6 * (f.half || decide (9 < sum.toNat % 16)).toNat +
          0x60 * (f.carry || decide (0x99 < sum.toNat)).toNat) % 256 ∧
      (decimalAdjust sum f).2.carry = (f.carry || decide (0x99 < sum.toNat)) := by
  simp only [decimalAdjust, hf, Bool.not_false, Bool.true_and, and_true]
  cases f.half || decide (9 < sum.toNat % 16) <;>
    cases f.carry || decide (0x99 < sum.toNat) <;> simp

/-- After a difference, six is taken from each digit that has borrowed. -/
theorem decimalAdjust_of_difference (difference : UInt8) {f : Flags} (hf : f.subtract = true) :
    (decimalAdjust difference f).1.toNat =
        (difference.toNat + 0x100 - 6 * f.half.toNat - 0x60 * f.carry.toNat) % 256 ∧
      (decimalAdjust difference f).2.carry = f.carry := by
  have hdifference := difference.toNat_lt
  simp only [decimalAdjust, hf, Bool.not_true, Bool.false_and, Bool.or_false, and_true, if_true]
  cases f.half <;> cases f.carry <;> simp [UInt8.toNat_sub] <;> omega

/-- The adjustment of a sum finds out whether its low digits were ten or more, and
whether its bytes were a hundred or more. -/
theorem addDecimal_spec {a b : UInt8} (ha : decimal.IsDigit a) (hb : decimal.IsDigit b)
    (carried : Bool) :
    ∃ low high : Bool, (low = true ↔ 10 ≤ a.toNat % 16 + b.toNat % 16 + carried.toNat) ∧
      (high = true ↔ 100 ≤ decimal.digit a + decimal.digit b + carried.toNat) ∧
      (addDecimal a b carried).1.toNat =
        (a.toNat + b.toNat + carried.toNat + 6 * low.toNat + 0x60 * high.toNat) % 256 ∧
      (addDecimal a b carried).2.carry = high := by
  obtain ⟨hahigh, halow⟩ := ha
  obtain ⟨hbhigh, hblow⟩ := hb
  have hcarried := carried.toNat_le
  have hsum := toNat_sum a b carried
  obtain ⟨hresult, hcarry⟩ :=
    decimalAdjust_of_sum (a + b + carried.toUInt8) (f := (addWithCarry a b carried).2) rfl
  refine ⟨(addWithCarry a b carried).2.half || decide (9 < (a + b + carried.toUInt8).toNat % 16),
    _, ?_, ?_, hresult.trans ?_, hcarry⟩
  · simp only [addWithCarry, hsum, Bool.or_eq_true, decide_eq_true_eq]
    omega
  · simp only [addWithCarry, hsum, Bool.or_eq_true, decide_eq_true_eq, digit_decimal]
    omega
  · rw [hsum, Nat.add_assoc, Nat.mod_add_mod, ← Nat.add_assoc]

/-- The adjustment of a difference is told by the flags which digits have
borrowed. -/
theorem subtractDecimal_spec (a b : UInt8) (carried : Bool) :
    ∃ low high : Bool, (low = true ↔ a.toNat % 16 < b.toNat % 16 + carried.toNat) ∧
      (high = true ↔ a.toNat < b.toNat + carried.toNat) ∧
      (subtractDecimal a b carried).1.toNat =
        (a.toNat + 0x200 - b.toNat - carried.toNat - 6 * low.toNat - 0x60 * high.toNat) % 256 ∧
      (subtractDecimal a b carried).2.carry = high := by
  have ha := a.toNat_lt
  have hb := b.toNat_lt
  have hcarried := carried.toNat_le
  have hdifference := toNat_difference a b carried
  obtain ⟨hresult, hcarry⟩ := decimalAdjust_of_difference (a - b - carried.toUInt8)
    (f := (subtractWithCarry a b carried).2) rfl
  refine ⟨(subtractWithCarry a b carried).2.half, _, ?_, ?_, hresult.trans ?_, hcarry⟩
  · simp only [subtractWithCarry, decide_eq_true_eq]
  · simp only [subtractWithCarry, decide_eq_true_eq]
  · have hlow := (subtractWithCarry a b carried).2.half.toNat_le
    have hhigh := (subtractWithCarry a b carried).2.carry.toNat_le
    rw [hdifference]
    omega

@[simp] theorem subtract_addDecimal (a b : UInt8) (carried : Bool) :
    (addDecimal a b carried).2.subtract = false := rfl

@[simp] theorem subtract_subtractDecimal (a b : UInt8) (carried : Bool) :
    (subtractDecimal a b carried).2.subtract = true := rfl

theorem adds_decimal : decimal.Adds addDecimal := by
  intro a b ha hb carried
  obtain ⟨low, high, hlow, hhigh, hresult, hcarry⟩ := addDecimal_spec ha hb carried
  obtain ⟨hahigh, halow⟩ := ha
  obtain ⟨hbhigh, hblow⟩ := hb
  have hcarried := carried.toNat_le
  rw [isDigit_decimal, Numeral.Column, hcarry, base_decimal]
  simp only [digit_decimal, hresult] at hhigh ⊢
  cases low <;> cases high <;> simp at hlow hhigh ⊢ <;> omega

theorem subtracts_decimal : decimal.Subtracts subtractDecimal := by
  intro a b ha hb carried
  obtain ⟨low, high, hlow, hhigh, hresult, hcarry⟩ := subtractDecimal_spec a b carried
  obtain ⟨hahigh, halow⟩ := ha
  obtain ⟨hbhigh, hblow⟩ := hb
  have hcarried := carried.toNat_le
  rw [isDigit_decimal, Numeral.Column, hcarry, base_decimal]
  simp only [digit_decimal, hresult]
  cases low <;> cases high <;> simp at hlow hhigh ⊢ <;> omega

/-! ## Numbers of any length -/

/-- Chained over two decimal numbers of the same length, addition with adjustment
gives their decimal sum, and subtraction with adjustment their decimal difference.
The zero flag speaks of the last byte, and the subtraction flag is that of the
operation; with the flags as a byte the answers are the same. -/
theorem decimal_of_chains (as bs : List UInt8) (hlength : as.length = bs.length)
    (hne : as ≠ []) (has : ∀ a ∈ as, decimal.IsDigit a)
    (hbs : ∀ b ∈ bs, decimal.IsDigit b) (flags : Flags) :
    let sum := chain Flags.carry addDecimal flags as bs
    let difference := chain Flags.carry subtractDecimal flags as bs
    (decimal.IsSum as bs flags.carry sum.1 sum.2.carry ∧
      (sum.2.zero = true ↔ sum.1.getLast? = some 0) ∧ sum.2.subtract = false ∧
      chain Checked.FlagByte.carrySet
          (adjusted Checked.FlagByte.decimalAdjust Checked.FlagByte.addWithCarry)
          flags.toByte as bs = Prod.map id Flags.toByte sum) ∧
    (decimal.IsDifference as bs flags.carry difference.1 difference.2.carry ∧
      (difference.2.zero = true ↔ difference.1.getLast? = some 0) ∧
      difference.2.subtract = true ∧
      chain Checked.FlagByte.carrySet
          (adjusted Checked.FlagByte.decimalAdjust Checked.FlagByte.subtractWithCarry)
          flags.toByte as bs = Prod.map id Flags.toByte difference) := by
  intro sum difference
  constructor
  · refine ⟨Numeral.Adds.isSum_chain hlength has hbs flags adds_decimal, ?_, ?_, ?_⟩
    · exact zero_chain (fun _ _ _ => rfl) flags hlength hne
    · exact subtract_chain subtract_addDecimal flags hlength hne
    · exact chain_toByte (adjusted_toByte Checked.FlagByte.addWithCarry_eq) flags as bs
  · refine ⟨Numeral.Subtracts.isDifference_chain hlength has hbs flags subtracts_decimal,
      ?_, ?_, ?_⟩
    · exact zero_chain (fun _ _ _ => rfl) flags hlength hne
    · exact subtract_chain subtract_subtractDecimal flags hlength hne
    · exact chain_toByte (adjusted_toByte Checked.FlagByte.subtractWithCarry_eq) flags as bs

/-- 9999 and 1 add up to 10000, of which four digits stay, and 100 less 1 and a
borrow is 98. -/
theorem decimal_of_two_bytes :
    (∀ byte ∈ [0x99, 0x99], decimal.IsDigit byte) ∧
      (∀ byte ∈ [0x01, 0x00], decimal.IsDigit byte) ∧
      (∀ byte ∈ [0x00, 0x01], decimal.IsDigit byte) ∧
      decimal.IsSum [0x99, 0x99] [0x01, 0x00] false [0x00, 0x00] true ∧
      decimal.IsDifference [0x00, 0x01] [0x01, 0x00] true [0x98, 0x00] false := by
  have hnines : ∀ byte ∈ [0x99, 0x99], decimal.IsDigit byte := by simp [isDigit_decimal]
  have hone : ∀ byte ∈ [0x01, 0x00], decimal.IsDigit byte := by simp [isDigit_decimal]
  have hhundred : ∀ byte ∈ [0x00, 0x01], decimal.IsDigit byte := by simp [isDigit_decimal]
  refine ⟨hnines, hone, hhundred, ?_, ?_⟩
  · exact (decimal_of_chains [0x99, 0x99] [0x01, 0x00] rfl nofun hnines hone {}).1.1
  · exact (decimal_of_chains [0x00, 0x01] [0x01, 0x00] rfl nofun hhundred hone
      { carry := true }).2.1

end Handheld.Alu
