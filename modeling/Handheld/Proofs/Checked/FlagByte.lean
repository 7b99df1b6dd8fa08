import Mathlib.Data.Nat.Bitwise
import Handheld.Checked.FlagByte

/-!
# Carries read off bits are carries

The arithmetic that keeps its flags in one byte, and reads carries off bits,
answers what the arithmetic on numbers answers.

There are four groups.

* Bits of sums.  `testBit_xor_add` finds the carry into a bit,
  `and_upper_ne_zero` what a byte does not hold.
* Bytes.  The half carry of a sum is that of the digits, and a difference has
  that of the sum that it undoes.
* Words, with `carry_into_bit` for the carries into their bits.
* The decimal adjustment.

In each the equation of an operation says that its flags are, as a byte, those of
the operation on numbers.
-/

namespace Handheld

/-! ## Bits of sums -/

/-- A carry into a bit shows in the exclusive disjunction of the operands and the
sum. -/
theorem testBit_xor_add {w bit : Nat} (h : bit < w) (x y : BitVec w) (carry : Bool) :
    (x ^^^ y ^^^ (x + y + BitVec.setWidth w (BitVec.ofBool carry))).toNat.testBit bit =
      decide (2 ^ bit ≤ x.toNat % 2 ^ bit + y.toNat % 2 ^ bit + carry.toNat) := by
  rw [← BitVec.getLsbD, BitVec.getLsbD_xor, BitVec.getLsbD_xor, BitVec.getLsbD_add_add_bool h,
    BitVec.carry]
  cases x.getLsbD bit <;> cases y.getLsbD bit <;> simp

/-- A mask of one bit reads that bit of a word. -/
theorem word_and_mask_eq_testBit (value mask : UInt16) (bit : Nat) (h : mask.toNat = 2 ^ bit) :
    (value &&& mask != 0) = value.toNat.testBit bit := by
  have hbit : (value &&& mask).toNat = (value.toNat.testBit bit).toNat * 2 ^ bit := by
    rw [UInt16.toNat_and, h, Nat.and_two_pow]
  cases htest : value.toNat.testBit bit with
  | false =>
    rw [htest, Bool.toNat_false, Nat.zero_mul] at hbit
    rw [bne_eq_false_iff_eq, ← UInt16.toNat_inj, hbit, UInt16.toNat_zero]
  | true =>
    rw [htest, Bool.toNat_true, Nat.one_mul] at hbit
    rw [bne_iff_ne]
    intro hzero
    rw [hzero, UInt16.toNat_zero] at hbit
    exact Nat.ne_of_gt (Nat.two_pow_pos bit) hbit.symm

/-- A mask of one bit leaves that bit of a byte. -/
theorem and_mask_eq_ite (byte mask : UInt8) (bit : Nat) (h : mask.toNat = 2 ^ bit) :
    byte &&& mask = if byte &&& mask != 0 then mask else 0 := by
  have hbit : (byte &&& mask).toNat = (byte.toNat.testBit bit).toNat * 2 ^ bit := by
    rw [UInt8.toNat_and, h, Nat.and_two_pow]
  split
  · next hset =>
    rw [bne_iff_ne, ne_eq, ← UInt8.toNat_inj, hbit] at hset
    rw [← UInt8.toNat_inj, hbit, h]
    cases htest : byte.toNat.testBit bit with
    | false => simp [htest] at hset
    | true => rw [Bool.toNat_true, Nat.one_mul]
  · next hclear => simpa using hclear

/-- The mask of the upper byte finds what a byte does not hold. -/
theorem and_upper_ne_zero (value : UInt16) :
    (value &&& 0xFF00 != 0) = decide (256 ≤ value.toNat) := by
  have hmask : value &&& (0xFF00 : UInt16) = (value >>> 8) <<< 8 := by
    apply UInt16.toBitVec_inj.1
    exact (BitVec.shiftLeft_ushiftRight (x := value.toBitVec) (n := 8)).symm
  have hvalue := value.toNat_lt
  have htoNat : (value &&& 0xFF00).toNat = value.toNat / 256 * 256 := by
    rw [hmask]
    simp [Nat.shiftRight_eq_div_pow, Nat.shiftLeft_eq]
    omega
  rw [Bool.eq_iff_iff, bne_iff_ne, ne_eq, ← UInt16.toNat_inj, htoNat, decide_eq_true_iff]
  simp only [UInt16.toNat_zero]
  omega

/-- F keeps the bits of the flags, which are the upper four. -/
theorem Flags.toByte_ofByte (byte : UInt8) : (ofByte byte).toByte = byte &&& 0xF0 := by
  have hmask : (0xF0 : UInt8) = 0x80 ||| 0x40 ||| 0x20 ||| 0x10 := rfl
  have hsplit (more other : UInt8) :
      byte &&& (more ||| other) = byte &&& more ||| byte &&& other :=
    UInt8.toBitVec_inj.1 BitVec.and_or_distrib_left
  rw [hmask, hsplit, hsplit, hsplit,
    and_mask_eq_ite byte 0x80 7 rfl, and_mask_eq_ite byte 0x40 6 rfl,
    and_mask_eq_ite byte 0x20 5 rfl, and_mask_eq_ite byte 0x10 4 rfl]
  rfl

theorem Flags.toByte_and_carry (f : Flags) :
    f.toByte &&& 0x10 = if f.carry then 0x10 else 0 := by
  have hmask := and_mask_eq_ite f.toByte 0x10 4 rfl
  rwa [show (f.toByte &&& 0x10 != 0) = f.carry from congrArg Flags.carry f.ofByte_toByte] at hmask

/-- A carry counts as one. -/
@[simp] theorem toNat_toUInt8 (carry : Bool) : carry.toUInt8.toNat = carry.toNat := by
  cases carry <;> rfl

@[simp] theorem toNat_toUInt16 (carry : Bool) : carry.toUInt16.toNat = carry.toNat := by
  cases carry <;> rfl

theorem toNat_sum (a b : UInt8) (carried : Bool) :
    (a + b + carried.toUInt8).toNat = (a.toNat + b.toNat + carried.toNat) % 256 := by
  simp

theorem toNat_difference (a b : UInt8) (carried : Bool) :
    (a - b - carried.toUInt8).toNat =
      (a.toNat + 0x200 - b.toNat - carried.toNat) % 256 := by
  have ha := a.toNat_lt
  have hb := b.toNat_lt
  have hcarried := carried.toNat_le
  simp [UInt8.toNat_sub]
  omega

namespace Checked.FlagByte

/-! ## Bytes -/

/-- The half carry of a sum is the carry out of the low digits. -/
theorem half_of_sum (a b : UInt8) (carried : Bool) :
    half a b (a + b + carried.toUInt8) =
      if 16 ≤ a.toNat % 16 + b.toNat % 16 + carried.toNat then 0x20 else 0 := by
  have hcarried : carried.toUInt8.toBitVec = BitVec.setWidth 8 (BitVec.ofBool carried) := by
    cases carried <;> rfl
  have hbit := testBit_xor_add (show 4 < 8 by decide) a.toBitVec b.toBitVec carried
  rw [← hcarried, ← UInt8.toBitVec_add, ← UInt8.toBitVec_add, ← UInt8.toBitVec_xor,
    ← UInt8.toBitVec_xor] at hbit
  simp only [half, and_mask_eq_testBit _ 0x10 4 rfl]
  rw [← UInt8.toNat_toBitVec, hbit]
  simp

/-- The half carry of a difference is the borrow of the low digits. -/
theorem half_of_difference (a b : UInt8) (carried : Bool) :
    half a b (a - b - carried.toUInt8) =
      if a.toNat % 16 < b.toNat % 16 + carried.toNat then 0x20 else 0 := by
  generalize hresult : a - b - carried.toUInt8 = result
  -- the first operand is the sum of the result, the second operand and the borrow
  have hsum : result + b + carried.toUInt8 = a := by grind
  have hhalf : half a b result = half result b a := by
    have hcommute : a ^^^ b ^^^ result = result ^^^ b ^^^ a := by grind
    unfold half
    rw [hcommute]
  have hcarry := half_of_sum result b carried
  have hnat : a.toNat = (result.toNat + b.toNat + carried.toNat) % 256 := by
    rw [← toNat_sum, hsum]
  have hiff : 16 ≤ result.toNat % 16 + b.toNat % 16 + carried.toNat ↔
      a.toNat % 16 < b.toNat % 16 + carried.toNat := by
    have hcarried := carried.toNat_le
    omega
  rw [hsum] at hcarry
  simp only [hhalf, hcarry, hiff]

theorem add_eq (a b : UInt8) : add a b = Prod.map id Flags.toByte (Alu.add a b) := by
  have hsum : a + b + false.toUInt8 = a + b := UInt8.add_zero _
  have hhalf := half_of_sum a b false
  have hcarry : a + b < a ↔ 256 ≤ a.toNat + b.toNat := by
    have ha := a.toNat_lt
    have hb := b.toNat_lt
    rw [UInt8.lt_iff_toNat_lt, UInt8.toNat_add]
    omega
  rw [hsum, Bool.toNat_false, Nat.add_zero] at hhalf
  simp [add, Alu.add, Alu.addWithCarry, Flags.toByte, zero, carry, hsum, hhalf, hcarry]

theorem addWithCarry_eq (a b : UInt8) (carried : Bool) :
    addWithCarry a b carried = Prod.map id Flags.toByte (Alu.addWithCarry a b carried) := by
  have hsum : (a.toUInt16 + b.toUInt16 + carried.toUInt16).toNat =
      a.toNat + b.toNat + carried.toNat := by
    have ha := a.toNat_lt
    have hb := b.toNat_lt
    have hcarried := carried.toNat_le
    simp
    omega
  have hresult : (a.toUInt16 + b.toUInt16 + carried.toUInt16).toUInt8 =
      a + b + carried.toUInt8 := by
    apply UInt8.toNat_inj.1
    rw [UInt16.toNat_toUInt8, hsum, toNat_sum]
  have hhalf := half_of_sum a b carried
  simp [addWithCarry, Alu.addWithCarry, Flags.toByte, zero, carry, hresult, hhalf,
    and_upper_ne_zero, hsum]

theorem subtractWithCarry_eq (a b : UInt8) (carried : Bool) :
    subtractWithCarry a b carried =
      Prod.map id Flags.toByte (Alu.subtractWithCarry a b carried) := by
  have ha := a.toNat_lt
  have hb := b.toNat_lt
  have hcarried := carried.toNat_le
  have hdifference : (a.toUInt16 - b.toUInt16 - carried.toUInt16).toNat =
      (a.toNat + 0x20000 - b.toNat - carried.toNat) % 0x10000 := by
    simp [UInt16.toNat_sub]
    omega
  have hresult : (a.toUInt16 - b.toUInt16 - carried.toUInt16).toUInt8 =
      a - b - carried.toUInt8 := by
    apply UInt8.toNat_inj.1
    rw [UInt16.toNat_toUInt8, hdifference, toNat_difference]
    omega
  have hborrow : 256 ≤ (a.toUInt16 - b.toUInt16 - carried.toUInt16).toNat ↔
      a.toNat < b.toNat + carried.toNat := by
    rw [hdifference]
    omega
  have hhalf := half_of_difference a b carried
  simp [subtractWithCarry, Alu.subtractWithCarry, Flags.toByte, zero, carry, hresult, hhalf,
    and_upper_ne_zero, hborrow]
  ac_rfl

theorem subtract_eq (a b : UInt8) : subtract a b = Prod.map id Flags.toByte (Alu.subtract a b) := by
  have hdifference : a - b - false.toUInt8 = a - b := UInt8.sub_zero _
  have hhalf := half_of_difference a b false
  have hborrow : a < a - b ↔ a.toNat < b.toNat := by
    have ha := a.toNat_lt
    have hb := b.toNat_lt
    rw [UInt8.lt_iff_toNat_lt, UInt8.toNat_sub]
    omega
  rw [hdifference, Bool.toNat_false, Nat.add_zero] at hhalf
  simp [subtract, Alu.subtract, Alu.subtractWithCarry, Flags.toByte, zero, carry, hdifference,
    hhalf, hborrow]
  ac_rfl

theorem increment_eq (value : UInt8) (f : Flags) :
    increment value f.toByte = Prod.map id Flags.toByte (Alu.increment value f) := by
  have hsum : value + 1 + false.toUInt8 = value + 1 := UInt8.add_zero _
  have hhalf := half_of_sum value 1 false
  have hdigit : 16 ≤ value.toNat % 16 + (1 : UInt8).toNat % 16 ↔ value.toNat % 16 = 15 := by
    have hone : (1 : UInt8).toNat = 1 := rfl
    omega
  rw [hsum, Bool.toNat_false, Nat.add_zero] at hhalf
  simp only [hdigit] at hhalf
  rw [increment, Flags.toByte_and_carry]
  simp [Alu.increment, Flags.toByte, zero, hhalf]
  ac_rfl

theorem decrement_eq (value : UInt8) (f : Flags) :
    decrement value f.toByte = Prod.map id Flags.toByte (Alu.decrement value f) := by
  have hdifference : value - 1 - false.toUInt8 = value - 1 := UInt8.sub_zero _
  have hhalf := half_of_difference value 1 false
  have hdigit : value.toNat % 16 < (1 : UInt8).toNat % 16 ↔ value.toNat % 16 = 0 := by
    have hone : (1 : UInt8).toNat = 1 := rfl
    omega
  rw [hdifference, Bool.toNat_false, Nat.add_zero] at hhalf
  simp only [hdigit] at hhalf
  rw [decrement, Flags.toByte_and_carry]
  simp [Alu.decrement, Flags.toByte, zero, hhalf]
  ac_rfl

theorem testBit_eq (n : Fin 8) (value : UInt8) (f : Flags) :
    testBit n value f.toByte = (Alu.testBit n value f).toByte := by
  rw [testBit, Flags.toByte_and_carry]
  simp [Alu.testBit, Flags.toByte, zero]
  ac_rfl

theorem carrySet_toByte (f : Flags) : carrySet f.toByte = f.carry := by
  rw [carrySet, Flags.toByte_and_carry]
  cases f.carry <;> rfl

theorem shifted_eq (result : UInt8) (out : Bool) :
    shifted result out = (result, Flags.toByte { zero := result == 0, carry := out }) := by
  simp [shifted, Flags.toByte, zero, carry]

/-! ## Words -/

/-- A byte read with its sign is the word that stands for the same number. -/
theorem toInt16_toUInt16 (offset : UInt8) :
    offset.toInt8.toInt16.toUInt16 = signExtend offset := by
  apply UInt16.toNat_inj.1
  have hoffset := offset.toNat_lt
  have hextended : offset.toInt8.toInt16.toUInt16.toNat =
      (offset.toBitVec.signExtend 16).toNat := rfl
  have hsign : offset.toBitVec.msb = true ↔ 0x80 ≤ offset.toNat := by
    simp [BitVec.msb_eq_decide]
  rw [hextended, BitVec.toNat_signExtend, signExtend]
  simp only [hsign, UInt8.lt_iff_toNat_lt, UInt8.reduceToNat]
  by_cases hnegative : 0x80 ≤ offset.toNat
  · rw [if_pos hnegative, if_neg (by omega)]
    simp
    omega
  · rw [if_neg hnegative, if_pos (by omega)]
    simp

/-- A carry into a bit of a sum of words, read through a mask. -/
theorem carry_into_bit (a b mask : UInt16) {bit : Nat} (hbit : bit < 16)
    (hmask : mask.toNat = 2 ^ bit) :
    ((a ^^^ b ^^^ (a + b)) &&& mask != 0) =
      decide (2 ^ bit ≤ a.toNat % 2 ^ bit + b.toNat % 2 ^ bit) := by
  have hcarry := testBit_xor_add hbit a.toBitVec b.toBitVec false
  have hzero : BitVec.setWidth 16 (BitVec.ofBool false) = 0#16 := rfl
  rw [hzero, BitVec.add_zero, ← UInt16.toBitVec_add, ← UInt16.toBitVec_xor,
    ← UInt16.toBitVec_xor, Bool.toNat_false, Nat.add_zero] at hcarry
  rw [word_and_mask_eq_testBit _ mask bit hmask]
  exact hcarry

theorem addWords_eq (a b : UInt16) (flags : UInt8) :
    addWords a b flags = Prod.map id Flags.toByte (Alu.addWords a b (.ofByte flags)) := by
  have hhalf := carry_into_bit a b 0x1000 (show 12 < 16 by decide) rfl
  have hcarry : a + b < a ↔ 65536 ≤ a.toNat + b.toNat := by
    have ha := a.toNat_lt
    have hb := b.toNat_lt
    rw [UInt16.lt_iff_toNat_lt, UInt16.toNat_add]
    omega
  have hzero : flags &&& 0x80 = if (Flags.ofByte flags).zero then 0x80 else 0 :=
    and_mask_eq_ite flags 0x80 7 rfl
  simp [addWords, Alu.addWords, Flags.toByte, carry, hzero, hhalf, hcarry]

theorem addSigned_eq (a : UInt16) (offset : UInt8) :
    addSigned a offset = Prod.map id Flags.toByte (Alu.addSigned a offset) := by
  have hhalf := carry_into_bit a (signExtend offset) 0x10 (show 4 < 16 by decide) rfl
  have hcarry := carry_into_bit a (signExtend offset) 0x100 (show 8 < 16 by decide) rfl
  have hlow : (signExtend offset).toNat % 256 = offset.toNat := by
    have hoffset := offset.toNat_lt
    unfold signExtend
    split
    · simp
    · simp
      omega
  have hdigit : (signExtend offset).toNat % 16 = offset.toNat % 16 := by omega
  simp [addSigned, Alu.addSigned, Flags.toByte, carry, toInt16_toUInt16, hhalf, hcarry, hlow,
    hdigit]

/-! ## The decimal adjustment -/

/-- The two amounts of an adjustment have no bit in common. -/
theorem or_eq_add (low high : Bool) :
    ((if low then 0x06 else 0) ||| if high then 0x60 else 0 : UInt8) =
      (if low then 0x06 else 0) + if high then 0x60 else 0 := by
  cases low <;> cases high <;> rfl

theorem decimalAdjust_eq (a flags : UInt8) :
    decimalAdjust a flags =
      Prod.map id Flags.toByte (Alu.decimalAdjust a (.ofByte flags)) := by
  have hlow : 0x09 < a &&& 0x0F ↔ 9 < a.toNat % 16 := by
    have hdigit : a.toNat &&& 15 = a.toNat % 16 := Nat.and_two_pow_sub_one_eq_mod a.toNat 4
    rw [UInt8.lt_iff_toNat_lt, UInt8.toNat_and, ← hdigit]
    rfl
  have hhigh : 0x99 < a ↔ 0x99 < a.toNat := UInt8.lt_iff_toNat_lt
  have hsubtract : flags &&& 0x40 = if (Flags.ofByte flags).subtract then 0x40 else 0 :=
    and_mask_eq_ite flags 0x40 6 rfl
  have hhalf : (flags &&& 0x20 != 0) = (Flags.ofByte flags).half := rfl
  have hcarry : carrySet flags = (Flags.ofByte flags).carry := rfl
  simp only [decimalAdjust, Alu.decimalAdjust, hsubtract, hhalf, hcarry, hlow, hhigh, or_eq_add]
  generalize Flags.ofByte flags = f
  cases hf : f.subtract with
  | false => simp [Flags.toByte, zero, carry]
  | true => simp [Flags.toByte, zero, carry]

end Checked.FlagByte
end Handheld
