/-!
# Bytes and words

The machine handles bytes (`UInt8`) and little-endian sixteen-bit words
(`UInt16`).  A word is built from a high and a low byte, and taken apart
into them.  All arithmetic on bytes and words wraps.

Fields of two and three bits are numbers below four and eight.
-/

namespace Handheld

/-- For literals of two-bit fields. -/
instance instNeZeroFour : @NeZero Nat Zero.ofOfNat0 4 := Nat.instNeZeroSucc

/-- For literals of three-bit fields. -/
instance instNeZeroEight : @NeZero Nat Zero.ofOfNat0 8 := Nat.instNeZeroSucc

/-- The word with the given high and low bytes. -/
@[inline] def word (high low : UInt8) : UInt16 :=
  high.toUInt16 * 256 + low.toUInt16

/-- Bits 8 to 15 of a word. -/
@[inline] def highByte (w : UInt16) : UInt8 :=
  (w >>> 8).toUInt8

/-- Bits 0 to 7 of a word. -/
@[inline] def lowByte (w : UInt16) : UInt8 :=
  w.toUInt8

/-- The word that stands for the same two's-complement number as the byte. -/
@[inline] def signExtend (b : UInt8) : UInt16 :=
  if b < 0x80 then b.toUInt16 else b.toUInt16 + 0xFF00

/-- The two's-complement number that a byte stands for. -/
def signedValue (b : UInt8) : Int :=
  if b < 0x80 then b.toNat else b.toNat - 256

/-- A byte below 255 goes up by one without wrapping. -/
theorem toNat_add_one {byte : UInt8} (h : byte.toNat < 255) :
    (byte + 1).toNat = byte.toNat + 1 := by
  rw [UInt8.toNat_add]
  simp only [UInt8.reduceToNat]
  omega

/-- A mask of one bit reads that bit. -/
theorem and_mask_eq_testBit (byte mask : UInt8) (bit : Nat) (h : mask.toNat = 1 <<< bit) :
    (byte &&& mask != 0) = byte.toNat.testBit bit := by
  have hbits : ∀ k, (byte &&& mask).toNat.testBit k =
      (byte.toNat.testBit k && decide (bit = k)) := by
    intro k
    rw [UInt8.toNat_and, h, Nat.one_shiftLeft, Nat.testBit_and, Nat.testBit_two_pow]
  cases hbit : byte.toNat.testBit bit with
  | false =>
    rw [bne_eq_false_iff_eq, ← UInt8.toNat_inj]
    apply Nat.eq_of_testBit_eq
    intro k
    rw [hbits, UInt8.toNat_zero, Nat.zero_testBit]
    by_cases hk : bit = k
    · rw [← hk, hbit, Bool.false_and]
    · rw [decide_eq_false hk, Bool.and_false]
  | true =>
    rw [bne_iff_ne]
    intro hzero
    have hset := hbits bit
    rw [hzero, hbit, UInt8.toNat_zero, Nat.zero_testBit, decide_eq_true rfl] at hset
    cases hset

theorem word_toNat (high low : UInt8) :
    (word high low).toNat = 256 * high.toNat + low.toNat := by
  have hhigh := high.toNat_lt
  have hlow := low.toNat_lt
  simp only [word, UInt16.toNat_add, UInt16.toNat_mul, UInt8.toNat_toUInt16,
    UInt16.reduceToNat]
  omega

theorem highByte_toNat (w : UInt16) : (highByte w).toNat = w.toNat / 256 := by
  have hw := w.toNat_lt
  simp [highByte, Nat.shiftRight_eq_div_pow]
  omega

theorem lowByte_toNat (w : UInt16) : (lowByte w).toNat = w.toNat % 256 := by
  simp [lowByte]

/-- Taking a word apart gives back the bytes it was built from. -/
@[simp] theorem highByte_word (high low : UInt8) : highByte (word high low) = high := by
  apply UInt8.toNat_inj.1
  rw [highByte_toNat, word_toNat]
  have := low.toNat_lt
  omega

@[simp] theorem lowByte_word (high low : UInt8) : lowByte (word high low) = low := by
  apply UInt8.toNat_inj.1
  rw [lowByte_toNat, word_toNat]
  have := low.toNat_lt
  omega

/-- A word is its two bytes put together again. -/
@[simp] theorem word_highByte_lowByte (w : UInt16) : word (highByte w) (lowByte w) = w := by
  apply UInt16.toNat_inj.1
  rw [word_toNat, highByte_toNat, lowByte_toNat]
  omega

end Handheld
