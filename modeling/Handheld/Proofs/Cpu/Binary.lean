import Handheld.Proofs.Cpu.Numeral

/-!
# Binary arithmetic

A byte is a digit of base 256.  Addition with carry adds numbers of any length
byte by byte, and subtraction with borrow subtracts them.  The adders of words
fit in: the sum of two words is that of their low bytes and then of their high
bytes, and a signed byte is added to a word with the carries of its low byte.

The result is `binary_of_chains`.
-/

namespace Handheld.Alu

/-! ## Bytes as digits -/

theorem one_lt_byteRange : 1 < 256 := by decide

/-- Each byte is a digit. -/
def binary : Numeral where
  base := 256
  IsDigit _ := True
  digit byte := byte.toNat
  one_lt_base := one_lt_byteRange
  digit_lt {byte} _ := byte.toNat_lt

theorem isDigit_binary {bytes : List UInt8} : ∀ byte ∈ bytes, binary.IsDigit byte :=
  fun _ _ => trivial

theorem column_binary (a b : UInt8) (carried : Bool) (result : UInt8) (carry : Bool) :
    binary.Column a b carried result carry ↔
      a.toNat + b.toNat + carried.toNat = result.toNat + 256 * carry.toNat := Iff.rfl

theorem adds_binary : binary.Adds addWithCarry := by
  intro a b _ _ carried
  have ha := a.toNat_lt
  have hb := b.toNat_lt
  have hcarried := carried.toNat_le
  refine ⟨trivial, ?_⟩
  simp only [column_binary, addWithCarry, toNat_sum]
  by_cases hcarry : 256 ≤ a.toNat + b.toNat + carried.toNat <;> simp [hcarry] <;> omega

theorem subtracts_binary : binary.Subtracts subtractWithCarry := by
  intro a b _ _ carried
  have ha := a.toNat_lt
  have hb := b.toNat_lt
  have hcarried := carried.toNat_le
  refine ⟨trivial, ?_⟩
  simp only [column_binary, subtractWithCarry, toNat_difference]
  by_cases hborrow : a.toNat < b.toNat + carried.toNat <;> simp [hborrow] <;> omega

/-! ## Words -/

/-- The sum of two words is that of their low bytes, followed by that of their high
bytes. -/
theorem addWords_by_bytes (a b : UInt16) (f : Flags) :
    let low := add (lowByte a) (lowByte b)
    let high := addWithCarry (highByte a) (highByte b) low.2.carry
    addWords a b f =
      (word high.1 low.1,
        { zero := f.zero, subtract := false, half := high.2.half, carry := high.2.carry }) := by
  intro low high
  have ha := a.toNat_lt
  have hb := b.toNat_lt
  have hlow := (adds_binary (lowByte a) (lowByte b) trivial trivial false).2
  have hhigh := (adds_binary (highByte a) (highByte b) trivial trivial low.2.carry).2
  rw [column_binary, lowByte_toNat, lowByte_toNat, Bool.toNat_false, Nat.add_zero] at hlow
  rw [column_binary, highByte_toNat, highByte_toNat] at hhigh
  change _ = low.1.toNat + 256 * low.2.carry.toNat at hlow
  change _ = high.1.toNat + 256 * high.2.carry.toNat at hhigh
  have hlowlt := low.1.toNat_lt
  have hhighlt := high.1.toNat_lt
  have hword : a + b = word high.1 low.1 := by
    apply UInt16.toNat_inj.1
    rw [word_toNat, UInt16.toNat_add]
    omega
  have hhalf : high.2.half =
      decide (16 ≤ a.toNat / 256 % 16 + b.toNat / 256 % 16 + low.2.carry.toNat) := by
    rw [← highByte_toNat, ← highByte_toNat]
    rfl
  have hcarry : high.2.carry =
      decide (256 ≤ a.toNat / 256 + b.toNat / 256 + low.2.carry.toNat) := by
    rw [← highByte_toNat, ← highByte_toNat]
    rfl
  have hhalf_iff : 4096 ≤ a.toNat % 4096 + b.toNat % 4096 ↔
      16 ≤ a.toNat / 256 % 16 + b.toNat / 256 % 16 + low.2.carry.toNat := by omega
  have hcarry_iff : 65536 ≤ a.toNat + b.toNat ↔
      256 ≤ a.toNat / 256 + b.toNat / 256 + low.2.carry.toNat := by omega
  simp only [addWords, hword, hhalf, hcarry, hhalf_iff, hcarry_iff]

theorem signExtend_toNat (offset : UInt8) :
    ((signExtend offset).toNat : Int) = signedValue offset % 65536 := by
  have hoffset := offset.toNat_lt
  have hupper : (0xFF00 : UInt16).toNat = 0xFF00 := rfl
  unfold signExtend signedValue
  split
  · rw [UInt8.toNat_toUInt16]
    omega
  · rw [UInt16.toNat_add, UInt8.toNat_toUInt16, hupper]
    omega

/-- A signed byte is added to a word as to the word's low byte, as far as the flags
tell. -/
theorem addSigned_by_bytes (a : UInt16) (offset : UInt8) :
    ((addSigned a offset).1.toNat : Int) = (a.toNat + signedValue offset) % 65536 ∧
      (addSigned a offset).2 =
        { zero := false
          subtract := false
          half := (add (lowByte a) offset).2.half
          carry := (add (lowByte a) offset).2.carry } := by
  constructor
  · have hextend := signExtend_toNat offset
    rw [addSigned, UInt16.toNat_add]
    omega
  · have hlow : a.toNat % 256 % 16 = a.toNat % 16 := by omega
    simp [addSigned, add, addWithCarry, lowByte_toNat, hlow]

/-! ## Numbers of any length -/

/-- Chained over two numbers of the same length, addition with carry gives their
sum, and subtraction with borrow their difference.  The sum of two words is such a
chain, but for the zero flag, and a signed byte is added with the carries of the
low byte.  With the flags as a byte, and the carries read off bits, the answers are
the same. -/
theorem binary_of_chains (as bs : List UInt8) (hlength : as.length = bs.length)
    (flags : Flags) :
    (let sum := chain Flags.carry addWithCarry flags as bs
     binary.IsSum as bs flags.carry sum.1 sum.2.carry ∧
      chain Checked.FlagByte.carrySet Checked.FlagByte.addWithCarry flags.toByte as bs =
        Prod.map id Flags.toByte sum) ∧
    (let difference := chain Flags.carry subtractWithCarry flags as bs
     binary.IsDifference as bs flags.carry difference.1 difference.2.carry ∧
      chain Checked.FlagByte.carrySet Checked.FlagByte.subtractWithCarry flags.toByte as bs =
        Prod.map id Flags.toByte difference) ∧
    (∀ (hl v : UInt16) (f : Flags),
      let low := add (lowByte hl) (lowByte v)
      let high := addWithCarry (highByte hl) (highByte v) low.2.carry
      addWords hl v f =
        (word high.1 low.1,
          { zero := f.zero, subtract := false, half := high.2.half, carry := high.2.carry })) ∧
    (∀ (sp : UInt16) (e : UInt8),
      ((addSigned sp e).1.toNat : Int) = (sp.toNat + signedValue e) % 65536 ∧
      (addSigned sp e).2 =
        { zero := false
          subtract := false
          half := (add (lowByte sp) e).2.half
          carry := (add (lowByte sp) e).2.carry }) ∧
    (∀ a b, Checked.FlagByte.add a b = Prod.map id Flags.toByte (add a b)) ∧
    (∀ hl v f, Checked.FlagByte.addWords hl v f =
      Prod.map id Flags.toByte (addWords hl v (.ofByte f))) ∧
    (∀ sp e, Checked.FlagByte.addSigned sp e = Prod.map id Flags.toByte (addSigned sp e)) := by
  refine ⟨⟨?_, ?_⟩, ⟨?_, ?_⟩, addWords_by_bytes, addSigned_by_bytes,
    Checked.FlagByte.add_eq, Checked.FlagByte.addWords_eq, Checked.FlagByte.addSigned_eq⟩
  · exact adds_binary.isSum_chain hlength isDigit_binary isDigit_binary flags
  · exact chain_toByte Checked.FlagByte.addWithCarry_eq flags as bs
  · exact subtracts_binary.isDifference_chain hlength isDigit_binary isDigit_binary flags
  · exact chain_toByte Checked.FlagByte.subtractWithCarry_eq flags as bs

/-- 0xFFFF and 1 add up to 0x10000, of which two bytes stay, and 0 less 0 and a
borrow is 0xFFFF with a borrow. -/
theorem binary_of_two_bytes :
    binary.IsSum [0xFF, 0xFF] [0x01, 0x00] false [0x00, 0x00] true ∧
      binary.IsDifference [0x00, 0x00] [0x00, 0x00] true [0xFF, 0xFF] true :=
  ⟨(binary_of_chains [0xFF, 0xFF] [0x01, 0x00] rfl {}).1.1,
   (binary_of_chains [0x00, 0x00] [0x00, 0x00] rfl { carry := true }).2.1.1⟩

end Handheld.Alu
