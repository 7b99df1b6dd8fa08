import Mathlib.Tactic.IntervalCases
import Handheld.Checked.Cpu

/-!
# Opcodes and arms

The arm that an opcode takes, together with the opcode, is the instruction that
the opcode decodes to.  One look at each of the 256 opcodes and of the 256
behind CB settles it; everything else about arms is said once for each arm.
-/

namespace Handheld

/-- What holds of the numbers below 256 holds of every byte. -/
theorem forall_byte {P : UInt8 → Prop} (h : ∀ n < 256, P (.ofNat n)) (byte : UInt8) :
    P byte := by
  have hbyte := h byte.toNat byte.toNat_lt
  rwa [UInt8.ofNat_toNat] at hbyte

namespace Checked

/-- The number in the three low bits of a byte. -/
def lowThree (index : UInt8) : Fin 8 := .ofNat 8 index.toNat

/-- The number in the two low bits of a byte. -/
def lowTwo (index : UInt8) : Fin 4 := .ofNat 4 index.toNat

theorem and_seven (index : UInt8) : (index &&& 7).toNat = (lowThree index).val := by
  rw [UInt8.toNat_and]
  exact Nat.and_two_pow_sub_one_eq_mod _ 3

theorem and_three (index : UInt8) : (index &&& 3).toNat = (lowTwo index).val := by
  rw [UInt8.toNat_and]
  exact Nat.and_two_pow_sub_one_eq_mod _ 2

theorem lowThree_and_seven (index : UInt8) : lowThree (index &&& 7) = lowThree index := by
  refine Fin.ext ?_
  change (index &&& 7).toNat % 8 = _
  rw [and_seven]
  exact Nat.mod_eq_of_lt (lowThree index).isLt

/-- The page of the high-memory operands. -/
theorem or_eq_highAddress (offset : UInt8) : 0xFF00 ||| offset.toUInt16 = highAddress offset := by
  induction offset using forall_byte with
  | h n hn =>
    revert n
    decide +kernel

/-- A restart goes where its slot begins. -/
theorem and_eq_restartAddress (opcode : UInt8) :
    (opcode &&& 0x38).toUInt16 = restartAddress (lowThree (opcode >>> 3)) := by
  induction opcode using forall_byte with
  | h n hn =>
    revert n
    decide +kernel

/-- The instruction that an arm executes, given the opcode and the bytes behind
it. -/
def Arm.instruction (arm : Arm) (opcode low high : UInt8) : Instruction :=
  let y := lowThree (opcode >>> 3)
  let pair := lowTwo (opcode >>> 4)
  let condition := some (Condition.ofIndex (lowTwo (opcode >>> 3)))
  match arm with
  | nop => .nop
  | loadPair => .loadPair (.ofIndex pair) (word high low)
  | storeA => .storeThrough (.ofIndex pair)
  | storeAMoving => .storeThrough (if opcode == 0x22 then .hlUp else .hlDown)
  | loadA => .loadThrough (.ofIndex pair)
  | loadAMoving => .loadThrough (if opcode == 0x2A then .hlUp else .hlDown)
  | incrementPair => .incrementPair (.ofIndex pair)
  | decrementPair => .decrementPair (.ofIndex pair)
  | increment => .increment (.ofIndex y)
  | decrement => .decrement (.ofIndex y)
  | loadByte => .loadImmediate (.ofIndex y) low
  | rotateA => .adjust (.ofIndex y)
  | storeSp => .storeSp (word high low)
  | addHL => .addPair (.ofIndex pair)
  | stop => .stop
  | jumpRelative => .jumpRelative none low
  | jumpRelativeIf => .jumpRelative condition low
  | decimal => .adjust .decimal
  | complement => .adjust .complement
  | setCarry => .adjust .setCarry
  | flipCarry => .adjust .flipCarry
  | halt => .halt
  | load => .load (.ofIndex y) (.ofIndex (lowThree opcode))
  | arithmetic => .arithmetic (.ofIndex y) (.ofIndex (lowThree opcode))
  | arithmeticByte => .arithmeticImmediate (.ofIndex y) low
  | returnIf => .ret condition
  | .return => .ret none
  | returnEnabling => .reti
  | jumpIf => .jump condition (word high low)
  | jump => .jump none (word high low)
  | jumpHL => .jumpHL
  | callIf => .call condition (word high low)
  | call => .call none (word high low)
  | pop => .pop (.ofIndex pair)
  | push => .push (.ofIndex pair)
  | restart => .restart y
  | extended => .ofExtended low
  | storeHigh => .storeHigh low
  | loadHigh => .loadHigh low
  | storeHighC => .storeHighC
  | loadHighC => .loadHighC
  | storeAt => .storeAt (word high low)
  | loadAt => .loadAt (word high low)
  | addSp => .addSp low
  | loadHLFromSp => .loadHLFromSp low
  | loadSpFromHL => .loadSpFromHL
  | disable => .disableInterrupts
  | enable => .enableInterrupts
  | unassigned => .unassigned opcode

/-- An opcode decodes to the instruction that its arm executes. -/
theorem ofBytes_eq_arm (opcode low high : UInt8) :
    Instruction.ofBytes opcode low high = (Arm.of opcode).instruction opcode low high := by
  induction opcode using forall_byte with
  | h n hn => interval_cases n <;> rfl

/-- The opcode of the arm that leads to the second table, and the opcodes of the
arms where the number of an operand depends on the opcode as a whole. -/
theorem mem_of_arm (opcode : UInt8) :
    (Arm.of opcode = .extended → opcode = 0xCB) ∧
      (Arm.of opcode = .storeA → opcode ∈ [0x02, 0x12]) ∧
      (Arm.of opcode = .loadA → opcode ∈ [0x0A, 0x1A]) ∧
      (Arm.of opcode = .rotateA → opcode ∈ [0x07, 0x0F, 0x17, 0x1F]) := by
  induction opcode using forall_byte with
  | h n hn =>
    revert n
    decide +kernel

/-- Of the arms, one takes the opcode CB. -/
theorem of_eq_extended_iff (opcode : UInt8) : Arm.of opcode = .extended ↔ opcode = 0xCB := by
  refine ⟨(mem_of_arm opcode).1, ?_⟩
  rintro rfl
  rfl

/-- The instructions behind CB lie in four blocks. -/
theorem ofExtended_eq (opcode : UInt8) :
    Instruction.ofExtended opcode =
      if opcode ≤ 0x3F then
        .rotate (.ofIndex (lowThree (opcode >>> 3))) (.ofIndex (lowThree opcode))
      else if opcode ≤ 0x7F then
        .testBit (lowThree (opcode >>> 3)) (.ofIndex (lowThree opcode))
      else if opcode ≤ 0xBF then
        .resetBit (lowThree (opcode >>> 3)) (.ofIndex (lowThree opcode))
      else .setBit (lowThree (opcode >>> 3)) (.ofIndex (lowThree opcode)) := by
  induction opcode using forall_byte with
  | h n hn =>
    revert n
    decide +kernel

/-! ## Lengths -/

theorem length_pos (i : Instruction) : 1 ≤ i.length := by
  cases i <;> exact Nat.succ_pos _

theorem length_ofExtended (opcode : UInt8) : (Instruction.ofExtended opcode).length = 2 := by
  rw [ofExtended_eq]
  split_ifs <;> rfl

/-! ## Costs -/

theorem takenCycles?_ofExtended (opcode : UInt8) :
    (Instruction.ofExtended opcode).takenCycles? = none := by
  rw [ofExtended_eq]
  split_ifs <;> rfl

theorem getArray_of_getElem? {α : Type} {v : Array α} {i : Nat} {a : α} (h : v[i]? = some a) :
    getArray v i = .ok a := by
  obtain ⟨hlt, heq⟩ := Array.getElem?_eq_some_iff.1 h
  rw [getArray_eq_ok hlt, heq]

/-- No immediate value has a part in the cost of an opcode. -/
theorem cycles_congr {opcode : UInt8} (h : opcode ≠ 0xCB) (low high low' high' : UInt8) :
    (Instruction.ofBytes opcode low high).cycles =
        (Instruction.ofBytes opcode low' high').cycles ∧
      (Instruction.ofBytes opcode low high).takenCycles? =
        (Instruction.ofBytes opcode low' high').takenCycles? := by
  rw [ofBytes_eq_arm, ofBytes_eq_arm]
  have harm : Arm.of opcode ≠ .extended := fun hext => h ((of_eq_extended_iff opcode).1 hext)
  generalize Arm.of opcode = arm at harm
  cases arm <;>
    simp_all [Arm.instruction, Instruction.cycles, Instruction.takenCycles?]

theorem getArray_baseCycles {opcode : UInt8} (h : opcode ≠ 0xCB) (low high : UInt8) :
    getArray baseCycles opcode.toNat = .ok (Instruction.ofBytes opcode low high).cycles := by
  have hall : baseCycles.toList =
      (List.range 256).map fun n => Instruction.opcodeCycles (.ofNat n) := by
    decide +kernel
  refine getArray_of_getElem? ?_
  rw [← Array.getElem?_toList, hall, List.getElem?_map, List.getElem?_range opcode.toNat_lt,
    Option.map_some, UInt8.ofNat_toNat, Instruction.opcodeCycles, if_neg h,
    (cycles_congr h low high 0 0).1]

theorem takenCycles_eq {opcode : UInt8} (h : opcode ≠ 0xCB) (low high : UInt8) :
    takenCycles opcode = (Instruction.ofBytes opcode low high).takenCycles? := by
  rw [(cycles_congr h low high 0 0).2]
  induction opcode using forall_byte with
  | h n hn =>
    revert n
    decide +kernel

theorem getArray_extendedCycles (opcode : UInt8) :
    getArray extendedCycles opcode.toNat = .ok (Instruction.ofExtended opcode).cycles := by
  have hall : ∀ n < 256,
      (if n % 8 = 6 then 4 else 2) = (Instruction.ofExtended (.ofNat n)).cycles := by
    decide +kernel
  refine getArray_of_getElem? ?_
  have hcost := hall opcode.toNat opcode.toNat_lt
  rw [UInt8.ofNat_toNat] at hcost
  rw [extendedCycles, Array.getElem?_ofFn, dif_pos opcode.toNat_lt, hcost]

end Checked
end Handheld
