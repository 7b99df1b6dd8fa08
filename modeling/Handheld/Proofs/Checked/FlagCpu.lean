import Handheld.Checked.FlagCpu
import Handheld.Proofs.Checked.FlagByte

/-!
# The flags as one byte

A CPU that keeps F as a byte executes every instruction as a CPU with four flags
does: `FlagCpu.ofCpu` is the one that stands for a CPU, and `execute_ofCpu` says that
executing an instruction leads to the one that stands for the CPU afterwards.

There are three groups.

* The register F.  Its bits are the flags, and what is written to it is read back
  without its low digit.
* The parts of an instruction: storing results with their flags, adjusting the
  accumulator, and jumping.
* The result, by cases on the instruction.
-/

namespace Handheld

/-! ## The register F -/

/-- The low digit of F does not exist. -/
theorem Flags.toByte_and_lowDigit (f : Flags) : f.toByte &&& 0x0F = 0 := by
  have hnone : (0xF0 : UInt8) &&& 0x0F = 0 := rfl
  rw [← f.ofByte_toByte, toByte_ofByte, UInt8.and_assoc, hnone, UInt8.and_zero]

theorem Flags.toByte_and_highDigit (f : Flags) : f.toByte &&& 0xF0 = f.toByte := by
  rw [← toByte_ofByte, ofByte_toByte]

/-! The adjustments of F by masks. -/

theorem Flags.toByte_clearZero (f : Flags) :
    f.toByte &&& ~~~0x80 = toByte { f with zero := false } := by
  obtain ⟨z, n, h, c⟩ := f
  cases z <;> cases n <;> cases h <;> cases c <;> rfl

theorem Flags.toByte_complement (f : Flags) :
    f.toByte ||| 0x40 ||| 0x20 = toByte { f with subtract := true, half := true } := by
  obtain ⟨z, n, h, c⟩ := f
  cases z <;> cases n <;> cases h <;> cases c <;> rfl

theorem Flags.toByte_setCarry (f : Flags) :
    f.toByte &&& 0x80 ||| 0x10 = toByte { zero := f.zero, carry := true } := by
  obtain ⟨z, n, h, c⟩ := f
  cases z <;> cases n <;> cases h <;> cases c <;> rfl

theorem Flags.toByte_flipCarry (f : Flags) :
    f.toByte &&& 0x80 ||| (f.toByte ^^^ 0x10) &&& 0x10 =
      toByte { zero := f.zero, carry := !f.carry } := by
  obtain ⟨z, n, h, c⟩ := f
  cases z <;> cases n <;> cases h <;> cases c <;> rfl

/-- The CPU with its flags cleared. -/
def Cpu.withoutFlags (cpu : Cpu) : Cpu :=
  { cpu with regs.flags := {} }

namespace Checked.FlagCpu

/-- The CPU with its flags as a byte. -/
def ofCpu (cpu : Cpu) : FlagCpu where
  cpu := cpu.withoutFlags
  f := cpu.regs.f

/-- The effect with the flags as a byte. -/
def ofEffect (effect : Effect) : FlagEffect where
  cpu := ofCpu effect.cpu
  writes := effect.writes
  taken := effect.taken

theorem setF_toByte (c : FlagCpu) (flags : Flags) :
    c.setF flags.toByte = { c with f := flags.toByte } := by
  rw [setF, flags.toByte_and_highDigit]

theorem setAF_ofCpu (cpu : Cpu) (value : UInt16) :
    (ofCpu cpu).setAF value = ofCpu { cpu with regs := cpu.regs.setAF value } := by
  rw [setAF, setF, ← Flags.toByte_ofByte]
  rfl

theorem holds_ofCpu (cpu : Cpu) (condition : Condition) :
    (ofCpu cpu).holds condition = cpu.regs.holds condition := by
  have hzero : (ofCpu cpu).test 0x80 = cpu.regs.flags.zero :=
    congrArg Flags.zero cpu.regs.flags.ofByte_toByte
  have hcarry : (ofCpu cpu).test 0x10 = cpu.regs.flags.carry :=
    congrArg Flags.carry cpu.regs.flags.ofByte_toByte
  cases condition <;> simp only [holds, Registers.holds, hzero, hcarry]

theorem allows_ofCpu (cpu : Cpu) (condition : Option Condition) :
    (ofCpu cpu).allows condition = cpu.regs.allows condition := by
  cases condition with
  | none => rfl
  | some condition => exact holds_ofCpu cpu condition

/-! ## Parts of an instruction -/

section

variable (cpu : Cpu)

theorem operand_ofCpu (read : UInt16 → UInt8) (o : Operand) :
    (ofCpu cpu).cpu.regs.operand read o = cpu.regs.operand read o := by
  cases o <;> rfl

theorem store_ofCpu (value : UInt8) (o : Operand) :
    (ofCpu cpu).keepF ((ofCpu cpu).cpu.store value o) = ofEffect (cpu.store value o) := by
  cases o <;> rfl

/-- Flags that are stored with nothing else. -/
theorem setF_ofCpu (flags : Flags) :
    (ofCpu cpu).setF flags.toByte = ofCpu { cpu with regs.flags := flags } := by
  rw [setF_toByte]
  rfl

theorem setF_become (regs : Registers) (flags : Flags) :
    ((ofCpu cpu).setF flags.toByte).become { regs with flags := {} } =
      ofEffect (cpu.become { regs with flags }) := by
  rw [setF_toByte]
  rfl

theorem setResult_ofCpu (result : UInt8 × Flags) :
    (ofCpu cpu).setResult (Prod.map id Flags.toByte result) =
      ofCpu { cpu with regs.a := result.1, regs.flags := result.2 } := by
  rw [setResult, Prod.map_snd, setF_toByte]
  rfl

theorem storeResult_ofCpu (result : UInt8 × Flags) (target : Operand) :
    (ofCpu cpu).storeResult (Prod.map id Flags.toByte result) target =
      ofEffect (cpu.storeResult result target) := by
  rw [storeResult, Prod.map_snd, setF_toByte]
  cases target <;> rfl

theorem compute_eq (r : Registers) (value : UInt8) (operation : Arithmetic) :
    FlagByte.compute r.a value r.flags.toByte operation =
      Prod.map id Flags.toByte (r.compute value operation) := by
  cases operation with
  | add => exact FlagByte.add_eq r.a value
  | subtract => exact FlagByte.subtract_eq r.a value
  | addCarry =>
    rw [FlagByte.compute, FlagByte.carrySet_toByte]
    exact FlagByte.addWithCarry_eq r.a value r.flags.carry
  | subtractCarry =>
    rw [FlagByte.compute, FlagByte.carrySet_toByte]
    exact FlagByte.subtractWithCarry_eq r.a value r.flags.carry
  | compare =>
    rw [FlagByte.compute, FlagByte.subtract_eq]
    rfl
  | and | xor | or =>
    simp [FlagByte.compute, Registers.compute, Alu.and, Alu.xor, Alu.or, Flags.toByte,
      FlagByte.zero]

theorem rotate_eq (r : Registers) (value : UInt8) (rotation : Rotation) :
    FlagByte.rotate value r.flags.toByte rotation =
      Prod.map id Flags.toByte (r.rotated value rotation) := by
  cases rotation <;>
    simp only [FlagByte.rotate, FlagByte.shifted_eq, FlagByte.carrySet_toByte] <;> rfl

theorem arithmetic_ofCpu (operation : Arithmetic) (value : UInt8) :
    (ofCpu cpu).setResult (FlagByte.compute cpu.regs.a value cpu.regs.f operation) =
      ofCpu { cpu with regs := cpu.regs.arithmetic operation value } := by
  rw [Registers.f, compute_eq, setResult_ofCpu]
  rfl

theorem rotateA_ofCpu (rotation : Rotation) :
    (ofCpu cpu).rotateA rotation = ofCpu { cpu with regs := cpu.regs.rotateA rotation } := by
  have hrotate : FlagByte.rotate (ofCpu cpu).cpu.regs.a (ofCpu cpu).f rotation =
      Prod.map id Flags.toByte (cpu.regs.rotated cpu.regs.a rotation) :=
    rotate_eq cpu.regs cpu.regs.a rotation
  have hresult := setResult_ofCpu cpu ((cpu.regs.rotated cpu.regs.a rotation).1,
    { (cpu.regs.rotated cpu.regs.a rotation).2 with zero := false })
  rw [Prod.map_apply, ← Flags.toByte_clearZero] at hresult
  rw [rotateA, hrotate]
  exact hresult

theorem adjust_ofCpu (operation : Adjustment) :
    (ofCpu cpu).adjust operation = ofCpu { cpu with regs := cpu.regs.adjust operation } := by
  cases operation with
  | leftCircular => exact rotateA_ofCpu cpu .leftCircular
  | rightCircular => exact rotateA_ofCpu cpu .rightCircular
  | left => exact rotateA_ofCpu cpu .left
  | right => exact rotateA_ofCpu cpu .right
  | decimal =>
    have hadjust := FlagByte.decimalAdjust_eq cpu.regs.a cpu.regs.f
    rw [Registers.f, Flags.ofByte_toByte] at hadjust
    exact (congrArg (ofCpu cpu).setResult hadjust).trans (setResult_ofCpu cpu _)
  | complement =>
    have hresult := setResult_ofCpu cpu
      (~~~cpu.regs.a, { cpu.regs.flags with subtract := true, half := true })
    rw [Prod.map_apply, ← Flags.toByte_complement] at hresult
    exact hresult
  | setCarry =>
    have hset := setF_ofCpu cpu { zero := cpu.regs.flags.zero, carry := true }
    rw [← Flags.toByte_setCarry] at hset
    exact hset
  | flipCarry =>
    have hset := setF_ofCpu cpu { zero := cpu.regs.flags.zero, carry := !cpu.regs.flags.carry }
    rw [← Flags.toByte_flipCarry] at hset
    exact hset

theorem jump_ofCpu (condition : Option Condition) (target : UInt16) :
    (ofCpu cpu).jump condition target = ofEffect (cpu.jump condition target) := by
  rw [jump, Cpu.jump, allows_ofCpu]
  split <;> rfl

end

/-! ## Executing an instruction -/

/-- Executing an instruction leads to the CPU that stands for the one afterwards, with the
same writes to the bus. -/
theorem execute_ofCpu (read : UInt16 → UInt8) (cpu : Cpu) (i : Instruction) :
    (ofCpu cpu).execute read i = ofEffect (cpu.execute read i) := by
  have hoperand : ∀ o : Operand,
      (ofCpu cpu).cpu.regs.operand read o = cpu.regs.operand read o := operand_ofCpu cpu read
  cases i with
  | addPair p =>
    have hpair : (ofCpu cpu).cpu.regs.pair p = cpu.regs.pair p := by cases p <;> rfl
    have hsum := FlagByte.addWords_eq cpu.regs.hl (cpu.regs.pair p) cpu.regs.f
    rw [Registers.f, Flags.ofByte_toByte] at hsum
    rw [execute, hpair]
    exact (congrArg (fun result : UInt16 × UInt8 => ((ofCpu cpu).setF result.2).become
      ((ofCpu cpu).cpu.regs.setHL result.1)) hsum).trans (setF_become cpu (cpu.regs.setHL _) _)
  | increment o =>
    rw [execute, hoperand]
    exact (congrArg ((ofCpu cpu).storeResult · o) (FlagByte.increment_eq _ cpu.regs.flags)).trans
      (storeResult_ofCpu cpu _ o)
  | decrement o =>
    rw [execute, hoperand]
    exact (congrArg ((ofCpu cpu).storeResult · o) (FlagByte.decrement_eq _ cpu.regs.flags)).trans
      (storeResult_ofCpu cpu _ o)
  | adjust operation =>
    rw [execute, adjust_ofCpu]
    rfl
  | arithmetic operation o =>
    have harithmetic := arithmetic_ofCpu cpu operation (cpu.regs.operand read o)
    rw [execute, hoperand]
    exact congrArg (fun c => FlagEffect.mk c [] false) harithmetic
  | arithmeticImmediate operation value =>
    exact congrArg (fun c => FlagEffect.mk c [] false) (arithmetic_ofCpu cpu operation value)
  | jumpRelative condition offset => exact jump_ofCpu cpu condition _
  | jump condition target => exact jump_ofCpu cpu condition target
  | call condition target =>
    rw [execute, Cpu.execute, allows_ofCpu]
    split <;> rfl
  | ret condition =>
    rw [execute, Cpu.execute, allows_ofCpu]
    split <;> rfl
  | push p => cases p <;> rfl
  | pop p =>
    cases p with
    | af =>
      exact congrArg (fun c => FlagEffect.mk c [] false)
        (setAF_ofCpu { cpu with regs := cpu.regs.drop } (cpu.regs.top read))
    | _ => rfl
  | addSp offset =>
    rw [execute, FlagByte.addSigned_eq]
    exact setF_become cpu { cpu.regs with sp := _ } _
  | loadHLFromSp offset =>
    rw [execute, FlagByte.addSigned_eq]
    exact setF_become cpu (cpu.regs.setHL _) _
  | rotate operation o =>
    rw [execute, hoperand]
    exact (congrArg ((ofCpu cpu).storeResult · o) (rotate_eq cpu.regs _ operation)).trans
      (storeResult_ofCpu cpu _ o)
  | testBit n o =>
    rw [execute, hoperand]
    have htest := FlagByte.testBit_eq n (cpu.regs.operand read o) cpu.regs.flags
    exact congrArg (fun c => FlagEffect.mk c [] false)
      ((congrArg (ofCpu cpu).setF htest).trans (setF_ofCpu cpu _))
  | loadImmediate o value => exact store_ofCpu cpu value o
  | load target source =>
    exact (congrArg (fun value => (ofCpu cpu).keepF ((ofCpu cpu).cpu.store value target))
      (hoperand source)).trans (store_ofCpu cpu _ target)
  | resetBit n o =>
    exact (congrArg (fun value => (ofCpu cpu).keepF
      ((ofCpu cpu).cpu.store (value &&& ~~~Alu.bitMask n) o)) (hoperand o)).trans
        (store_ofCpu cpu _ o)
  | setBit n o =>
    exact (congrArg (fun value => (ofCpu cpu).keepF
      ((ofCpu cpu).cpu.store (value ||| Alu.bitMask n) o)) (hoperand o)).trans (store_ofCpu cpu _ o)
  | loadPair p value => cases p <;> rfl
  | incrementPair p => cases p <;> rfl
  | decrementPair p => cases p <;> rfl
  | storeThrough p => cases p <;> rfl
  | loadThrough p => cases p <;> rfl
  | _ => rfl

end Checked.FlagCpu
end Handheld
