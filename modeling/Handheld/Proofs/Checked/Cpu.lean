import Mathlib.Data.Fintype.Basic
import Mathlib.Logic.Function.Iterate
import Mathlib.Tactic.FinCases
import Handheld.Proofs.Checked.Bus
import Handheld.Proofs.Checked.Opcode

/-!
# The CPU meets no fault

The CPU that works by opcodes does what the CPU that works by instructions
does.  Each helper has one equation: what it answers and how it leaves the
machine.  With these every arm of the execution is followed step by step.

There are four groups.

* Access to the machine.
* Operands and operations by their number.
* Arms: `run_arm` for all opcodes but CB, `run_executeExtended` for those
  behind CB.
* Instructions: `run_executeNext`.
-/

namespace Handheld

/-- The machine after the effect of an instruction. -/
def Machine.after (m : Machine) (e : Effect) : Machine :=
  { m with cpu := e.cpu, bus := m.bus.writeAll e.writes }

/-- The machine with its program counter behind the opcode. -/
def Machine.fetched (m : Machine) : Machine :=
  { m with cpu.regs.pc := m.cpu.regs.pc + 1 }

namespace Checked

variable {m : Machine}

/-! ## Access to the machine -/

@[simp] theorem run_registers (m : Machine) : registers.run m = .ok (m.cpu.regs, m) := rfl

@[simp] theorem run_changeCpu (f : Cpu → Cpu) (m : Machine) :
    (changeCpu f).run m = .ok ((), { m with cpu := f m.cpu }) := rfl

@[simp] theorem run_change (f : Registers → Registers) (m : Machine) :
    (change f).run m = .ok ((), { m with cpu.regs := f m.cpu.regs }) := rfl

@[simp] theorem run_setPc (pc : UInt16) (m : Machine) :
    (setPc pc).run m = .ok ((), { m with cpu.regs.pc := pc }) := rfl

@[simp] theorem run_readByte (address : UInt16) (m : Machine) :
    (readByte address).run m = .ok (m.bus.read address, m) := by
  change (read m.bus address >>= _) = _
  rw [read_eq_ok]
  rfl

theorem run_writeByte (h : m.bus.Sound) (address : UInt16) (value : UInt8) :
    (writeByte address value).run m = .ok ((), { m with bus := m.bus.write address value }) := by
  change (write m.bus address value >>= _) = _
  rw [write_eq_ok h.overlay]
  rfl

@[simp] theorem run_fetch (m : Machine) :
    fetch.run m = .ok (m.bus.read m.cpu.regs.pc, m.fetched) := by
  simp [fetch, ok_bind, Machine.fetched]

@[simp] theorem run_fetchWord (m : Machine) :
    fetchWord.run m =
      .ok (word (m.bus.read (m.cpu.regs.pc + 1)) (m.bus.read m.cpu.regs.pc),
        m.fetched.fetched) := by
  simp [fetchWord, ok_bind, Machine.fetched]

theorem run_push (h : m.bus.Sound) (value : UInt16) :
    (push value).run m = .ok ((), { m with
      cpu.regs := (m.cpu.regs.push value).1
      bus := m.bus.writeAll (m.cpu.regs.push value).2 }) := by
  have hsp : m.cpu.regs.sp - 1 - 1 = m.cpu.regs.sp - 2 := by grind
  simp (disch := first | exact h | exact h.write _ _) only [push, StateT.run_bind, run_change,
    run_registers, run_writeByte, ok_bind, hsp]
  rfl

@[simp] theorem run_pop (m : Machine) :
    pop.run m = .ok (m.cpu.regs.top m.bus.read, { m with cpu.regs := m.cpu.regs.drop }) := by
  simp [pop, ok_bind, Registers.top, Registers.drop, UInt16.add_assoc]

/-! ## Operands and operations by their number -/

@[simp] theorem run_readOperand (index : UInt8) (m : Machine) :
    (readOperand index).run m =
      .ok (m.cpu.regs.operand m.bus.read (.ofIndex (lowThree index)), m) := by
  simp only [readOperand, and_seven, StateT.run_bind, run_registers, ok_bind]
  generalize lowThree index = i
  fin_cases i
  case «6» => exact run_readByte _ _
  all_goals rfl

theorem run_writeOperand (h : m.bus.Sound) (index value : UInt8) :
    (writeOperand index value).run m =
      .ok ((), m.after (m.cpu.store value (.ofIndex (lowThree index)))) := by
  simp only [writeOperand, and_seven]
  generalize lowThree index = i
  fin_cases i
  case «6» =>
    change StateT.run (registers >>= fun r => writeByte r.hl value) m = _
    rw [StateT.run_bind, run_registers, ok_bind]
    exact run_writeByte h _ _
  all_goals rfl

@[simp] theorem readPair_eq (r : Registers) (index : UInt8) :
    readPair r index = r.pair (.ofIndex (lowTwo index)) := by
  simp only [readPair, and_three]
  generalize lowTwo index = i
  fin_cases i <;> rfl

@[simp] theorem writePair_eq (r : Registers) (index : UInt8) (value : UInt16) :
    writePair r index value = r.setPair value (.ofIndex (lowTwo index)) := by
  simp only [writePair, and_three]
  generalize lowTwo index = i
  fin_cases i <;> rfl

/-- Only the last of the stack pairs is no pair. -/
theorem and_three_eq_three_iff (index : UInt8) : index &&& 3 = 3 ↔ lowTwo index = 3 := by
  rw [← UInt8.toNat_inj, and_three, Fin.ext_iff]
  rfl

@[simp] theorem readStackPair_eq (r : Registers) (index : UInt8) :
    readStackPair r index = r.stackPair (.ofIndex (lowTwo index)) := by
  simp only [readStackPair, readPair_eq, and_three_eq_three_iff]
  generalize lowTwo index = i
  fin_cases i <;> rfl

@[simp] theorem writeStackPair_eq (r : Registers) (index : UInt8) (value : UInt16) :
    writeStackPair r index value = r.setStackPair value (.ofIndex (lowTwo index)) := by
  simp only [writeStackPair, writePair_eq, and_three_eq_three_iff]
  generalize lowTwo index = i
  fin_cases i <;> rfl

@[simp] theorem condition_eq (r : Registers) (index : UInt8) :
    condition r index = r.holds (.ofIndex (lowTwo index)) := by
  simp only [condition, and_three]
  generalize lowTwo index = i
  fin_cases i <;> rfl

theorem addWithCarry_eq_ok (a b : UInt8) (carry : Bool) :
    addWithCarry a b carry = .ok (Alu.addWithCarry a b carry) := by
  have ha := a.toNat_lt
  have hb := b.toNat_lt
  have hlimit : Width.word.limit = 0x10000 := rfl
  have hcarry : carry.toNat ≤ 1 := Bool.toNat_le carry
  have hsum : (a.toNat + b.toNat + carry.toNat).toUInt8 = a + b + carry.toUInt8 := by
    have hbit : carry.toUInt8.toNat = carry.toNat := by cases carry <;> rfl
    apply UInt8.toNat_inj.1
    simp [UInt8.toNat_add, hbit]
  unfold addWithCarry
  rw [add_eq_ok (by omega), ok_bind, add_eq_ok (by omega), ok_bind, hsum]
  rfl

@[simp] theorem run_arithmetic (index value : UInt8) (m : Machine) :
    (arithmetic index value).run m = .ok ((), { m with
      cpu.regs := m.cpu.regs.arithmetic (.ofIndex (lowThree index)) value }) := by
  simp only [arithmetic, and_seven, StateT.run_bind, run_registers, ok_bind, addWithCarry_eq_ok]
  generalize lowThree index = i
  fin_cases i <;> rfl

theorem rotated_eq (index value : UInt8) (r : Registers) :
    rotated index value r.flags.carry = r.rotated value (.ofIndex (lowThree index)) := by
  simp only [rotated, and_seven]
  generalize lowThree index = i
  fin_cases i <;> rfl

theorem bitMask_eq_ok (index : UInt8) :
    bitMask (index &&& 7) = .ok (Alu.bitMask (lowThree index)) := by
  rw [bitMask, and_seven, shiftLeft_eq_ok (lowThree index).isLt, ok_bind]
  generalize lowThree index = i
  fin_cases i <;> rfl

/-! ## Arms -/

theorem store_taken (cpu : Cpu) (value : UInt8) (o : Operand) :
    (cpu.store value o).taken = false := by
  cases o <;> rfl

/-- It makes no difference whether the flags are set before the result or behind
it. -/
theorem run_setFlags_after_store (m : Machine) (result : UInt8 × Flags) (o : Operand) :
    (setFlags result.2).run (m.after (m.cpu.store result.1 o)) =
      .ok ((), m.after (m.cpu.storeResult result o)) := by
  cases o <;> rfl

/-- The effect of an instruction on a machine that has fetched the opcode and no
byte behind it. -/
def effectBehind (m : Machine) (i : Instruction) : Effect :=
  (Machine.fetched^[i.length - 1] m).cpu.execute m.bus.read i

theorem run_ite {c : Prop} [Decidable c] {x y : Run Bool} {m' : Machine} {e e' : Effect}
    (hx : c → x.run m' = .ok (e.taken, m.after e))
    (hy : ¬ c → y.run m' = .ok (e'.taken, m.after e')) :
    (if c then x else y).run m' =
      .ok ((if c then e else e').taken, m.after (if c then e else e')) := by
  by_cases h : c
  · rw [if_pos h, if_pos h, hx h]
  · rw [if_neg h, if_neg h, hy h]

/-- An arm has the effect of its instruction. -/
theorem run_arm (h : m.bus.Sound) {arm : Arm} {opcode : UInt8} (harm : Arm.of opcode = arm)
    (hplain : arm ≠ .extended) {i : Instruction} (hi : i = arm.instruction opcode
      (m.bus.read m.cpu.regs.pc) (m.bus.read (m.cpu.regs.pc + 1))) :
    (arm.run opcode).run m = .ok ((effectBehind m i).taken, m.after (effectBehind m i)) := by
  have hf : m.fetched.bus.Sound := h
  have hff : m.fetched.fetched.bus.Sound := h
  cases arm <;> subst hi
  case extended => exact absurd rfl hplain
  all_goals
    simp (disch := first | exact h | exact hf | exact hff | exact hff.write _ _) only [Arm.run,
      StateT.run_bind, StateT.run_pure, ok_bind, run_registers, run_changeCpu, run_change,
      run_setFlags_after_store, run_setPc, run_readByte, run_writeByte, run_fetch, run_fetchWord,
      run_push, run_pop, run_readOperand, run_writeOperand, readPair_eq, writePair_eq,
      readStackPair_eq, writeStackPair_eq, condition_eq, run_arithmetic, or_eq_highAddress,
      and_eq_restartAddress]
    try rfl
  -- what is left are the arms where the opcode as a whole names an operand, and
  -- those with a condition
  case storeA =>
    obtain rfl | rfl : opcode = 0x02 ∨ opcode = 0x12 := by
      simpa using (mem_of_arm opcode).2.1 harm
    all_goals rfl
  case loadA =>
    obtain rfl | rfl : opcode = 0x0A ∨ opcode = 0x1A := by
      simpa using (mem_of_arm opcode).2.2.1 harm
    all_goals rfl
  case storeAMoving =>
    simp only [Arm.instruction]
    cases opcode == 0x22 <;> rfl
  case loadAMoving =>
    simp only [Arm.instruction]
    cases opcode == 0x2A <;> rfl
  case rotateA =>
    obtain rfl | rfl | rfl | rfl :
        opcode = 0x07 ∨ opcode = 0x0F ∨ opcode = 0x17 ∨ opcode = 0x1F := by
      simpa using (mem_of_arm opcode).2.2.2 harm
    all_goals rfl
  case increment | decrement | load | loadByte =>
    exact congrArg Except.ok (Prod.ext (store_taken _ _ _).symm rfl)
  case jumpRelativeIf | jumpIf => exact run_ite (fun _ => rfl) (fun _ => rfl)
  case returnIf =>
    refine run_ite (fun _ => ?_) (fun _ => rfl)
    rw [StateT.run_bind, run_pop, ok_bind]
    rfl
  case callIf =>
    refine run_ite (fun _ => ?_) (fun _ => rfl)
    rw [StateT.run_bind, run_registers, ok_bind, StateT.run_bind, run_push hff]
    rfl

/-- A computation that needs no machine. -/
theorem run_liftM {α : Type} {x : Result α} {a : α} (h : x = .ok a) (m : Machine) :
    (liftM x : Run α).run m = .ok (a, m) := by
  rw [h]
  rfl

/-- An opcode behind CB has the effect of its instruction. -/
theorem run_executeExtended (h : m.bus.Sound) (opcode : UInt8) :
    (executeExtended opcode).run m = .ok ((Instruction.ofExtended opcode).cycles,
      m.after (m.cpu.execute m.bus.read (Instruction.ofExtended opcode))) := by
  have hcost := run_liftM (getArray_extendedCycles opcode)
  have hmask := run_liftM (bitMask_eq_ok (opcode >>> 3)) m
  rw [← hcost, ofExtended_eq]
  unfold executeExtended
  simp (disch := exact h) only [StateT.run_bind, run_readOperand, run_registers, ok_bind,
    apply_ite (StateT.run · m), apply_ite (Cpu.execute m.bus.read m.cpu), apply_ite m.after,
    lowThree_and_seven, rotated_eq, hmask, run_writeOperand, run_setFlags_after_store]
  split_ifs <;> rfl

/-! ## Instructions -/

theorem fetched_iterate (m : Machine) (n : Nat) :
    Machine.fetched^[n] m = { m with cpu.regs.pc := m.cpu.regs.pc + n.toUInt16 } := by
  induction n generalizing m with
  | zero => simp
  | succ n ih =>
    rw [Function.iterate_succ_apply, ih]
    simp [Machine.fetched, UInt16.add_assoc, UInt16.add_comm]

theorem effectBehind_fetched (m : Machine) (i : Instruction) :
    effectBehind m.fetched i = (Machine.skip m.cpu i).execute m.bus.read i := by
  have hlength := length_pos i
  unfold effectBehind
  rw [← Function.iterate_succ_apply, Nat.succ_eq_add_one, Nat.sub_add_cancel hlength,
    fetched_iterate]
  rfl

theorem executeNext_eq (m : Machine) :
    m.executeNext.1 = m.fetched.after (effectBehind m.fetched m.nextInstruction) := by
  rw [effectBehind_fetched]
  rfl

/-- The instruction at the program counter, executed by its opcode, meets no
fault and does what it does. -/
theorem run_executeNext (h : m.bus.Sound) :
    executeNext.run m = .ok (m.executeNext.2, m.executeNext.1) := by
  have hnext : m.nextInstruction = (Arm.of (m.bus.read m.cpu.regs.pc)).instruction _ _ _ :=
    ofBytes_eq_arm _ _ _
  unfold executeNext
  rw [StateT.run_bind, run_fetch, ok_bind]
  unfold execute
  by_cases harm : Arm.of (m.bus.read m.cpu.regs.pc) = .extended
  · have hextended : m.nextInstruction =
        Instruction.ofExtended (m.bus.read (m.cpu.regs.pc + 1)) := by
      rw [hnext, harm]
      rfl
    have hcost : m.executeNext.2 = m.nextInstruction.cycles := by
      change m.nextInstruction.cost _ = _
      rw [Instruction.cost, hextended, takenCycles?_ofExtended, Option.getD_none, ite_self]
    simp only [if_pos harm, StateT.run_bind, run_fetch, ok_bind]
    rw [run_executeExtended (m := m.fetched.fetched) h, hcost, executeNext_eq, effectBehind,
      hextended, length_ofExtended]
    rfl
  · have hopcode : m.bus.read m.cpu.regs.pc ≠ 0xCB :=
      fun heq => harm ((of_eq_extended_iff _).2 heq)
    have hcycles := run_liftM (getArray_baseCycles hopcode (m.bus.read (m.cpu.regs.pc + 1))
      (m.bus.read (m.cpu.regs.pc + 2)))
    have hpc : m.fetched.cpu.regs.pc + 1 = m.cpu.regs.pc + 2 := by
      simp [Machine.fetched, UInt16.add_assoc]
    have hrun := run_arm (m := m.fetched) h rfl harm (i := m.nextInstruction)
      (by rw [hpc]; exact hnext)
    simp only [if_neg harm, StateT.run_bind, hrun, ok_bind, hcycles]
    rw [effectBehind_fetched,
      takenCycles_eq hopcode (m.bus.read (m.cpu.regs.pc + 1)) (m.bus.read (m.cpu.regs.pc + 2))]
    rfl

end Checked
end Handheld
