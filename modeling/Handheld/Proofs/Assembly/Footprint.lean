import Handheld.Proofs.Assembly.Agreement

/-!
# What a statement leaves alone

A statement names what it works on.  Whatever it does not name as a place to store
to, or as a register to change, is after the instruction what it was before.

There are four groups.

* What a statement names: `stores` are the addresses that it stores to, in order,
  `changes` the registers that it changes, and `setsFlags` says whether it sets flags.
* The memory: `writes_execute`.
* The CPU: `sameBut_execute` for its registers, `flags_execute`, and
  `switches_execute` for what makes it halt and serve interrupts.
* The result, `stepCpu_touches_named`.
-/

namespace Handheld

/-! ## What a statement names -/

namespace Assembly

/-- A register that holds a value of a program. -/
inductive Register where
  | a | b | c | d | e | h | l | sp
  deriving DecidableEq, Repr

/-- The number in a register. -/
def Register.held (r : Registers) : Register → Nat
  | a => r.a.toNat
  | b => r.b.toNat
  | c => r.c.toNat
  | d => r.d.toNat
  | e => r.e.toNat
  | h => r.h.toNat
  | l => r.l.toNat
  | sp => r.sp.toNat

namespace Term

/-- The registers that a term stands for. -/
def registers : Term → List Register
  | a => [.a] | b => [.b] | c => [.c] | d => [.d] | e => [.e] | h => [.h] | l => [.l]
  | af => [.a] | bc => [.b, .c] | de => [.d, .e] | hl => [.h, .l] | sp => [.sp]
  | _ => []

/-- The registers that move along with a place. -/
def moved : Term → List Register
  | atHLUp | atHLDown => [.h, .l]
  | _ => []

/-- Whether a term stands for a word in registers. -/
def isPair : Term → Bool
  | af | bc | de | hl | sp => true
  | _ => false

theorem address?_pc (r : Registers) (pc : UInt16) (t : Term) :
    t.address? { r with pc } = t.address? r := by
  cases t <;> rfl

end Term

namespace Statement

/-- The addresses that a statement stores to, in order.  SP is stored low byte first,
and what goes on the stack goes there high byte first. -/
def stores (s : Statement) (r : Registers) : List UInt16 :=
  match s.mnemonic, s.terms with
  | .ld, [.memory address, .sp] => [address, address + 1]
  | .ld, [target, _] | .ldh, [target, _] => (target.address? r).toList
  | .inc, [t] | .dec, [t] => (t.address? r).toList
  | .rlc, [t] | .rrc, [t] | .rl, [t] | .rr, [t] | .sla, [t] | .sra, [t] | .swap, [t]
  | .srl, [t] => (t.address? r).toList
  | .res, [_, t] | .set, [_, t] => (t.address? r).toList
  | .push, _ | .rst, _ => [r.sp - 1, r.sp - 2]
  | .call, _ => if s.taken r.flags then [r.sp - 1, r.sp - 2] else []
  | _, _ => []

/-- The registers that a statement changes: its target, HL where it moves along, and
SP where it works on the stack. -/
def changes (s : Statement) (flags : Flags) : List Register :=
  match s.mnemonic, s.terms with
  | .ld, [target, source] | .ldh, [target, source] =>
    target.registers ++ target.moved ++ source.moved
  | .add, [target, _] | .adc, [target, _] | .sbc, [target, _] => target.registers
  | .sub, _ | .and, _ | .xor, _ | .or, _ => [.a]
  | .rlca, _ | .rrca, _ | .rla, _ | .rra, _ | .daa, _ | .cpl, _ => [.a]
  | .inc, [t] | .dec, [t] => t.registers
  | .rlc, [t] | .rrc, [t] | .rl, [t] | .rr, [t] | .sla, [t] | .sra, [t] | .swap, [t]
  | .srl, [t] => t.registers
  | .res, [_, t] | .set, [_, t] => t.registers
  | .pop, [t] => t.registers ++ [.sp]
  | .push, _ | .rst, _ | .reti, _ => [.sp]
  | .call, _ | .ret, _ => if s.taken flags then [.sp] else []
  | _, _ => []

/-- Whether a statement sets flags. -/
def setsFlags (s : Statement) : Bool :=
  match s.mnemonic, s.terms with
  | .add, _ | .adc, _ | .sub, _ | .sbc, _ | .and, _ | .xor, _ | .or, _ | .cp, _ => true
  | .inc, [t] | .dec, [t] => !t.isPair
  | .ld, [_, .spPlus _] => true
  | .rlca, _ | .rrca, _ | .rla, _ | .rra, _ | .daa, _ | .cpl, _ | .scf, _ | .ccf, _ => true
  | .rlc, _ | .rrc, _ | .rl, _ | .rr, _ | .sla, _ | .sra, _ | .swap, _ | .srl, _ => true
  | .bit, _ => true
  | .pop, [.af] => true
  | _, _ => false

theorem stores_pc (s : Statement) (r : Registers) (pc : UInt16) :
    s.stores { r with pc } = s.stores r := by
  simp only [stores, Term.address?_pc]

end Statement
end Assembly

open Assembly (Term Mnemonic Statement Register)

/-! ## The memory -/

namespace Instruction

variable (read : UInt16 → UInt8) (cpu : Cpu) {start : UInt16} {i : Instruction}

theorem writes_store (value : UInt8) (o : Operand) :
    (cpu.store value o).writes.map Prod.fst = (o.term.address? cpu.regs).toList := by
  cases o <;> rfl

/-- An instruction writes to the addresses that its statement names, and to no
other. -/
theorem writes_execute :
    (cpu.execute read i).writes.map Prod.fst = (i.statement start).stores cpu.regs := by
  cases i with
  | loadPair p | addPair p | incrementPair p | decrementPair p | storeThrough p | loadThrough p =>
    cases p <;> rfl
  | increment o | decrement o | resetBit _ o | setBit _ o => exact writes_store _ _ o
  | rotate operation o => cases operation <;> exact writes_store _ _ o
  | loadImmediate target | load target => cases target <;> rfl
  | adjust operation => cases operation <;> rfl
  | arithmetic operation | arithmeticImmediate operation => cases operation <;> rfl
  | jumpRelative c | jump c | ret c =>
    simp only [Cpu.execute, Cpu.jump]
    split <;> rfl
  | call c target =>
    change _ = if (transfer .call c target).taken cpu.regs.flags then _ else []
    rw [taken_transfer (by decide)]
    simp only [Cpu.execute]
    split <;> rfl
  | _ => rfl

end Instruction

/-! ## The CPU -/

namespace Registers

variable (r : Registers)

/-- Registers that differ at most in those of a list. -/
def SameBut (xs : List Register) (after : Registers) : Prop :=
  ∀ x ∉ xs, x.held after = x.held r

variable {r} in
theorem SameBut.trans {xs ys : List Register} {r' after : Registers} (h : r.SameBut xs r')
    (h' : r'.SameBut ys after) : r.SameBut (xs ++ ys) after := by
  intro x hx
  rw [List.mem_append, not_or] at hx
  exact (h' x hx.2).trans (h x hx.1)

/-- Neither the flags nor the program counter count. -/
theorem sameBut_flags_pc (flags : Flags) (pc : UInt16) : r.SameBut [] { r with flags, pc } := by
  intro x _
  cases x <;> rfl

theorem sameBut_a (a : UInt8) (flags : Flags) : r.SameBut [.a] { r with a, flags } := by
  intro x hx
  cases x <;> first | rfl | exact absurd (by decide) hx

theorem sameBut_sp (sp pc : UInt16) (flags : Flags) :
    r.SameBut [.sp] { r with sp, pc, flags } := by
  intro x hx
  cases x <;> first | rfl | exact absurd (by decide) hx

theorem sameBut_setPair (value : UInt16) (p : Pair) :
    r.SameBut p.term.registers (r.setPair value p) := by
  intro x hx
  -- a register is left alone, or else it is one of the pair
  cases p <;> cases x <;> first | rfl | exact absurd (by decide) hx

theorem sameBut_setStackPair (value : UInt16) (p : StackPair) :
    r.SameBut p.term.registers (r.setStackPair value p) := by
  intro x hx
  cases p <;> cases x <;> first | rfl | exact absurd (by decide) hx

theorem sameBut_movePointer (p : Pointer) : r.SameBut p.term.moved (r.movePointer p) := by
  intro x hx
  cases p <;> cases x <;> first | rfl | exact absurd (by decide) hx

theorem sameBut_store (cpu : Cpu) (value : UInt8) (o : Operand) :
    cpu.regs.SameBut o.term.registers (cpu.store value o).cpu.regs := by
  intro x hx
  cases o <;> cases x <;> first | rfl | exact absurd (by decide) hx

theorem sameBut_storeResult (cpu : Cpu) (result : UInt8 × Flags) (o : Operand) :
    cpu.regs.SameBut o.term.registers (cpu.storeResult result o).cpu.regs :=
  (cpu.regs.sameBut_flags_pc result.2 cpu.regs.pc).trans (sameBut_store _ _ o)

end Registers

namespace Instruction

variable (read : UInt16 → UInt8) (cpu : Cpu) {start : UInt16} {i : Instruction}

open Registers

/-- An instruction changes the registers that its statement names, and no others. -/
theorem sameBut_execute : cpu.regs.SameBut ((i.statement start).changes cpu.regs.flags)
    (cpu.execute read i).cpu.regs := by
  cases i with
  | loadPair p value =>
    have h := cpu.regs.sameBut_setPair value p
    cases p <;> exact h
  | incrementPair p | decrementPair p => exact sameBut_setPair _ _ p
  | addPair | loadHLFromSp => exact (sameBut_setPair _ _ .hl).trans (sameBut_flags_pc _ _ _)
  | storeThrough p =>
    have h := cpu.regs.sameBut_movePointer p
    cases p <;> exact h
  | loadThrough p =>
    have h := (cpu.regs.sameBut_a (read (cpu.regs.pointer p)) cpu.regs.flags).trans
      (sameBut_movePointer _ p)
    cases p <;> exact h
  | increment o | decrement o => exact sameBut_storeResult _ _ o
  | rotate operation o => cases operation <;> exact sameBut_storeResult _ _ o
  | loadImmediate target value =>
    have h := sameBut_store cpu value target
    cases target <;> exact h
  | load target source =>
    have h := sameBut_store cpu (cpu.regs.operand read source) target
    cases target <;> cases source <;> exact h
  | resetBit _ o | setBit _ o => exact sameBut_store _ _ o
  | adjust operation =>
    cases operation with
    | setCarry | flipCarry => exact sameBut_flags_pc _ _ _
    | _ => exact sameBut_a _ _ _
  | arithmetic operation | arithmeticImmediate operation =>
    cases operation with
    | compare => exact sameBut_flags_pc _ _ _
    | _ => exact sameBut_a _ _ _
  | jumpRelative c | jump c =>
    simp only [Cpu.execute, Cpu.jump]
    split
    · exact sameBut_flags_pc _ _ _
    · exact fun _ _ => rfl
  | call c target =>
    -- SP moves if the condition holds, which the statement and the CPU decide alike
    change cpu.regs.SameBut (if (transfer .call c target).taken cpu.regs.flags then _ else []) _
    rw [taken_transfer (by decide)]
    simp only [Cpu.execute]
    split
    · exact sameBut_sp _ _ _ _
    · exact fun _ _ => rfl
  | ret c =>
    change cpu.regs.SameBut (if (statement start (ret c)).taken cpu.regs.flags then _ else []) _
    rw [taken_ret]
    simp only [Cpu.execute]
    split
    · exact sameBut_sp _ _ _ _
    · exact fun _ _ => rfl
  | pop p =>
    have h := fun flags => (cpu.regs.sameBut_setStackPair (cpu.regs.top read) p).trans
      (sameBut_sp _ (cpu.regs.sp + 2) cpu.regs.pc flags)
    cases p <;> exact h _
  | push | restart | reti | addSp | loadSpFromHL => exact sameBut_sp _ _ _ _
  | loadHigh | loadHighC | loadAt => exact sameBut_a _ _ _
  | _ => exact fun _ _ => rfl

theorem flags_store (value : UInt8) (o : Operand) :
    (cpu.store value o).cpu.regs.flags = cpu.regs.flags := by
  cases o <;> rfl

/-- An instruction of which the statement sets no flags leaves them alone. -/
theorem flags_execute (h : (i.statement start).setsFlags = false) :
    (cpu.execute read i).cpu.regs.flags = cpu.regs.flags := by
  cases i with
  | loadPair p | incrementPair p | decrementPair p | storeThrough p | loadThrough p =>
    cases p <;> rfl
  | pop p =>
    -- of the pairs on the stack, AF alone holds the flags
    cases p with
    | af => cases h
    | _ => rfl
  | loadImmediate target | load target => exact flags_store _ _ target
  | resetBit _ o | setBit _ o => exact flags_store _ _ o
  | increment o | decrement o => cases o <;> cases h
  | rotate operation o => cases operation <;> cases h
  | adjust operation => cases operation <;> cases h
  | arithmetic operation | arithmeticImmediate operation => cases operation <;> cases h
  | jumpRelative c | jump c | call c | ret c =>
    simp only [Cpu.execute, Cpu.jump]
    split <;> rfl
  | addPair | addSp | loadHLFromSp | testBit => cases h
  | _ => rfl

/-- Only DI, EI and RETI change whether interrupts are served, and only HALT halts the
CPU. -/
theorem switches_execute :
    ((i.statement start).mnemonic ∉ [.di, .ei, .reti] →
      (cpu.execute read i).cpu.ime = cpu.ime) ∧
    ((i.statement start).mnemonic ≠ .halt →
      (cpu.execute read i).cpu.halted = cpu.halted) := by
  cases i with
  | loadImmediate o | load o | resetBit _ o | setBit _ o | increment o | decrement o
  | rotate _ o => cases o <;> exact ⟨fun _ => rfl, fun _ => rfl⟩
  | jumpRelative c | jump c | call c | ret c =>
    simp only [Cpu.execute, Cpu.jump]
    split <;> exact ⟨fun _ => rfl, fun _ => rfl⟩
  | disableInterrupts | enableInterrupts | reti =>
    exact ⟨fun h => absurd (by simp [statement]) h, fun _ => rfl⟩
  | halt => exact ⟨fun _ => rfl, fun h => absurd rfl h⟩
  | _ => exact ⟨fun _ => rfl, fun _ => rfl⟩

end Instruction

/-! ## The result -/

namespace Machine

variable {m : Machine}

/-- A step of CPU and timer touches nothing but what a statement names. -/
structure TouchesOnly (m : Machine) (s : Statement) : Prop where
  /-- The bus is written at the addresses that are named, in their order, and then the
  timer runs. -/
  bus : ∃ writes : List (UInt16 × UInt8), writes.map Prod.fst = s.stores m.cpu.regs ∧
    m.stepCpu.1.bus = (m.bus.writeAll writes).advanceTimer m.stepCpu.2
  /-- Without such an address, the timer is all that changes on the bus. -/
  quiet : s.stores m.cpu.regs = [] → m.stepCpu.1.bus = m.bus.advanceTimer m.stepCpu.2
  registers : ∀ x ∉ s.changes m.cpu.regs.flags,
    x.held m.stepCpu.1.cpu.regs = x.held m.cpu.regs
  flags : s.setsFlags = false → m.stepCpu.1.cpu.regs.flags = m.cpu.regs.flags
  ime : s.mnemonic ∉ [.di, .ei, .reti] → m.stepCpu.1.cpu.ime = m.cpu.ime
  halted : s.mnemonic ≠ .halt → m.stepCpu.1.cpu.halted = false
  /-- Without a transfer of control, the program counter goes behind what is listed. -/
  pc : s.taken m.cpu.regs.flags = false → m.stepCpu.1.cpu.regs.pc = m.behind

/-- A step that serves no interrupt touches nothing but what the statement names that
is listed at the program counter. -/
theorem stepCpu_touches_named (hawake : m.cpu.halted = false) (hserved : m.served = none) :
    ∃ s, Statement.ofText? m.listed.text = some s ∧ m.TouchesOnly s ∧
      (m.bus.Sound → Checked.stepCpu.run m = .ok (m.stepCpu.2, m.stepCpu.1)) := by
  have hdoes := does_executed hawake hserved
  have hnamed : ((skip m.cpu m.nextInstruction).execute m.bus.read m.nextInstruction).writes.map
      Prod.fst = (m.nextInstruction.statement m.cpu.regs.pc).stores m.cpu.regs :=
    (Instruction.writes_execute _ _).trans (Statement.stores_pc _ _ _)
  refine ⟨_, m.ofText?_listed, ?_, Checked.run_stepCpu⟩
  constructor
  case bus => exact ⟨_, hnamed, hdoes.bus⟩
  case quiet =>
    intro hnone
    rw [hnone, List.map_eq_nil_iff] at hnamed
    rw [hdoes.bus]
    exact congrArg (fun writes => (m.bus.writeAll writes).advanceTimer m.stepCpu.2) hnamed
  case registers =>
    intro x hx
    rw [hdoes.regs]
    exact (Instruction.sameBut_execute _ (skip m.cpu m.nextInstruction) x hx).trans
      (m.cpu.regs.sameBut_flags_pc _ _ x List.not_mem_nil)
  case flags =>
    intro hsets
    rw [hdoes.regs]
    exact Instruction.flags_execute _ _ hsets
  case ime =>
    intro hkeeps
    rw [hdoes.ime]
    exact (Instruction.switches_execute _ _).1 hkeeps
  case halted =>
    intro hkeeps
    have hstill := (Instruction.switches_execute m.bus.read (skip m.cpu m.nextInstruction)).2 hkeeps
    rw [hdoes.halted]
    exact (congrArg (· && _) (hstill.trans hawake)).trans (Bool.false_and _)
  case pc =>
    intro htaken
    rw [hdoes.regs]
    have hbehind : (skip m.cpu m.nextInstruction).regs.pc = m.behind := by
      rw [skip_eq]
    exact (Instruction.pc_of_not_taken m.bus.read (skip m.cpu m.nextInstruction) htaken).trans
      hbehind

/-- A test of a bit names a byte in memory and stores nothing. -/
example (n : Int) (r : Registers) : Statement.stores ⟨.bit, [.number n, .atHL]⟩ r = [] := rfl

/-- Without a cartridge, the machine starts with RST, which writes to the stack and
moves SP. -/
theorem postBoot_touches_named : postBoot.cpu.halted = false ∧ postBoot.served = none ∧
    Statement.ofText? postBoot.listed.text = some ⟨.rst, [.byte 0x38]⟩ ∧
    postBoot.TouchesOnly ⟨.rst, [.byte 0x38]⟩ ∧
    Statement.stores ⟨.rst, [.byte 0x38]⟩ postBoot.cpu.regs = [0xFFFD, 0xFFFC] ∧
    Checked.stepCpu.run postBoot = .ok (postBoot.stepCpu.2, postBoot.stepCpu.1) := by
  obtain ⟨s, hread, htouches, hrun⟩ := stepCpu_touches_named (m := postBoot) rfl rfl
  have hlisted : Statement.ofText? postBoot.listed.text = some ⟨.rst, [.byte 0x38]⟩ := by
    decide
  obtain rfl := Option.some.inj (hread.symm.trans hlisted)
  exact ⟨rfl, rfl, hlisted, htouches, rfl, hrun (sound_initial (Or.inr rfl))⟩

end Machine
end Handheld
