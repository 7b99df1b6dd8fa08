import Handheld.Proofs.Assembly.Meaning
import Handheld.Proofs.Checked.Machine
import Handheld.Proofs.Machine.Dispatch

/-!
# The CPU and the disassembler agree

The CPU works by opcodes and the disassembler by tables.  What the text of the
disassembler stands for is what the CPU does, and execution goes on where the
text and its length say.

There are four groups.

* Transfers of control.  `transfers_of_taken` says which instructions transfer
  control, and `pc_of_not_taken`, `pc_of_taken` and `push_of_taken` what that
  does to the program counter and to the stack.
* The step.  `stepCpu_eq` parts a step into the instruction and the interrupt
  behind it.
* Where the program counter goes: `executeNext_follows_listing`.
* What is done: `stepCpu_does_listed`.
-/

namespace Handheld

open Assembly (Term Mnemonic Statement Outcome)

/-! ## Transfers of control -/

theorem Condition.holds?_term (c : Condition) (r : Registers) :
    (c.term.holds? r.flags == some true) = r.holds c := by
  cases c <;> simp [Condition.term, Term.holds?, Registers.holds]

namespace Instruction

variable (read : UInt16 → UInt8) (cpu : Cpu) {start : UInt16} {i : Instruction}

theorem taken_transfer {m : Mnemonic} (hm : m ∈ [.jr, .jp, .call]) (r : Registers)
    (c : Option Condition) (target : UInt16) :
    (transfer m c target).taken r.flags = r.allows c := by
  simp only [List.mem_cons, List.not_mem_nil, or_false] at hm
  rcases hm with rfl | rfl | rfl
  all_goals
    cases c with
    | none => rfl
    | some c => exact c.holds?_term r

theorem target?_transfer {m : Mnemonic} (hm : m ∈ [.jr, .jp, .call]) (c : Option Condition)
    (target : UInt16) : (transfer m c target).target? = some target := by
  simp only [List.mem_cons, List.not_mem_nil, or_false] at hm
  rcases hm with rfl | rfl | rfl
  all_goals cases c <;> rfl

theorem taken_ret (r : Registers) (c : Option Condition) :
    (statement start (ret c)).taken r.flags = r.allows c := by
  cases c with
  | none => rfl
  | some c => exact c.holds?_term r

/-- The instructions that transfer control. -/
inductive Transfers : Instruction → Prop where
  | jumpRelative (c : Option Condition) (offset : UInt8) : Transfers (.jumpRelative c offset)
  | jump (c : Option Condition) (target : UInt16) : Transfers (.jump c target)
  | jumpHL : Transfers .jumpHL
  | call (c : Option Condition) (target : UInt16) : Transfers (.call c target)
  | ret (c : Option Condition) : Transfers (.ret c)
  | reti : Transfers .reti
  | restart (slot : Fin 8) : Transfers (.restart slot)

/-- No other instruction has a statement that transfers control. -/
theorem transfers_of_taken {flags : Flags} (h : (i.statement start).taken flags = true) :
    Transfers i := by
  have htransfers : (i.statement start).transfers = true := (Bool.and_eq_true_iff.1 h).1
  cases i with
  | jumpRelative c offset => exact .jumpRelative c offset
  | jump c target => exact .jump c target
  | jumpHL => exact .jumpHL
  | call c target => exact .call c target
  | ret c => exact .ret c
  | reti => exact .reti
  | restart slot => exact .restart slot
  | arithmetic operation _ | arithmeticImmediate operation _ | adjust operation
  | rotate operation _ => cases operation <;> cases htransfers
  | _ => cases htransfers

/-- An instruction that transfers no control leaves the program counter behind
it. -/
theorem pc_of_not_taken (h : (i.statement start).taken cpu.regs.flags = false) :
    (cpu.execute read i).cpu.regs.pc = cpu.regs.pc := by
  cases i with
  | loadPair p | addPair p | incrementPair p | decrementPair p | storeThrough p | loadThrough p
  | push p | pop p => cases p <;> rfl
  | increment o | decrement o | loadImmediate o | load o _ | rotate _ o | resetBit _ o
  | setBit _ o => cases o <;> rfl
  | adjust operation => cases operation <;> rfl
  | jumpRelative c offset | jump c target | call c target =>
    rw [statement, taken_transfer (by decide)] at h
    simp [Cpu.execute, Cpu.jump, h]
  | ret c =>
    rw [taken_ret] at h
    simp [Cpu.execute, h]
  | jumpHL | reti | restart slot => cases h
  | _ => rfl

/-- The transfers to an address show their target. -/
theorem Transfers.exists_target (h : Transfers i)
    (hshows : (i.statement start).mnemonic ∈ [.jr, .call, .rst] ∨
      (i.statement start).mnemonic = .jp ∧ (i.statement start).terms ≠ [.hl]) :
    ∃ target, (i.statement start).target? = some target := by
  cases h with
  | jumpRelative c | jump c | call c => exact ⟨_, target?_transfer (by decide) c _⟩
  | restart slot => exact ⟨_, rfl⟩
  | jumpHL | ret | reti => simp [statement] at hshows

/-- An instruction that shows a target and transfers control transfers it
there. -/
theorem pc_of_taken (hpc : cpu.regs.pc = start + i.length.toUInt16) {target : UInt16}
    (htarget : (i.statement start).target? = some target)
    (h : (i.statement start).taken cpu.regs.flags = true) :
    (cpu.execute read i).cpu.regs.pc = target := by
  cases transfers_of_taken h with
  | jumpRelative c offset =>
    rw [statement, taken_transfer (by decide)] at h
    rw [statement, target?_transfer (by decide), relativeTarget] at htarget
    simp only [Cpu.execute, Cpu.jump, h, if_true, hpc]
    exact Option.some.inj htarget
  | jump c | call c =>
    rw [statement, taken_transfer (by decide)] at h
    rw [statement, target?_transfer (by decide)] at htarget
    simp only [Cpu.execute, Cpu.jump, Cpu.enter, h, if_true]
    exact Option.some.inj htarget
  | restart slot =>
    obtain rfl := Option.some.inj htarget
    exact (restartAddress_eq slot).symm
  | ret c => cases c <;> cases htarget
  | jumpHL | reti => cases htarget

/-- An instruction that enters a subroutine puts the program counter on the
stack. -/
theorem push_of_taken (hmnemonic : (i.statement start).mnemonic ∈ [.call, .rst])
    (h : (i.statement start).taken cpu.regs.flags = true) :
    (cpu.execute read i).cpu.regs.sp = (cpu.regs.push cpu.regs.pc).1.sp ∧
      (cpu.execute read i).writes = (cpu.regs.push cpu.regs.pc).2 := by
  cases transfers_of_taken h with
  | call c =>
    rw [statement, taken_transfer (by decide)] at h
    simp [Cpu.execute, Cpu.enter, h]
  | restart slot => exact ⟨rfl, rfl⟩
  | jumpRelative | jump | jumpHL | ret | reti => simp [statement, transfer] at hmnemonic

end Instruction

namespace Machine

variable {m : Machine}

/-! ## The step -/

/-- What the disassembler lists at the program counter. -/
def listed (m : Machine) : Disassembly :=
  disassemble m.bus.read m.cpu.regs.pc

/-- The address behind what is listed at the program counter. -/
def behind (m : Machine) : UInt16 :=
  m.cpu.regs.pc + m.listed.length

theorem ofText?_listed (m : Machine) :
    Statement.ofText? m.listed.text = some (m.nextInstruction.statement m.cpu.regs.pc) :=
  Disassembly.ofText?_disassemble _ _

theorem skip_eq (m : Machine) :
    skip m.cpu m.nextInstruction = { m.cpu with regs.pc := m.behind } := by
  rw [behind, listed, Disassembly.disassemble_eq]
  rfl

/-- The machine behind the instruction at the program counter, before an
interrupt may be served. -/
def executed (m : Machine) : Machine :=
  m.executeNext.1.runTimer m.executeNext.2

/-- The interrupt that is served behind the instruction at the program counter. -/
def served (m : Machine) : Option Interrupt :=
  if m.executed.cpu.ime then m.executed.pending else none

theorem stepCpu_eq (hawake : m.cpu.halted = false) :
    m.stepCpu = (m.executed.serveInterrupts.1.count
        (m.executeNext.2 + m.executed.serveInterrupts.2),
      m.executeNext.2 + m.executed.serveInterrupts.2) := by
  have hexecute : m.executeOrIdle = m.executeNext := by
    rw [executeOrIdle, hawake]
    rfl
  rw [stepCpu, hexecute]
  rfl

theorem serveInterrupts_of_served {i : Interrupt} (h : m.served = some i) :
    m.executed.serveInterrupts =
      ((m.executed.wake.dispatch i).runTimer dispatchCycles, dispatchCycles) := by
  unfold served at h
  split at h
  · have hime : m.executed.cpu.ime = true := ‹_›
    rw [pending, hime, Bool.true_or, if_pos rfl] at h
    exact serveInterrupts_of_some hime h
  · cases h

/-- If no interrupt is served, a pending one still wakes the CPU. -/
theorem serveInterrupts_of_not_served (h : m.served = none) :
    m.executed.serveInterrupts =
      ({ m.executed with cpu.halted := m.executed.cpu.halted &&
          (Interrupt.nextPending m.executed.bus.requests m.executed.bus.enables).isNone }, 0) := by
  refine serveInterrupts_of_imp_none fun hime => ?_
  rw [served, if_pos hime, pending, hime, Bool.true_or, if_pos rfl] at h
  exact h

/-! ## Where the program counter goes -/

/-- The program counter goes where the listing says.  `s` is the statement that
is listed. -/
structure FollowsListing (m : Machine) (s : Statement) : Prop where
  /-- Where no control is transferred, it goes behind what is listed. -/
  passes : s.taken m.cpu.regs.flags = false → m.executeNext.1.cpu.regs.pc = m.behind
  /-- A transfer to an address goes to the address that is shown. -/
  goes : s.taken m.cpu.regs.flags = true →
    s.mnemonic ∈ [.jr, .call, .rst] ∨ s.mnemonic = .jp ∧ s.terms ≠ [.hl] →
    ∃ target, s.target? = some target ∧ m.executeNext.1.cpu.regs.pc = target
  /-- A call puts the address behind what is listed on the stack. -/
  calls : s.taken m.cpu.regs.flags = true → s.mnemonic ∈ [.call, .rst] →
    m.executeNext.1.cpu.regs.sp = m.cpu.regs.sp - 2 ∧
      m.executeNext.1.bus = m.bus.writeAll
        [(m.cpu.regs.sp - 1, highByte m.behind), (m.cpu.regs.sp - 2, lowByte m.behind)]
  /-- An interrupt that is served in the same step puts the program counter on
  the stack as the instruction left it. -/
  serves : ∀ i, m.served = some i →
    let left := m.executeNext.1.cpu.regs
    m.stepCpu.1.cpu.regs.pc = i.vector ∧
    m.stepCpu.1.cpu.regs.sp = left.sp - 2 ∧
    m.stepCpu.1.bus =
      (Bus.writeAll { m.executed.bus with requests := i.clear m.executed.bus.requests }
        [(left.sp - 1, highByte left.pc), (left.sp - 2, lowByte left.pc)]).advanceTimer
          dispatchCycles

/-- The two decoders agree on where execution goes on: the disassembler's, read
off its text and its length, and that of the CPU that works by opcodes. -/
theorem executeNext_follows_listing (hawake : m.cpu.halted = false) :
    ∃ s, Statement.ofText? m.listed.text = some s ∧ m.FollowsListing s ∧
      (m.bus.Sound → Checked.executeNext.run m = .ok (m.executeNext.2, m.executeNext.1)) := by
  have hpc : (skip m.cpu m.nextInstruction).regs.pc =
      m.cpu.regs.pc + m.nextInstruction.length.toUInt16 := rfl
  have hbehind : (skip m.cpu m.nextInstruction).regs.pc = m.behind := by
    rw [skip_eq]
  refine ⟨_, m.ofText?_listed, ⟨?_, ?_, ?_, ?_⟩, Checked.run_executeNext⟩
  · intro htaken
    rw [← hbehind]
    exact Instruction.pc_of_not_taken m.bus.read (skip m.cpu m.nextInstruction) htaken
  · intro htaken hshows
    obtain ⟨target, htarget⟩ :=
      (Instruction.transfers_of_taken htaken).exists_target hshows
    exact ⟨target, htarget,
      Instruction.pc_of_taken m.bus.read (skip m.cpu m.nextInstruction) hpc htarget htaken⟩
  · intro htaken hcalls
    obtain ⟨hsp, hwrites⟩ :=
      Instruction.push_of_taken m.bus.read (skip m.cpu m.nextInstruction) hcalls htaken
    rw [hbehind] at hsp hwrites
    exact ⟨hsp, congrArg m.bus.writeAll hwrites⟩
  · intro i hserved
    rw [stepCpu_eq hawake, serveInterrupts_of_served hserved]
    exact ⟨rfl, rfl, rfl⟩

/-- Without a cartridge, the machine starts with a call to 0038. -/
theorem postBoot_follows_listing : postBoot.cpu.halted = false ∧
    postBoot.listed = ⟨"RST $38", 1⟩ ∧
    ∃ s, Statement.ofText? postBoot.listed.text = some s ∧ postBoot.FollowsListing s ∧
      Checked.executeNext.run postBoot = .ok (postBoot.executeNext.2, postBoot.executeNext.1) := by
  obtain ⟨s, hread, hfollows, hrun⟩ := executeNext_follows_listing (m := postBoot) rfl
  exact ⟨rfl, rfl, s, hread, hfollows, hrun (sound_initial (Or.inr rfl))⟩

/-! ## What is done -/

/-- A step of CPU and timer does what an outcome says, and lets the timer run. -/
structure Does (m : Machine) (o : Outcome) : Prop where
  regs : m.stepCpu.1.cpu.regs = o.cpu.regs
  ime : m.stepCpu.1.cpu.ime = o.cpu.ime
  /-- A pending interrupt wakes the CPU even when it is not served. -/
  halted : m.stepCpu.1.cpu.halted = (o.cpu.halted &&
    (Interrupt.nextPending m.stepCpu.1.bus.requests m.stepCpu.1.bus.enables).isNone)
  bus : m.stepCpu.1.bus = (m.bus.writeAll o.writes).advanceTimer m.stepCpu.2

/-- A step that serves no interrupt does what the instruction at the program counter
does. -/
theorem does_executed (hawake : m.cpu.halted = false) (hserved : m.served = none) :
    m.Does ((skip m.cpu m.nextInstruction).execute m.bus.read m.nextInstruction).outcome := by
  have hstep := stepCpu_eq hawake
  rw [serveInterrupts_of_not_served hserved] at hstep
  constructor
  all_goals rw [hstep]
  all_goals rfl

/-- The CPU does what the disassembler lists: the text stands for an outcome, and
a step that serves no interrupt comes to it. -/
theorem stepCpu_does_listed (hawake : m.cpu.halted = false) (hserved : m.served = none) :
    ∃ s o, Statement.ofText? m.listed.text = some s ∧
      s.outcome? m.bus.read { m.cpu with regs.pc := m.behind } = some o ∧ m.Does o ∧
      (m.bus.Sound → Checked.stepCpu.run m = .ok (m.stepCpu.2, m.stepCpu.1)) := by
  have hpc : (skip m.cpu m.nextInstruction).regs.pc =
      m.cpu.regs.pc + m.nextInstruction.length.toUInt16 := rfl
  have houtcome := Instruction.outcome?_statement m.bus.read (skip m.cpu m.nextInstruction) hpc
  rw [skip_eq] at houtcome
  refine ⟨_, _, m.ofText?_listed, houtcome, ?_, Checked.run_stepCpu⟩
  rw [← skip_eq]
  exact does_executed hawake hserved

/-- A machine with one instruction in its high memory, and three bytes besides: HL and SP
stand at the first one of a pair. -/
def about (code : UInt8) : Machine :=
  { postBoot with
    cpu.regs := { Registers.postBoot with pc := 0xFF80, h := 0xFF, l := 0xC0, sp := 0xFFC0 }
    bus := Bus.postBoot.writeAll [(0xFF80, code), (0xFFC0, 0xB7), (0xFFC1, 0x42)] }

/-- Four instructions by what is listed: a call puts the address behind it on the stack,
a pointer moves along, AF takes the upper half of a byte for its flags, and a pair goes on
the stack with its high byte first. -/
theorem about_does_listed :
    (postBoot.cpu.halted = false ∧ postBoot.served = none) ∧
    (postBoot.listed.text = "RST $38" ∧
      postBoot.stepCpu.1.cpu.regs = { postBoot.cpu.regs with pc := 0x38, sp := 0xFFFC } ∧
      postBoot.stepCpu.1.bus =
        (postBoot.bus.writeAll [(0xFFFD, 0x01), (0xFFFC, 0x01)]).advanceTimer
          postBoot.stepCpu.2) ∧
    ((about 0x2A).listed.text = "LD A,(HL+)" ∧
      (about 0x2A).stepCpu.1.cpu.regs =
        { (about 0x2A).cpu.regs with pc := 0xFF81, a := 0xB7, h := 0xFF, l := 0xC1 }) ∧
    ((about 0xF1).listed.text = "POP AF" ∧
      (about 0xF1).stepCpu.1.cpu.regs =
        { (about 0xF1).cpu.regs with
          pc := 0xFF81, sp := 0xFFC2, a := 0x42
          flags := { zero := true, subtract := false, half := true, carry := true } }) ∧
    ((about 0xD5).listed.text = "PUSH DE" ∧
      (about 0xD5).stepCpu.1.cpu.regs =
        { (about 0xD5).cpu.regs with pc := 0xFF81, sp := 0xFFBE } ∧
      (about 0xD5).stepCpu.1.bus =
        ((about 0xD5).bus.writeAll [(0xFFBF, 0x00), (0xFFBE, 0xD8)]).advanceTimer
          (about 0xD5).stepCpu.2) ∧
    Checked.stepCpu.run postBoot = .ok (postBoot.stepCpu.2, postBoot.stepCpu.1) := by
  have hdoes : ∀ {m : Machine} {s : Statement} {o : Outcome}, m.cpu.halted = false →
      m.served = none → Statement.ofText? m.listed.text = some s →
      s.outcome? m.bus.read { m.cpu with regs.pc := m.behind } = some o → m.Does o := by
    intro m s o hawake hserved hread houtcome
    obtain ⟨s', o', hread', houtcome', hdoes, -⟩ := stepCpu_does_listed hawake hserved
    obtain rfl := Option.some.inj (hread.symm.trans hread')
    obtain rfl := Option.some.inj (houtcome.symm.trans houtcome')
    exact hdoes
  have hcall : postBoot.Does _ := hdoes (s := ⟨.rst, [.byte 0x38]⟩) rfl rfl (by decide) rfl
  have hload : (about 0x2A).Does _ := hdoes (s := ⟨.ld, [.a, .atHLUp]⟩) rfl rfl (by decide) rfl
  have hpop : (about 0xF1).Does _ := hdoes (s := ⟨.pop, [.af]⟩) rfl rfl (by decide) rfl
  have hpush : (about 0xD5).Does _ := hdoes (s := ⟨.push, [.de]⟩) rfl rfl (by decide) rfl
  obtain ⟨_, _, -, -, -, hrun⟩ := stepCpu_does_listed (m := postBoot) rfl rfl
  exact ⟨⟨rfl, rfl⟩, ⟨rfl, hcall.regs, hcall.bus⟩, ⟨rfl, hload.regs⟩,
    ⟨rfl, hpop.regs⟩, ⟨rfl, hpush.regs, hpush.bus⟩, hrun (sound_initial (Or.inr rfl))⟩

end Machine
end Handheld
