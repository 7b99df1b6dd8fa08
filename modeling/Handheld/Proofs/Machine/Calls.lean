import Handheld.Proofs.Checked.FlagByte
import Handheld.Proofs.Checked.Opcode
import Handheld.Proofs.Machine.Dispatch
import Handheld.Proofs.Machine.Stack

/-!
# Calls and returns

A call puts the program counter on the stack and goes elsewhere; a return goes on where
the word on top of the stack says.  So do interrupts, and words that a program puts on
the stack itself lie between them.  As long as nothing else touches the words on the
stack, every return leads behind the call that it belongs to, however deep calls are
nested.

There are four groups.

* Pairs.  `Registers.stackPair_setStackPair` says what a pair takes from the stack.
* What uses the stack.  `Enters` are calls, restarts and interrupts, and `Returns` are the
  returns.  Each of them does one thing to the words on the stack, `Enters.stacked` and
  `Returns.stacked`.
* Runs.  `StackRun` keeps the book of the words that lie on the stack, and
  `StackRun.stacked` says that they do.  The steps of the machine are such runs,
  `StackRun.step`.
* The result, `stack_lastInFirstOut`.
-/

namespace Handheld

/-! ## Pairs -/

/-- What a pair keeps of a word that is taken from the stack: F has four flags only. -/
def StackPair.keeps (p : StackPair) (value : UInt16) : UInt16 :=
  if p = .af then word (highByte value) (lowByte value &&& 0xF0) else value

theorem Registers.stackPair_setStackPair (r : Registers) (value : UInt16) (p q : StackPair) :
    (r.setStackPair value p).stackPair q = if q = p then p.keeps value else r.stackPair q := by
  cases p with
  | af =>
    cases q with
    | af =>
      show word (highByte value) (Flags.ofByte (lowByte value)).toByte = _
      rw [Flags.toByte_ofByte]
      rfl
    | _ => rfl
  | bc =>
    cases q with
    | bc => exact r.bc_setBC value
    | _ => rfl
  | de =>
    cases q with
    | de => exact r.de_setDE value
    | _ => rfl
  | hl =>
    cases q with
    | hl => exact r.hl_setHL value
    | _ => rfl

theorem Registers.sp_setStackPair (r : Registers) (value : UInt16) (p : StackPair) :
    (r.setStackPair value p).sp = r.sp := by
  cases p <;> rfl

namespace Machine

/-! ## What uses the stack -/

/-- The instruction at the program counter, or an interrupt, puts an address on the stack
and goes elsewhere. -/
inductive Enters : Machine → UInt16 → Machine → Prop where
  | call {m : Machine} {condition : Option Condition} {target : UInt16}
      (h : m.nextInstruction = .call condition target) (taken : m.cpu.regs.allows condition) :
      Enters m (m.cpu.regs.pc + 3) m.executeNext.1
  | restart {m : Machine} {slot : Fin 8} (h : m.nextInstruction = .restart slot) :
      Enters m (m.cpu.regs.pc + 1) m.executeNext.1
  | interrupt (m : Machine) (i : Interrupt) : Enters m m.cpu.regs.pc (m.dispatch i)

/-- The instruction at the program counter goes on at the word on top of the stack. -/
inductive Returns : Machine → Machine → Prop where
  | ret {m : Machine} {condition : Option Condition} (h : m.nextInstruction = .ret condition)
      (taken : m.cpu.regs.allows condition) : Returns m m.executeNext.1
  | reti {m : Machine} (h : m.nextInstruction = .reti) : Returns m m.executeNext.1

/-- Something happens that leaves the stack pointer alone, and so many bytes below the
base of the stack. -/
structure LeavesStack (base : UInt16) (bytes : Nat) (m m' : Machine) : Prop where
  sp : m'.cpu.regs.sp = m.cpu.regs.sp
  read : ∀ i < bytes, m'.bus.read (byteBelow base i) = m.bus.read (byteBelow base i)

variable {m m' : Machine} {base w : UInt16} {words : List UInt16}

theorem executeNext_of {i : Instruction} (h : m.nextInstruction = i) :
    m.executeNext.1 = { m with
      cpu := ((skip m.cpu i).execute m.bus.read i).cpu
      bus := m.bus.writeAll ((skip m.cpu i).execute m.bus.read i).writes } := by
  rw [← h]
  rfl

theorem Stacked.leavesStack (h : Stacked base words m)
    (hleaves : LeavesStack base (2 * words.length) m m') : Stacked base words m' :=
  ⟨hleaves.sp.trans h.sp, h.words.of_read_eq hleaves.read⟩

/-- The timer, the screen and the requests have no part in the stack. -/
theorem LeavesStack.of_memories {bytes : Nat} (hroom : HasRoom base bytes)
    (hsp : m'.cpu.regs.sp = m.cpu.regs.sp) (hwork : m'.bus.work = m.bus.work)
    (hhigh : m'.bus.high = m.bus.high) : LeavesStack base bytes m m' := by
  refine ⟨hsp, fun i hi => ?_⟩
  have hmemory := hroom.memory hi
  have hanswers := Place.answers_ofAddress (byteBelow base i)
  unfold Bus.read
  cases hplace : Place.ofAddress (byteBelow base i) with
  | work offset => rw [hwork]
  | high offset => rw [hhigh]
  | unusable | bootSwitch => rfl
  | _ =>
    rw [hplace] at hanswers
    simp only [Place.Answers] at hanswers
    omega

/-- An instruction leaves the stack alone when it keeps the stack pointer and none of its
writes reaches the words. -/
theorem LeavesStack.of_executeNext {bytes : Nat} {i : Instruction} (hnext : m.nextInstruction = i)
    (hsp : ((skip m.cpu i).execute m.bus.read i).cpu.regs.sp = m.cpu.regs.sp)
    (hwrites : ∀ e ∈ ((skip m.cpu i).execute m.bus.read i).writes, ∀ k < bytes,
      ¬ Reaches e.1.toNat (byteBelow base k).toNat) :
    LeavesStack base bytes m m.executeNext.1 := by
  rw [executeNext_of hnext]
  refine ⟨hsp, fun k hk => ?_⟩
  -- one write after another, whatever the bus was before
  show (m.bus.writeAll _).read _ = _
  generalize ((skip m.cpu i).execute m.bus.read i).writes = writes at hwrites
  generalize m.bus = b
  induction writes generalizing b with
  | nil => rfl
  | cons e writes ih =>
    have hfirst := hwrites e List.mem_cons_self k hk
    refine (ih (fun other hother => hwrites other (List.mem_cons_of_mem e hother)) _).trans ?_
    exact b.read_write_of_not_reaches e.2 hfirst

/-- A call puts its address on top of the words on the stack. -/
theorem Enters.stacked (h : Enters m w m') (hstacked : Stacked base words m)
    (hroom : HasRoom base (2 * (words.length + 1))) : Stacked base (w :: words) m' := by
  cases h with
  | @call condition target hnext taken =>
    have hexecute : (skip m.cpu (.call condition target)).execute m.bus.read
        (.call condition target) = { (skip m.cpu (.call condition target)).enter target with
          taken := condition.isSome } := if_pos taken
    rw [executeNext_of hnext, hexecute]
    exact hstacked.of_push hroom rfl rfl
  | restart hnext =>
    rw [executeNext_of hnext]
    exact hstacked.of_push hroom rfl rfl
  | interrupt i =>
    -- the request is withdrawn before the program counter is put on the stack
    have hcleared : Stacked base words
        { m with bus.requests := Interrupt.clear i m.bus.requests } :=
      hstacked.leavesStack (.of_memories (hroom.mono (by omega)) rfl rfl rfl)
    exact hcleared.of_push hroom rfl rfl

/-- A return goes on at the word on top, and takes it from the stack. -/
theorem Returns.stacked (h : Returns m m') (hstacked : Stacked base (w :: words) m) :
    Stacked base words m' ∧ m'.cpu.regs.pc = w := by
  have htop := hstacked.words.top hstacked.sp
  cases h with
  | @ret condition hnext taken =>
    have hexecute : (skip m.cpu (.ret condition)).execute m.bus.read (.ret condition) =
        { cpu := (skip m.cpu (.ret condition)).leave m.bus.read
          taken := condition.isSome } := if_pos taken
    rw [executeNext_of hnext, hexecute]
    exact ⟨⟨sp_drop hstacked.sp, hstacked.words.2⟩, htop⟩
  | reti hnext =>
    rw [executeNext_of hnext]
    exact ⟨⟨sp_drop hstacked.sp, hstacked.words.2⟩, htop⟩

/-- A pair is put on top of the words on the stack. -/
theorem Stacked.executeNext_push (h : Stacked base words m)
    (hroom : HasRoom base (2 * (words.length + 1))) {p : StackPair}
    (hnext : m.nextInstruction = .push p) :
    Stacked base (m.cpu.regs.stackPair p :: words) m.executeNext.1 := by
  have hpair : (skip m.cpu (.push p)).regs.stackPair p = m.cpu.regs.stackPair p := by
    cases p <;> rfl
  rw [executeNext_of hnext, ← hpair]
  exact h.of_push hroom rfl rfl

/-- A pair takes the word on top from the stack. -/
structure TakesTop (w : UInt16) (p : StackPair) (m m' : Machine) : Prop where
  pair : m'.cpu.regs.stackPair p = p.keeps w
  others : ∀ q, q ≠ p → m'.cpu.regs.stackPair q = m.cpu.regs.stackPair q
  sp : m'.cpu.regs.sp = m.cpu.regs.sp + 2
  bus : m'.bus = m.bus

theorem Stacked.takesTop (h : Stacked base (w :: words) m) {p : StackPair}
    (hnext : m.nextInstruction = .pop p) : TakesTop w p m m.executeNext.1 := by
  have htop := h.words.top h.sp
  rw [executeNext_of hnext]
  constructor
  · show (Registers.setStackPair _ (m.cpu.regs.top m.bus.read) p).stackPair p = _
    rw [Registers.stackPair_setStackPair, if_pos rfl, htop]
  · intro q hq
    show (Registers.setStackPair _ (m.cpu.regs.top m.bus.read) p).stackPair q = _
    rw [Registers.stackPair_setStackPair, if_neg hq]
    cases q <;> rfl
  · exact Registers.sp_setStackPair _ _ p
  · rfl

theorem Stacked.executeNext_pop (h : Stacked base (w :: words) m) {p : StackPair}
    (hnext : m.nextInstruction = .pop p) : Stacked base words m.executeNext.1 := by
  have htakes := h.takesTop hnext
  refine ⟨?_, by rw [htakes.bus]; exact h.words.2⟩
  rw [htakes.sp]
  exact sp_drop h.sp

/-! ## Runs -/

/-- What happens to a machine and to the words on its stack: calls, returns, pairs that
are put on the stack and taken from it, and whatever leaves the stack alone. -/
inductive StackRun (base : UInt16) :
    Machine → List UInt16 → Machine → List UInt16 → Prop where
  | done (m : Machine) (words : List UInt16) : StackRun base m words m words
  | enters {m m₁ m' : Machine} {words words' : List UInt16} {w : UInt16} (h : Enters m w m₁)
      (room : HasRoom base (2 * (words.length + 1)))
      (rest : StackRun base m₁ (w :: words) m' words') : StackRun base m words m' words'
  | returns {m m₁ m' : Machine} {words words' : List UInt16} {w : UInt16} (h : Returns m m₁)
      (rest : StackRun base m₁ words m' words') : StackRun base m (w :: words) m' words'
  | push {m m' : Machine} {words words' : List UInt16} {p : StackPair}
      (h : m.nextInstruction = .push p) (room : HasRoom base (2 * (words.length + 1)))
      (rest : StackRun base m.executeNext.1 (m.cpu.regs.stackPair p :: words) m' words') :
      StackRun base m words m' words'
  | pop {m m' : Machine} {words words' : List UInt16} {w : UInt16} {p : StackPair}
      (h : m.nextInstruction = .pop p) (rest : StackRun base m.executeNext.1 words m' words') :
      StackRun base m (w :: words) m' words'
  | other {m m₁ m' : Machine} {words words' : List UInt16}
      (h : LeavesStack base (2 * words.length) m m₁) (rest : StackRun base m₁ words m' words') :
      StackRun base m words m' words'

namespace StackRun

variable {m₁ m₂ m₃ : Machine} {words' words'' : List UInt16}

theorem trans (h : StackRun base m words m₁ words')
    (h' : StackRun base m₁ words' m₂ words'') : StackRun base m words m₂ words'' := by
  induction h with
  | done => exact h'
  | enters h room _ ih => exact .enters h room (ih h')
  | returns h _ ih => exact .returns h (ih h')
  | push h room _ ih => exact .push h room (ih h')
  | pop h _ ih => exact .pop h (ih h')
  | other h _ ih => exact .other h (ih h')

/-- The words in the book are the words on the stack. -/
theorem stacked (h : StackRun base m words m₁ words') (hstacked : Stacked base words m) :
    Stacked base words' m₁ := by
  induction h with
  | done => exact hstacked
  | enters h room _ ih => exact ih (h.stacked hstacked room)
  | returns h _ ih => exact ih (h.stacked hstacked).1
  | push h room _ ih => exact ih (hstacked.executeNext_push room h)
  | pop h _ ih => exact ih (hstacked.executeNext_pop h)
  | other h _ ih => exact ih (hstacked.leavesStack h)

theorem of_leavesStack (h : LeavesStack base (2 * words.length) m m') :
    StackRun base m words m' words :=
  .other h (.done m' words)

/-- Behind the instruction of a step, at most an interrupt uses the stack. -/
theorem step (h : StackRun base m words m.executeOrIdle.1 words')
    (hroom : HasRoom base (2 * (words'.length + 1))) :
    (∀ i, m.Dispatches i →
      StackRun base m words m.step.1 (m.executeOrIdle.1.cpu.regs.pc :: words')) ∧
    ((∀ i, ¬ m.Dispatches i) → StackRun base m words m.step.1 words') := by
  have hroom' : HasRoom base (2 * words'.length) := hroom.mono (by omega)
  have htimed : LeavesStack base (2 * words'.length) m.executeOrIdle.1 m.polled :=
    .of_memories hroom' rfl rfl rfl
  have hpolled := h.trans (.of_leavesStack htimed)
  constructor
  · -- the CPU wakes up, enters the vector, and then time passes
    intro i hdispatches
    obtain ⟨hime, hnext⟩ := dispatches_iff_nextPending.1 hdispatches
    have hserve := serveInterrupts_of_some hime hnext
    have hwoken : LeavesStack base (2 * words'.length) m.polled m.polled.wake :=
      .of_memories hroom' rfl rfl rfl
    have hentered : StackRun base m.polled.wake words' (m.polled.wake.dispatch i)
        (m.polled.wake.cpu.regs.pc :: words') := .enters (.interrupt _ i) hroom (.done _ _)
    have hlast : LeavesStack base (2 * (words'.length + 1)) (m.polled.wake.dispatch i)
        m.step.1 := by
      refine .of_memories hroom ?_ ?_ ?_ <;> (rw [Machine.step, stepCpu_of_polled, hserve]; rfl)
    exact hpolled.trans ((of_leavesStack hwoken).trans (hentered.trans (.of_leavesStack hlast)))
  · intro hnone
    have hserve := serveInterrupts_of_imp_none (m := m.polled) fun hime =>
      Option.eq_none_iff_forall_ne_some.2 fun i hnext =>
        hnone i (dispatches_iff_nextPending.2 ⟨hime, hnext⟩)
    have hlast : LeavesStack base (2 * words'.length) m.polled m.step.1 := by
      refine .of_memories hroom' ?_ ?_ ?_ <;> (rw [Machine.step, stepCpu_of_polled, hserve]; rfl)
    exact hpolled.trans (.of_leavesStack hlast)

end StackRun

/-! ## The result -/

/-- A call and the return that belongs to it: the return goes on behind the call, and the
stack is as it was before. -/
theorem Enters.returned {m₁ m₂ m₃ : Machine} (h : Enters m w m₁)
    (hstacked : Stacked base words m) (hroom : HasRoom base (2 * (words.length + 1)))
    (hrun : StackRun base m₁ (w :: words) m₂ (w :: words)) (hreturns : Returns m₂ m₃) :
    m₃.cpu.regs.pc = w ∧ m₃.cpu.regs.sp = m.cpu.regs.sp ∧ Stacked base words m₃ := by
  have hcalled := hrun.stacked (h.stacked hstacked hroom)
  obtain ⟨hafter, hpc⟩ := hreturns.stacked hcalled
  exact ⟨hpc, hafter.sp.trans hstacked.sp.symm, hafter⟩

/-- A pair is moved into another one. -/
structure Moves (p q : StackPair) (m m' : Machine) : Prop where
  pair : m'.cpu.regs.stackPair q = q.keeps (m.cpu.regs.stackPair p)
  others : ∀ other, other ≠ q → m'.cpu.regs.stackPair other = m.cpu.regs.stackPair other
  sp : m'.cpu.regs.sp = m.cpu.regs.sp

theorem moves_of_push_pop {p q : StackPair} (hroom : HasRoom m.cpu.regs.sp 2)
    (hpush : m.nextInstruction = .push p) (hpop : m.executeNext.1.nextInstruction = .pop q) :
    Moves p q m m.executeNext.1.executeNext.1 := by
  have hpushed := m.stacked_nil.executeNext_push hroom hpush
  have htakes := hpushed.takesTop hpop
  have hpopped := hpushed.executeNext_pop hpop
  refine ⟨htakes.pair, fun other hother => ?_, hpopped.sp.trans (UInt16.sub_zero _)⟩
  rw [htakes.others other hother, executeNext_of hpush]
  cases other <;> rfl

/-- The stack gives back what was put on it, the last word first, as long as the bytes
below the stack pointer are plain memory: words in the opposite order, pairs of registers
to any pair, and the program counter to the return that belongs to a call, a restart or an
interrupt, however deep these are nested. -/
theorem stack_lastInFirstOut (m : Machine) :
    (∀ words, HasRoom m.cpu.regs.sp (2 * words.length) → LastInFirstOut m words) ∧
    (∀ p q, HasRoom m.cpu.regs.sp 2 → m.nextInstruction = .push p →
      m.executeNext.1.nextInstruction = .pop q → Moves p q m m.executeNext.1.executeNext.1) ∧
    (∀ base words, Stacked base words m →
      (∀ w m₁ m₂ m₃, HasRoom base (2 * (words.length + 1)) → Enters m w m₁ →
        StackRun base m₁ (w :: words) m₂ (w :: words) → Returns m₂ m₃ →
          m₃.cpu.regs.pc = w ∧ m₃.cpu.regs.sp = m.cpu.regs.sp ∧ Stacked base words m₃) ∧
      ∀ m' words', StackRun base m words m' words' → Stacked base words' m') ∧
    ∀ base words words', StackRun base m words m.executeOrIdle.1 words' →
      HasRoom base (2 * (words'.length + 1)) →
      (∀ i, m.Dispatches i →
        StackRun base m words m.step.1 (m.executeOrIdle.1.cpu.regs.pc :: words')) ∧
      ((∀ i, ¬ m.Dispatches i) → StackRun base m words m.step.1 words') := by
  refine ⟨fun words => lastInFirstOut, fun p q => moves_of_push_pop, ?_, ?_⟩
  · intro base words hstacked
    refine ⟨?_, fun m' words' hrun => hrun.stacked hstacked⟩
    intro w m₁ m₂ m₃ hroom henters hrun hreturns
    exact henters.returned hstacked hroom hrun hreturns
  · intro base words words' hrun hroom
    exact hrun.step hroom

/-- A machine with a program in its high memory.  It calls a routine that moves AF to BC
and calls another one, which stores the accumulator. -/
def calling : Machine :=
  { postBoot with
    cpu.regs.pc := 0xFF80
    bus := Bus.postBoot.writeAll [(0xFF80, 0xCD), (0xFF81, 0x90), (0xFF82, 0xFF), (0xFF90, 0xF5),
      (0xFF91, 0xC1), (0xFF92, 0xCD), (0xFF93, 0xA0), (0xFF94, 0xFF), (0xFF95, 0xC9),
      (0xFFA0, 0xE0), (0xFFA1, 0xB0), (0xFFA2, 0xD9)] }

/-- The machine when a number of instructions have been executed. -/
def executeMany : (n : Nat) → Machine → Machine
  | 0, m => m
  | n + 1, m => executeMany n m.executeNext.1

/-- The first routine returns behind its call, although it used the stack three times. -/
theorem calling_returns :
    LastInFirstOut calling [0x1234, 0x5678] ∧
      Moves .af .bc (executeMany 1 calling) (executeMany 3 calling) ∧
      (executeMany 7 calling).cpu.regs.pc = 0xFF83 ∧
      (executeMany 7 calling).cpu.regs.sp = 0xFFFE ∧
      StackRun 0xFFFE calling [] calling.step.1 [0xFF83] := by
  have hroom : HasRoom 0xFFFE 6 := .inr (by decide)
  have hdeeper : HasRoom 0xFFFC 2 := .inr (by decide)
  obtain ⟨hwords, -, hcalls, hsteps⟩ := stack_lastInFirstOut calling
  obtain ⟨-, hmoves, -⟩ := stack_lastInFirstOut (executeMany 1 calling)
  have hfirst : Enters calling 0xFF83 (executeMany 1 calling) :=
    .call (show calling.nextInstruction = .call none 0xFF90 from rfl) rfl
  have hsecond : Enters (executeMany 3 calling) 0xFF95 (executeMany 4 calling) :=
    .call (show (executeMany 3 calling).nextInstruction = .call none 0xFFA0 from rfl) rfl
  have hstores : LeavesStack 0xFFFE 4 (executeMany 4 calling) (executeMany 5 calling) := by
    refine .of_executeNext (show (executeMany 4 calling).nextInstruction = .storeHigh 0xB0 from rfl)
      rfl fun e he k hk hreaches => ?_
    obtain rfl := List.mem_singleton.1 he
    have hbyte := hroom.toNat_byteBelow (show k < 6 by omega)
    have hstack : (0xFFFE : UInt16).toNat = 0xFFFE := rfl
    rw [Reaches, if_neg (by decide), if_pos (by decide)] at hreaches
    have hstored : (highAddress 0xB0).toNat = 0xFFB0 := rfl
    simp only [hstored] at hreaches
    rcases hreaches with heq | ⟨j, hj, hmirrored⟩
    · omega
    · omega
  have hlast : Returns (executeMany 6 calling) (executeMany 7 calling) :=
    .ret (show (executeMany 6 calling).nextInstruction = .ret none from rfl) rfl
  have hrun : StackRun 0xFFFE (executeMany 1 calling) [0xFF83] (executeMany 6 calling) [0xFF83] :=
    .push (p := .af) rfl (hroom.mono (by decide)) <|
    .pop (p := .bc) rfl <|
    .enters hsecond (hroom.mono (by decide)) <|
    .other hstores <|
    .returns (.reti rfl) (.done _ _)
  have hreturned := (hcalls 0xFFFE [] calling.stacked_nil).1 0xFF83 _ _ (executeMany 7 calling)
    (hroom.mono (by decide)) hfirst hrun hlast
  have hnone : ∀ i, ¬ calling.Dispatches i := fun i hdispatches =>
    Bool.false_ne_true (dispatches_iff_nextPending.1 hdispatches).1
  have hstep := (hsteps 0xFFFE [] [0xFF83] (.enters hfirst (hroom.mono (by decide)) (.done _ _))
    (hroom.mono (by decide))).2 hnone
  exact ⟨hwords _ (hroom.mono (by decide)), hmoves .af .bc hdeeper rfl rfl,
    hreturned.1, hreturned.2.1, hstep⟩

end Machine
end Handheld
