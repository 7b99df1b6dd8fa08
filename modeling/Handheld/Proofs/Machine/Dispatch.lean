import Handheld.Proofs.Machine.Clocks
import Handheld.Proofs.Machine.Idling

/-!
# Serving an interrupt

At the end of a step, when the instruction is done and the timer has run, the CPU
looks for requests.  If it serves interrupts, it serves the one with the lowest bit
of those that are heard.  What that does is said here by bits and addresses, without
the tables of the interrupts.

There are four groups.

* The bits of an interrupt: `nextPending_eq_some_iff` says that the lowest is taken,
  and `testBit_clear` that no other is cleared.
* Serving: the two cases of `serveInterrupts`.
* The end of a step.  `polled` is the machine as the CPU looks for requests,
  `Dispatches` says what serving an interrupt does to it, and `Undisturbed` what
  happens when none is served.
* The result, `stepCpu_serves_lowest`.
-/

namespace Handheld

/-! ## The bits of an interrupt -/

namespace Interrupt

theorem isSet_eq_testBit (i : Interrupt) (bits : UInt8) :
    i.isSet bits = bits.toNat.testBit i.index := by
  refine and_mask_eq_testBit bits i.mask i.index ?_
  cases i <;> rfl

theorem vector_eq (i : Interrupt) : i.vector = .ofNat (0x40 + 8 * i.index) := by
  cases i <;> rfl

theorem vector_inj {i j : Interrupt} (h : i.vector = j.vector) : i = j := by
  revert h
  cases i <;> cases j <;> decide

/-- The interrupts stand in the order of their bits. -/
theorem index_getElem_all : ∀ k (h : k < all.length), all[k].index = k := by
  decide

/-- The first interrupt that is found is the one with the lowest bit. -/
theorem find?_all_eq_some_iff {f : Nat → Bool} {i : Interrupt} :
    all.find? (fun j => f j.index) = some i ↔
      f i.index = true ∧ ∀ k < i.index, f k = false := by
  rw [List.find?_eq_some_iff_getElem]
  refine and_congr_right fun _ => ?_
  constructor
  · rintro ⟨n, hn, rfl, hbefore⟩ k hk
    rw [index_getElem_all] at hk
    have hclear := hbefore k hk
    rw [index_getElem_all] at hclear
    simpa using hclear
  · intro hbefore
    refine ⟨i.index, by cases i <;> decide, by cases i <;> rfl, ?_⟩
    intro k hk
    rw [index_getElem_all, hbefore k hk]
    rfl

theorem nextPending_eq_some_iff {i : Interrupt} {requests enabled : UInt8} :
    nextPending requests enabled = some i ↔
      (requests &&& enabled &&& wired).toNat.testBit i.index = true ∧
        ∀ k < i.index, (requests &&& enabled &&& wired).toNat.testBit k = false := by
  simp only [nextPending, isSet_eq_testBit]
  exact find?_all_eq_some_iff (f := fun k => (requests &&& enabled &&& wired).toNat.testBit k)

/-- Clearing an interrupt clears its bit and no other. -/
theorem testBit_clear (i : Interrupt) (bits : UInt8) (k : Nat) :
    (i.clear bits).toNat.testBit k = (bits.toNat.testBit k && k != i.index) := by
  rw [clear, UInt8.toNat_and, Nat.testBit_and]
  by_cases hk : k < 8
  · have hmask : (~~~i.mask).toNat.testBit k = (k != i.index) := by
      revert k
      cases i <;> decide
    rw [hmask]
  · have hbits : bits.toNat < 2 ^ k :=
      Nat.lt_of_lt_of_le bits.toNat_lt (Nat.pow_le_pow_right (by decide) (Nat.le_of_not_lt hk))
    rw [Nat.testBit_lt_two_pow hbits, Bool.false_and, Bool.false_and]

end Interrupt

namespace Machine

variable {m : Machine} {i : Interrupt}

/-! ## Serving -/

theorem wake_of_awake (h : m.cpu.halted = false) : m.wake = m := by
  rw [wake, ← h]

theorem serveInterrupts_of_some (hime : m.cpu.ime = true)
    (h : Interrupt.nextPending m.bus.requests m.bus.enables = some i) :
    m.serveInterrupts = ((m.wake.dispatch i).runTimer dispatchCycles, dispatchCycles) := by
  have hpending : m.pending = some i := by
    rw [pending, hime, Bool.true_or, if_pos rfl, h]
  simp only [serveInterrupts, hpending]
  rw [if_pos hime]

/-- Where no interrupt is served, one that is heard still wakes the CPU. -/
theorem serveInterrupts_of_imp_none
    (h : m.cpu.ime = true → Interrupt.nextPending m.bus.requests m.bus.enables = none) :
    m.serveInterrupts = ({ m with cpu.halted := m.cpu.halted &&
      (Interrupt.nextPending m.bus.requests m.bus.enables).isNone }, 0) := by
  unfold serveInterrupts pending
  cases hnext : Interrupt.nextPending m.bus.requests m.bus.enables with
  | none =>
    rw [ite_self, Option.isNone_none, Bool.and_true]
  | some i =>
    have hime : m.cpu.ime = false := by
      rw [Bool.eq_false_iff]
      intro hime
      rw [h hime] at hnext
      cases hnext
    rw [hime, Bool.false_or, Option.isNone_some, Bool.and_false]
    cases hhalted : m.cpu.halted with
    | false => exact congrArg (·, 0) (wake_of_awake hhalted).symm
    | true => rfl

/-! ## The end of a step -/

/-- The machine as the CPU looks for requests: the instruction is done, or the cycle
of idling, and the timer has run. -/
def polled (m : Machine) : Machine :=
  m.executeOrIdle.1.runTimer m.executeOrIdle.2

/-- At the end of a step the CPU serves an interrupt. -/
structure Dispatches (m : Machine) (i : Interrupt) : Prop where
  /-- The CPU goes on at the vector, wakes up, and serves no other interrupt
  meanwhile.  All other registers and the flags are left alone. -/
  cpu : m.stepCpu.1.cpu =
    { regs := { m.polled.cpu.regs with
        sp := m.polled.cpu.regs.sp - 2
        pc := .ofNat (0x40 + 8 * i.index) }
      cycles := m.cpu.cycles + (m.executeOrIdle.2 + 5).toUInt64
      halted := false
      ime := false }
  /-- First the bit of the request is cleared, then the program counter is put on the
  stack, the high byte before the low one, and then the timer runs. -/
  bus : ∃ requests : UInt8,
    (∀ k, requests.toNat.testBit k =
      (m.polled.bus.requests.toNat.testBit k && k != i.index)) ∧
    m.stepCpu.1.bus =
      ((({ m.polled.bus with requests }.write (m.polled.cpu.regs.sp - 1)
          (highByte m.polled.cpu.regs.pc)).write (m.polled.cpu.regs.sp - 2)
        (lowByte m.polled.cpu.regs.pc)).advanceTimer 5)
  cycles : m.stepCpu.2 = m.executeOrIdle.2 + 5

/-- At the end of a step the CPU serves no interrupt.  At most it wakes up. -/
structure Undisturbed (m : Machine) : Prop where
  cpu : m.stepCpu.1.cpu =
    { m.polled.cpu with
      cycles := m.cpu.cycles + m.executeOrIdle.2.toUInt64
      halted := m.polled.cpu.halted && m.polled.bus.heard == 0 }
  bus : m.stepCpu.1.bus = m.polled.bus
  cycles : m.stepCpu.2 = m.executeOrIdle.2

theorem stepCpu_of_polled (m : Machine) :
    m.stepCpu = (m.polled.serveInterrupts.1.count
        (m.executeOrIdle.2 + m.polled.serveInterrupts.2),
      m.executeOrIdle.2 + m.polled.serveInterrupts.2) := rfl

theorem cycles_polled (m : Machine) : m.polled.cpu.cycles = m.cpu.cycles :=
  m.cycles_executeOrIdle

theorem dispatches_of_some (hime : m.polled.cpu.ime = true)
    (h : Interrupt.nextPending m.polled.bus.requests m.polled.bus.enables = some i) :
    m.Dispatches i := by
  have hstep := m.stepCpu_of_polled
  rw [serveInterrupts_of_some hime h] at hstep
  refine ⟨?_, ⟨i.clear m.polled.bus.requests, i.testBit_clear _, ?_⟩, ?_⟩
  · rw [hstep, ← i.vector_eq, ← m.cycles_polled]
    rfl
  · rw [hstep]
    rfl
  · rw [hstep]
    rfl

theorem undisturbed_of_imp_none
    (h : m.polled.cpu.ime = true →
      Interrupt.nextPending m.polled.bus.requests m.polled.bus.enables = none) :
    m.Undisturbed := by
  have hnone : (Interrupt.nextPending m.polled.bus.requests m.polled.bus.enables).isNone =
      (m.polled.bus.heard == 0) := by
    rw [Bool.eq_iff_iff, Option.isNone_iff_eq_none, Interrupt.nextPending_eq_none_iff, beq_iff_eq]
    rfl
  have hstep := m.stepCpu_of_polled
  rw [serveInterrupts_of_imp_none h, hnone] at hstep
  refine ⟨?_, ?_, ?_⟩
  · rw [hstep, ← m.cycles_polled]
    rfl
  · rw [hstep]
    rfl
  · rw [hstep]
    rfl

/-- The two ends of a step exclude each other: only a dispatch takes cycles. -/
theorem Undisturbed.not_dispatches (h : m.Undisturbed) : ¬ m.Dispatches i := by
  intro hdispatches
  have hcycles := h.cycles.symm.trans hdispatches.cycles
  omega

theorem Dispatches.inj {j : Interrupt} (h : m.Dispatches i) (h' : m.Dispatches j) : i = j := by
  have hpc := congrArg (fun cpu => cpu.regs.pc) (h.cpu.symm.trans h'.cpu)
  simp only [← Interrupt.vector_eq] at hpc
  exact Interrupt.vector_inj hpc

/-- A step serves the interrupt that is pending behind the instruction, if the CPU
serves interrupts. -/
theorem dispatches_iff_nextPending :
    m.Dispatches i ↔ m.polled.cpu.ime = true ∧
      Interrupt.nextPending m.polled.bus.requests m.polled.bus.enables = some i := by
  refine ⟨?_, fun ⟨hime, hnext⟩ => dispatches_of_some hime hnext⟩
  intro h
  by_cases hnone : m.polled.cpu.ime = true →
      Interrupt.nextPending m.polled.bus.requests m.polled.bus.enables = none
  · exact absurd h (undisturbed_of_imp_none hnone).not_dispatches
  · push Not at hnone
    obtain ⟨hime, hsome⟩ := hnone
    obtain ⟨j, hj⟩ := Option.ne_none_iff_exists'.1 hsome
    rw [h.inj (dispatches_of_some hime hj)]
    exact ⟨hime, hj⟩

/-- EI and RETI let the CPU serve interrupts at the end of their own step. -/
theorem ime_polled_of_enabling (hawake : m.cpu.halted = false)
    (h : m.nextInstruction = .enableInterrupts ∨ m.nextInstruction = .reti) :
    m.polled.cpu.ime = true := by
  rw [polled, executeOrIdle, hawake, if_neg Bool.false_ne_true, executeNext]
  rcases h with h | h
  all_goals
    rw [h]
    rfl

/-! ## The result -/

/-- A step serves an interrupt if and only if, behind the instruction and its time,
the CPU serves interrupts and hears one, and then it serves the one with the lowest
bit and no other.  Without that, nothing happens but that an interrupt that is heard
wakes the CPU.  EI and RETI count for the end of their own step. -/
theorem stepCpu_serves_lowest (m : Machine) :
    (∀ i, m.Dispatches i ↔ m.polled.cpu.ime = true ∧
      m.polled.bus.heard.toNat.testBit i.index = true ∧
        ∀ k < i.index, m.polled.bus.heard.toNat.testBit k = false) ∧
    ((∃ i, m.Dispatches i) ↔ m.polled.cpu.ime = true ∧ m.polled.bus.heard ≠ 0) ∧
    (∀ i j, m.Dispatches i → m.Dispatches j → i = j) ∧
    (¬ (m.polled.cpu.ime = true ∧ m.polled.bus.heard ≠ 0) → m.Undisturbed) ∧
    (m.cpu.halted = false →
      m.bus.read m.cpu.regs.pc = 0xFB ∨ m.bus.read m.cpu.regs.pc = 0xD9 →
      m.polled.cpu.ime = true) := by
  have hheard : m.polled.bus.heard ≠ 0 ↔
      ∃ i, Interrupt.nextPending m.polled.bus.requests m.polled.bus.enables = some i := by
    rw [← Option.ne_none_iff_exists', Ne, Ne, not_iff_not]
    exact Interrupt.nextPending_eq_none_iff.symm
  refine ⟨?_, ?_, fun i j => Dispatches.inj, ?_, ?_⟩
  · intro i
    rw [dispatches_iff_nextPending, Interrupt.nextPending_eq_some_iff]
    rfl
  · simp only [dispatches_iff_nextPending, exists_and_left, hheard]
  · intro hnot
    refine undisturbed_of_imp_none fun hime => ?_
    by_contra hsome
    exact hnot ⟨hime, hheard.2 (Option.ne_none_iff_exists'.1 hsome)⟩
  · intro hawake hopcode
    refine ime_polled_of_enabling hawake ?_
    rw [nextInstruction, Instruction.decode]
    rcases hopcode with h | h
    · rw [h]
      exact Or.inl rfl
    · rw [h]
      exact Or.inr rfl

/-- A machine that enables interrupts while one is requested, with the request
register at the top of its stack. -/
def stackOnRequests : Machine :=
  { interrupted with cpu.regs.sp := 0xFF10 }

/-- It serves the interrupt in the same step.  The high byte of the program counter
reaches the register after the request is cleared, and requests it again. -/
theorem stackOnRequests_serves_lowest :
    stackOnRequests.cpu.halted = false ∧
      stackOnRequests.bus.read stackOnRequests.cpu.regs.pc = 0xFB ∧
      stackOnRequests.Dispatches .vblank ∧ stackOnRequests.stepCpu.2 = 6 ∧
      stackOnRequests.stepCpu.1.bus.requests = 0x01 := by
  obtain ⟨hserves, -, -, -, henabling⟩ := stepCpu_serves_lowest stackOnRequests
  have hopcode : stackOnRequests.bus.read stackOnRequests.cpu.regs.pc = 0xFB := read_interrupted
  have hime : stackOnRequests.polled.cpu.ime = true := henabling rfl (Or.inl hopcode)
  have hexecute : stackOnRequests.executeOrIdle =
      ({ stackOnRequests with cpu :=
          { skip stackOnRequests.cpu .enableInterrupts with ime := true } }, 1) := by
    have hnext : stackOnRequests.nextInstruction = .enableInterrupts :=
      nextInstruction_interrupted
    rw [executeOrIdle, if_neg (by decide), executeNext, hnext]
    rfl
  have hpolled : stackOnRequests.polled = _ := congrArg (fun e => e.1.runTimer e.2) hexecute
  have hheard : stackOnRequests.polled.bus.heard.toNat.testBit 0 = true := by
    rw [hpolled]
    rfl
  have hdispatches : stackOnRequests.Dispatches .vblank :=
    (hserves .vblank).2 ⟨hime, hheard, fun k hk => absurd hk (Nat.not_lt_zero k)⟩
  have hcycles := hdispatches.cycles
  rw [hexecute] at hcycles
  refine ⟨rfl, hopcode, hdispatches, hcycles, ?_⟩
  rw [stepCpu_of_polled, hpolled]
  rfl

end Machine
end Handheld
