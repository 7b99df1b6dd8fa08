import Handheld.Assembly.Meaning
import Handheld.Proofs.Assembly.Listing

/-!
# Instructions do what their statements say

The statement of an instruction comes to what executing the instruction comes
to: `outcome?_statement`.
-/

namespace Handheld

open Assembly (Term Mnemonic Statement Outcome)

/-- What an effect comes to.  Whether a condition held is left out. -/
def Effect.outcome (e : Effect) : Outcome where
  cpu := e.cpu
  writes := e.writes

/-- The number of a byte, written with its sign, is the number of that byte. -/
theorem ofInt_signedValue (e : UInt8) : UInt8.ofInt (signedValue e) = e := by
  induction e using forall_byte with
  | h n hn =>
    have hall : ∀ n < 256, UInt8.ofInt (signedValue (UInt8.ofNat n)) = UInt8.ofNat n := by
      decide +kernel
    exact hall n hn

theorem Assembly.Term.bit?_number (n : Fin 8) : (Term.number n.val).bit? = some n :=
  dif_pos n.isLt

namespace Instruction

variable (read : UInt16 → UInt8) (cpu : Cpu)

theorem onlyIf?_term (c : Condition) (o : Outcome) :
    Outcome.onlyIf? cpu c.term o = some (if cpu.regs.holds c then o else { cpu }) := by
  cases c <;> rfl

/-- A transfer of control to an address happens as its condition says. -/
theorem transfer?_terms (go : UInt16 → Outcome) (c : Option Condition) (target : UInt16) :
    Outcome.transfer? cpu go ((c.map (·.term)).toList ++ [.word target]) =
      some (if cpu.regs.allows c then go target else { cpu }) := by
  cases c with
  | none => rfl
  | some c => cases c <;> rfl

/-- What happens under a condition comes to what its effect comes to. -/
theorem ite_outcome {p : Prop} [Decidable p] {o o' : Outcome} {e e' : Effect}
    (h : o = e.outcome) (h' : o' = e'.outcome) :
    some (if p then o else o') = some (if p then e else e').outcome := by
  rw [h, h', apply_ite Effect.outcome]

theorem restartAddress_eq (slot : Fin 8) :
    (8 * slot.val).toUInt8.toUInt16 = restartAddress slot := by
  revert slot
  decide

/-- Executing an instruction comes to what its statement comes to. -/
theorem outcome?_statement {start : UInt16} {i : Instruction}
    (hpc : cpu.regs.pc = start + i.length.toUInt16) :
    (i.statement start).outcome? read cpu = some (cpu.execute read i).outcome := by
  cases i with
  | loadPair p | addPair p | incrementPair p | decrementPair p | storeThrough p | loadThrough p
  | push p | pop p => cases p <;> rfl
  | increment o | decrement o | loadImmediate o => cases o <;> rfl
  | load target source => cases target <;> cases source <;> rfl
  | adjust operation | arithmeticImmediate operation => cases operation <;> rfl
  | arithmetic operation o | rotate operation o => cases operation <;> cases o <;> rfl
  | jumpRelative c offset =>
    have htarget : relativeTarget start offset = cpu.regs.pc + signExtend offset := by
      rw [hpc]
      rfl
    refine (transfer?_terms cpu (Outcome.goTo cpu) c _).trans ?_
    rw [htarget]
    exact ite_outcome rfl rfl
  | jump c target =>
    -- JP has one more form than the other transfers, so its terms are looked at
    have hterms : (statement start (jump c target)).outcome? read cpu =
        Outcome.transfer? cpu (Outcome.goTo cpu) ((c.map (·.term)).toList ++ [.word target]) := by
      cases c with
      | none => rfl
      | some c => cases c <;> rfl
    rw [hterms, transfer?_terms]
    exact ite_outcome rfl rfl
  | call c target =>
    exact (transfer?_terms cpu (Outcome.enter cpu) c target).trans (ite_outcome rfl rfl)
  | ret c =>
    cases c with
    | none => rfl
    | some c => exact (onlyIf?_term cpu c (Outcome.leave read cpu)).trans (ite_outcome rfl rfl)
  | restart slot =>
    change some (Outcome.enter cpu (8 * slot.val).toUInt8.toUInt16) = _
    rw [restartAddress_eq]
    rfl
  | addSp e =>
    change some (Outcome.ofRegisters cpu
      { cpu.regs with
        sp := (Alu.addSigned cpu.regs.sp (.ofInt (signedValue e))).1
        flags := (Alu.addSigned cpu.regs.sp (.ofInt (signedValue e))).2 }) = _
    rw [ofInt_signedValue]
    rfl
  | loadHLFromSp e =>
    change some (Outcome.ofRegisters cpu
      { Term.putHL cpu.regs (Alu.addSigned cpu.regs.sp (.ofInt (signedValue e))).1 with
        flags := (Alu.addSigned cpu.regs.sp (.ofInt (signedValue e))).2 }) = _
    rw [ofInt_signedValue]
    rfl
  | testBit n o =>
    change Outcome.testBit? read cpu (.number n.val) o.term = _
    rw [Outcome.testBit?, Term.bit?_number]
    cases o <;> rfl
  | resetBit n o | setBit n o =>
    change Outcome.changeBit? read cpu _ (.number n.val) o.term = _
    rw [Outcome.changeBit?, Term.bit?_number]
    cases o <;> rfl
  | _ => rfl

end Instruction
end Handheld
