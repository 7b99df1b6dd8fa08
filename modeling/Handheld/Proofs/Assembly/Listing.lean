import Handheld.Instruction.Table
import Handheld.Proofs.Assembly.Reading
import Handheld.Proofs.Checked.Opcode

/-!
# What a listing shows

The text of an instruction is the text of a statement, the one that
`Instruction.statement` says.  The disassembler that works by tables writes the
text that the instruction has, and answers its length.
-/

namespace Handheld

open Assembly (Term Mnemonic Statement)

/-! ## The statement of an instruction -/

/-- The term of an operand. -/
def Operand.term : Operand → Term
  | .b => .b | .c => .c | .d => .d | .e => .e
  | .h => .h | .l => .l | .atHL => .atHL | .a => .a

/-- The term of a pair. -/
def Pair.term : Pair → Term
  | .bc => .bc | .de => .de | .hl => .hl | .sp => .sp

/-- The term of a stack pair. -/
def StackPair.term : StackPair → Term
  | .bc => .bc | .de => .de | .hl => .hl | .af => .af

/-- The term of a pointer. -/
def Pointer.term : Pointer → Term
  | .bc => .atBC | .de => .atDE | .hlUp => .atHLUp | .hlDown => .atHLDown

/-- The term of a condition. -/
def Condition.term : Condition → Term
  | .notZero => .nz | .zero => .z | .notCarry => .nc | .carry => .c

/-- The statement of an operation on the accumulator.  Four of the operations
name the accumulator, four do not. -/
def Arithmetic.statement (operand : Term) : Arithmetic → Statement
  | .add => ⟨.add, [.a, operand]⟩
  | .addCarry => ⟨.adc, [.a, operand]⟩
  | .subtract => ⟨.sub, [operand]⟩
  | .subtractCarry => ⟨.sbc, [.a, operand]⟩
  | .and => ⟨.and, [operand]⟩
  | .xor => ⟨.xor, [operand]⟩
  | .or => ⟨.or, [operand]⟩
  | .compare => ⟨.cp, [operand]⟩

/-- The mnemonic of a rotation. -/
def Rotation.mnemonic : Rotation → Mnemonic
  | .leftCircular => .rlc | .rightCircular => .rrc | .left => .rl | .right => .rr
  | .shiftLeft => .sla | .shiftRightArithmetic => .sra | .swapDigits => .swap | .shiftRight => .srl

/-- The mnemonic of an adjustment. -/
def Adjustment.mnemonic : Adjustment → Mnemonic
  | .leftCircular => .rlca | .rightCircular => .rrca | .left => .rla | .right => .rra
  | .decimal => .daa | .complement => .cpl | .setCarry => .scf | .flipCarry => .ccf

namespace Instruction

/-- The statement of a transfer of control to an address. -/
def transfer (mnemonic : Mnemonic) (condition : Option Condition) (target : UInt16) : Statement :=
  ⟨mnemonic, (condition.map (·.term)).toList ++ [.word target]⟩

/-- The statement of the instruction that stands at `start`. -/
def statement (start : UInt16) : Instruction → Statement
  | nop => { mnemonic := .nop }
  | stop => { mnemonic := .stop }
  | halt => { mnemonic := .halt }
  | disableInterrupts => { mnemonic := .di }
  | enableInterrupts => { mnemonic := .ei }
  | loadPair p n => ⟨.ld, [p.term, .word n]⟩
  | storeSp n => ⟨.ld, [.memory n, .sp]⟩
  | addPair p => ⟨.add, [.hl, p.term]⟩
  | incrementPair p => ⟨.inc, [p.term]⟩
  | decrementPair p => ⟨.dec, [p.term]⟩
  | storeThrough p => ⟨.ld, [p.term, .a]⟩
  | loadThrough p => ⟨.ld, [.a, p.term]⟩
  | increment o => ⟨.inc, [o.term]⟩
  | decrement o => ⟨.dec, [o.term]⟩
  | loadImmediate o n => ⟨.ld, [o.term, .byte n]⟩
  | load target source => ⟨.ld, [target.term, source.term]⟩
  | adjust operation => { mnemonic := operation.mnemonic }
  | arithmetic operation o => operation.statement o.term
  | arithmeticImmediate operation n => operation.statement (.byte n)
  | jumpRelative c offset => transfer .jr c (relativeTarget start offset)
  | jump c target => transfer .jp c target
  | jumpHL => ⟨.jp, [.hl]⟩
  | call c target => transfer .call c target
  | ret c => ⟨.ret, (c.map (·.term)).toList⟩
  | reti => { mnemonic := .reti }
  | restart slot => ⟨.rst, [.byte (8 * slot.val).toUInt8]⟩
  | push p => ⟨.push, [p.term]⟩
  | pop p => ⟨.pop, [p.term]⟩
  | storeHigh n => ⟨.ldh, [.memory (highAddress n), .a]⟩
  | loadHigh n => ⟨.ldh, [.a, .memory (highAddress n)]⟩
  | storeHighC => ⟨.ld, [.atHighC, .a]⟩
  | loadHighC => ⟨.ld, [.a, .atHighC]⟩
  | storeAt n => ⟨.ld, [.memory n, .a]⟩
  | loadAt n => ⟨.ld, [.a, .memory n]⟩
  | addSp e => ⟨.add, [.sp, .number (signedValue e)]⟩
  | loadHLFromSp e => ⟨.ld, [.hl, .spPlus (signedValue e)]⟩
  | loadSpFromHL => ⟨.ld, [.sp, .hl]⟩
  | rotate operation o => ⟨operation.mnemonic, [o.term]⟩
  | testBit n o => ⟨.bit, [.number n.val, o.term]⟩
  | resetBit n o => ⟨.res, [.number n.val, o.term]⟩
  | setBit n o => ⟨.set, [.number n.val, o.term]⟩
  | unassigned opcode => ⟨.db, [.byte opcode]⟩

end Instruction

/-! ## Texts -/

namespace Assembly.Statement

theorem text_nil (m : Mnemonic) : text ⟨m, []⟩ = m.text := rfl

theorem text_one (m : Mnemonic) (t : Term) : text ⟨m, [t]⟩ = m.text ++ " " ++ t.text := by
  simp [text]

theorem text_two (m : Mnemonic) (t u : Term) :
    text ⟨m, [t, u]⟩ = m.text ++ " " ++ (t.text ++ "," ++ u.text) := by
  simp [text, String.intercalate_cons_cons]

end Assembly.Statement

open Assembly.Statement (text_nil text_one text_two)

theorem Operand.text_term (o : Operand) : o.term.text = o.text := by
  cases o <;> rfl

theorem Pair.text_term (p : Pair) : p.term.text = p.text := by
  cases p <;> rfl

theorem StackPair.text_term (p : StackPair) : p.term.text = p.text := by
  cases p <;> rfl

theorem Pointer.text_term (p : Pointer) : p.term.text = p.text := by
  cases p <;> rfl

theorem Condition.text_term (c : Condition) : c.term.text = c.text := by
  cases c <;> rfl

theorem Arithmetic.text_statement (operation : Arithmetic) (t : Term) :
    (operation.statement t).text = operation.text ++ t.text := by
  apply String.toList_inj.1
  cases operation <;>
    simp [Arithmetic.statement, Arithmetic.text, text_one, text_two, Mnemonic.text, Term.text]

theorem Rotation.text_mnemonic (operation : Rotation) :
    operation.mnemonic.text = operation.text := by
  cases operation <;> rfl

theorem Adjustment.text_mnemonic (operation : Adjustment) :
    operation.mnemonic.text = operation.text := by
  cases operation <;> rfl

namespace Instruction

theorem text_transfer (m : Mnemonic) (c : Option Condition) (target : UInt16) :
    (transfer m c target).text = m.text ++ " " ++ (conditionText c ++ wordText target) := by
  cases c with
  | none => exact text_one m (.word target)
  | some c =>
    refine (text_two m c.term (.word target)).trans ?_
    rw [c.text_term]
    rfl

theorem signedText_eq (e : UInt8) : signedText e = toString (signedValue e) := by
  have he := e.toNat_lt
  unfold signedText signedValue
  split
  · rfl
  · have hvalue : (e.toNat : Int) - 256 = Int.negSucc (255 - e.toNat) := by omega
    have hsucc : 256 - e.toNat = (255 - e.toNat).succ := by omega
    rw [hvalue, hsucc]
    rfl

theorem signText_eq (e : UInt8) :
    "SP" ++ signText e = (Term.spPlus (signedValue e)).text := by
  have he := e.toNat_lt
  unfold signText
  rw [Term.text, signedText_eq]
  by_cases hsign : e < 0x80
  · have hvalue : ¬ signedValue e < 0 := by
      rw [signedValue, if_pos hsign]
      omega
    rw [if_pos hsign, if_neg hvalue, ← String.append_assoc]
    rfl
  · have hvalue : signedValue e < 0 := by
      rw [signedValue, if_neg hsign]
      omega
    rw [if_neg hsign, if_pos hvalue]

theorem hexWord_highAddress (n : UInt8) :
    Text.hexWord (highAddress n) = "FF" ++ Text.hexByte n := by
  have hn := n.toNat_lt
  have hvalue : (highAddress n).toNat = 0xFF00 + n.toNat := word_toNat 0xFF n
  apply String.toList_inj.1
  have hfirst : (0xFF00 + n.toNat) / 16 / 16 / 16 % 16 = 15 := by omega
  have hsecond : (0xFF00 + n.toNat) / 16 / 16 % 16 = 15 := by omega
  have hthird : (0xFF00 + n.toNat) / 16 % 16 = n.toNat / 16 % 16 := by omega
  have hfourth : (0xFF00 + n.toNat) % 16 = n.toNat % 16 := by omega
  simp only [Text.hexWord, Text.hexByte, hvalue, String.toList_append, String.toList_ofList,
    Text.hexDigits, hfirst, hsecond, hthird, hfourth]
  rfl

/-- The text of an instruction is the text of its statement. -/
theorem text_eq (start : UInt16) (i : Instruction) : i.text start = (i.statement start).text := by
  apply String.toList_inj.1
  cases i
  case ret c =>
    cases c <;> simp [text, statement, text_nil, text_one, Mnemonic.text, Condition.text_term]
  case loadHLFromSp e =>
    have htext : text start (loadHLFromSp e) = "LD HL," ++ ("SP" ++ signText e) := by
      rw [← String.append_assoc]
      rfl
    rw [htext, signText_eq]
    simp [statement, text_two, Mnemonic.text, Term.text]
  case testBit n o | resetBit n o | setBit n o =>
    have hnumber : (Term.number n.val).text = toString n.val := rfl
    simp [text, statement, text_two, Mnemonic.text, hnumber, Operand.text_term]
  all_goals
    -- first the terms of operands, which have no text of their own, and then the
    -- terms that are written out
    simp only [text, statement, text_nil, text_one, text_two, text_transfer, Operand.text_term,
      Pair.text_term, StackPair.text_term, Pointer.text_term, Arithmetic.text_statement,
      Rotation.text_mnemonic, Adjustment.text_mnemonic]
    try simp [Term.text, Mnemonic.text, byteText, wordText, signedText_eq, hexWord_highAddress]

end Instruction

/-! ## The disassembler that works by tables -/

namespace Disassembly

theorem ofExtended_eq (start : UInt16) (opcode : UInt8) :
    ofExtended opcode =
      ⟨(Instruction.ofExtended opcode).text start,
        (Instruction.ofExtended opcode).length.toUInt16⟩ := by
  induction opcode using forall_byte with
  | h n hn => interval_cases n <;> rfl

theorem ofOpcode_eq (start : UInt16) (opcode low high : UInt8) :
    ofOpcode start opcode low (word high low) =
      ⟨(Instruction.ofBytes opcode low high).text start,
        (Instruction.ofBytes opcode low high).length.toUInt16⟩ := by
  by_cases hextended : opcode = 0xCB
  · subst hextended
    exact ofExtended_eq start low
  · induction opcode using forall_byte with
    | h n hn => interval_cases n <;> first | exact absurd rfl hextended | rfl

/-- The disassembler that works by tables writes the text of the instruction and
answers its length. -/
theorem disassemble_eq (read : UInt16 → UInt8) (start : UInt16) :
    disassemble read start =
      ⟨(Instruction.decode read start).text start,
        (Instruction.decode read start).length.toUInt16⟩ :=
  ofOpcode_eq start _ _ _

/-- The text that it writes is a statement, the one of the instruction. -/
theorem ofText?_disassemble (read : UInt16 → UInt8) (start : UInt16) :
    Statement.ofText? (disassemble read start).text =
      some ((Instruction.decode read start).statement start) := by
  rw [disassemble_eq, Instruction.text_eq, Statement.ofText?_text]

end Disassembly
end Handheld
