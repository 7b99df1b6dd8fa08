import Handheld.Assembly.Term

/-!
# Statements of the assembler notation

A statement is a mnemonic and its terms: a space stands behind the mnemonic,
and commas stand between the terms.
-/

namespace Handheld.Assembly

/-- What a statement does.  The last one names a byte that is no instruction. -/
inductive Mnemonic where
  | nop | stop | halt | di | ei
  | ld | ldh | push | pop
  | add | adc | sub | sbc | and | xor | or | cp | inc | dec
  | rlca | rrca | rla | rra | daa | cpl | scf | ccf
  | rlc | rrc | rl | rr | sla | sra | swap | srl | bit | res | set
  | jr | jp | call | ret | reti | rst
  | db
  deriving DecidableEq, Repr

namespace Mnemonic

/-- The text of a mnemonic. -/
def text : Mnemonic → String
  | nop => "NOP" | stop => "STOP" | halt => "HALT" | di => "DI" | ei => "EI"
  | ld => "LD" | ldh => "LDH" | push => "PUSH" | pop => "POP"
  | add => "ADD" | adc => "ADC" | sub => "SUB" | sbc => "SBC"
  | and => "AND" | xor => "XOR" | or => "OR" | cp => "CP" | inc => "INC" | dec => "DEC"
  | rlca => "RLCA" | rrca => "RRCA" | rla => "RLA" | rra => "RRA"
  | daa => "DAA" | cpl => "CPL" | scf => "SCF" | ccf => "CCF"
  | rlc => "RLC" | rrc => "RRC" | rl => "RL" | rr => "RR"
  | sla => "SLA" | sra => "SRA" | swap => "SWAP" | srl => "SRL"
  | bit => "BIT" | res => "RES" | set => "SET"
  | jr => "JR" | jp => "JP" | call => "CALL" | ret => "RET" | reti => "RETI" | rst => "RST"
  | db => "DB"

/-- All mnemonics. -/
def all : List Mnemonic :=
  [nop, stop, halt, di, ei, ld, ldh, push, pop, add, adc, sub, sbc, and, xor, or, cp, inc, dec,
    rlca, rrca, rla, rra, daa, cpl, scf, ccf, rlc, rrc, rl, rr, sla, sra, swap, srl, bit, res, set,
    jr, jp, call, ret, reti, rst, db]

/-- The mnemonic with a text. -/
def ofChars? (text : List Char) : Option Mnemonic :=
  all.find? fun m => m.text.toList == text

end Mnemonic

/-- A statement. -/
structure Statement where
  mnemonic : Mnemonic
  terms : List Term := []
  deriving DecidableEq, Repr

namespace Statement

/-- The text of a statement. -/
def text (s : Statement) : String :=
  if s.terms = [] then s.mnemonic.text
  else s.mnemonic.text ++ " " ++ ",".intercalate (s.terms.map (·.text))

/-- The terms that a list of characters writes, without what parts it from the
mnemonic. -/
def terms? : List Char → Option (List Term)
  | [] => some []
  | _ :: list => (list.splitOn ',').mapM Term.ofChars?

/-- The statement that a text writes. -/
def ofText? (text : String) : Option Statement := do
  let mnemonic ← Mnemonic.ofChars? (text.toList.takeWhile (· != ' '))
  let terms ← terms? (text.toList.dropWhile (· != ' '))
  return { mnemonic, terms }

end Statement
end Handheld.Assembly
