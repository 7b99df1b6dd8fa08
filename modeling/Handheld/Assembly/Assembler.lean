import Handheld.Assembly.Meaning
import Handheld.Instruction.Listing

/-!
# Assembling

A statement at a known address is read back into an instruction, and an
instruction into bytes.  A relative jump names its target, and only the address
where it stands tells the displacement.

The names of one kind stand in the order of their numbers, so the number of a
name is the number of its constructor.
-/

namespace Handheld

namespace Instruction

/-! ## Encoding -/

/-- The opcode with the given fields. -/
def ofFields (x y z : Nat) : UInt8 :=
  .ofNat (64 * x + 8 * y + z)

/-- The bytes of a word behind an opcode, low byte first. -/
def immediate (value : UInt16) : List UInt8 :=
  [lowByte value, highByte value]

/-- The bytes of an instruction.  The padding byte of STOP says nothing and is
left out. -/
def bytes : Instruction → List UInt8
  | nop => [0x00]
  | storeSp n => 0x08 :: immediate n
  | stop => [0x10]
  | jumpRelative none e => [0x18, e]
  | jumpRelative (some c) e => [ofFields 0 (4 + c.ctorIdx) 0, e]
  | loadPair p n => ofFields 0 (2 * p.ctorIdx) 1 :: immediate n
  | addPair p => [ofFields 0 (2 * p.ctorIdx + 1) 1]
  | storeThrough p => [ofFields 0 (2 * p.ctorIdx) 2]
  | loadThrough p => [ofFields 0 (2 * p.ctorIdx + 1) 2]
  | incrementPair p => [ofFields 0 (2 * p.ctorIdx) 3]
  | decrementPair p => [ofFields 0 (2 * p.ctorIdx + 1) 3]
  | increment o => [ofFields 0 o.ctorIdx 4]
  | decrement o => [ofFields 0 o.ctorIdx 5]
  | loadImmediate o n => [ofFields 0 o.ctorIdx 6, n]
  | adjust operation => [ofFields 0 operation.ctorIdx 7]
  | halt => [0x76]
  | load target source => [ofFields 1 target.ctorIdx source.ctorIdx]
  | arithmetic operation o => [ofFields 2 operation.ctorIdx o.ctorIdx]
  | ret none => [0xC9]
  | ret (some c) => [ofFields 3 c.ctorIdx 0]
  | reti => [0xD9]
  | pop p => [ofFields 3 (2 * p.ctorIdx) 1]
  | push p => [ofFields 3 (2 * p.ctorIdx) 5]
  | jump none target => 0xC3 :: immediate target
  | jump (some c) target => ofFields 3 c.ctorIdx 2 :: immediate target
  | call none target => 0xCD :: immediate target
  | call (some c) target => ofFields 3 c.ctorIdx 4 :: immediate target
  | jumpHL => [0xE9]
  | loadSpFromHL => [0xF9]
  | disableInterrupts => [0xF3]
  | enableInterrupts => [0xFB]
  | storeHigh n => [0xE0, n]
  | loadHigh n => [0xF0, n]
  | storeHighC => [0xE2]
  | loadHighC => [0xF2]
  | storeAt n => 0xEA :: immediate n
  | loadAt n => 0xFA :: immediate n
  | addSp e => [0xE8, e]
  | loadHLFromSp e => [0xF8, e]
  | arithmeticImmediate operation n => [ofFields 3 operation.ctorIdx 6, n]
  | restart slot => [ofFields 3 slot.val 7]
  | rotate operation o => [0xCB, ofFields 0 operation.ctorIdx o.ctorIdx]
  | testBit n o => [0xCB, ofFields 1 n.val o.ctorIdx]
  | resetBit n o => [0xCB, ofFields 2 n.val o.ctorIdx]
  | setBit n o => [0xCB, ofFields 3 n.val o.ctorIdx]
  | unassigned opcode => [opcode]

end Instruction

namespace Assembly

/-! ## Terms -/

namespace Term

/-- The operand that a term names. -/
def operand? : Term → Option Operand
  | b => some .b
  | c => some .c
  | d => some .d
  | e => some .e
  | h => some .h
  | l => some .l
  | atHL => some .atHL
  | a => some .a
  | _ => none

/-- The pair that a term names. -/
def pair? : Term → Option Pair
  | bc => some .bc
  | de => some .de
  | hl => some .hl
  | sp => some .sp
  | _ => none

/-- The stack pair that a term names. -/
def stackPair? : Term → Option StackPair
  | bc => some .bc
  | de => some .de
  | hl => some .hl
  | af => some .af
  | _ => none

/-- The pointer that a term names. -/
def pointer? : Term → Option Pointer
  | atBC => some .bc
  | atDE => some .de
  | atHLUp => some .hlUp
  | atHLDown => some .hlDown
  | _ => none

/-- The condition that a term names. -/
def condition? : Term → Option Condition
  | nz => some .notZero
  | z => some .zero
  | nc => some .notCarry
  | c => some .carry
  | _ => none

/-- The offset of a place in the last page. -/
def highOffset? : Term → Option UInt8
  | memory address => if highByte address = 0xFF then some (lowByte address) else none
  | _ => none

/-- The byte that stands for a number, if there is one. -/
def signedByte? (n : Int) : Option UInt8 :=
  if signedValue (.ofInt n) = n then some (.ofInt n) else none

/-- The restart slot that begins at an address. -/
def slot? : Term → Option (Fin 8)
  | byte address => (List.finRange 8).find? fun slot => restartAddress slot = address.toUInt16
  | _ => none

end Term

/-! ## Mnemonics -/

namespace Mnemonic

/-- The rotation that a mnemonic names. -/
def rotation? : Mnemonic → Option Rotation
  | rlc => some .leftCircular
  | rrc => some .rightCircular
  | rl => some .left
  | rr => some .right
  | sla => some .shiftLeft
  | sra => some .shiftRightArithmetic
  | swap => some .swapDigits
  | srl => some .shiftRight
  | _ => none

/-- The adjustment that a mnemonic names. -/
def adjustment? : Mnemonic → Option Adjustment
  | rlca => some .leftCircular
  | rrca => some .rightCircular
  | rla => some .left
  | rra => some .right
  | daa => some .decimal
  | cpl => some .complement
  | scf => some .setCarry
  | ccf => some .flipCarry
  | _ => none

end Mnemonic

/-! ## Statements -/

namespace Statement

/-- The load from the source to the target.  There is none from memory to memory
through HL. -/
def load? : (target source : Term) → Option Instruction
  | .memory address, .sp => some (.storeSp address)
  | .memory address, .a => some (.storeAt address)
  | .a, .memory address => some (.loadAt address)
  | .atHighC, .a => some .storeHighC
  | .a, .atHighC => some .loadHighC
  | .sp, .hl => some .loadSpFromHL
  | .hl, .spPlus n => (Term.signedByte? n).map .loadHLFromSp
  | target, .word value => target.pair?.map (.loadPair · value)
  | target, .byte value => target.operand?.map (.loadImmediate · value)
  | .atHL, .atHL => none
  | target, source =>
    (if source = .a then target.pointer?.map .storeThrough else none) <|>
    (if target = .a then source.pointer?.map .loadThrough else none) <|> do
      return .load (← target.operand?) (← source.operand?)

/-- An operation on the accumulator and the term that it names besides. -/
def arithmetic? (s : Statement) : Option (Arithmetic × Term) :=
  match s.mnemonic, s.terms with
  | .add, [.a, t] => some (.add, t)
  | .adc, [.a, t] => some (.addCarry, t)
  | .sub, [t] => some (.subtract, t)
  | .sbc, [.a, t] => some (.subtractCarry, t)
  | .and, [t] => some (.and, t)
  | .xor, [t] => some (.xor, t)
  | .or, [t] => some (.or, t)
  | .cp, [t] => some (.compare, t)
  | _, _ => none

/-- An operation on the accumulator, with an operand or with a byte. -/
def compute? (s : Statement) : Option Instruction := do
  match ← s.arithmetic? with
  | (operation, .byte value) => return .arithmeticImmediate operation value
  | (operation, t) => return .arithmetic operation (← t.operand?)

/-- A transfer of control to an address, with a condition before it or not. -/
def transfer? (go : Option Condition → UInt16 → Option Instruction) :
    List Term → Option Instruction
  | [.word target] => go none target
  | [condition, .word target] => do go (some (← condition.condition?)) target
  | _ => none

/-- A relative jump that stands at `start`, if its target is within reach. -/
def jumpRelative? (start : UInt16) (c : Option Condition) (target : UInt16) : Option Instruction :=
  let offset := lowByte (target - (start + 2))
  if Instruction.relativeTarget start offset = target then some (.jumpRelative c offset) else none

/-- An instruction on one bit. -/
def onBit? (make : Fin 8 → Operand → Instruction) (n t : Term) : Option Instruction := do
  return make (← n.bit?) (← t.operand?)

/-- The instruction that a statement at `start` names. -/
def instruction? (start : UInt16) (s : Statement) : Option Instruction :=
  match s.mnemonic, s.terms with
  | .nop, [] => some .nop
  | .stop, [] => some .stop
  | .halt, [] => some .halt
  | .di, [] => some .disableInterrupts
  | .ei, [] => some .enableInterrupts
  | .reti, [] => some .reti
  | .ld, [target, source] => load? target source
  | .ldh, [t, .a] => t.highOffset?.map .storeHigh
  | .ldh, [.a, t] => t.highOffset?.map .loadHigh
  | .push, [t] => t.stackPair?.map .push
  | .pop, [t] => t.stackPair?.map .pop
  | .add, [.hl, t] => t.pair?.map .addPair
  | .add, [.sp, .number n] => (Term.signedByte? n).map .addSp
  | .inc, [t] => t.operand?.map .increment <|> t.pair?.map .incrementPair
  | .dec, [t] => t.operand?.map .decrement <|> t.pair?.map .decrementPair
  | .bit, [n, t] => onBit? .testBit n t
  | .res, [n, t] => onBit? .resetBit n t
  | .set, [n, t] => onBit? .setBit n t
  | .jr, terms => transfer? (jumpRelative? start) terms
  | .jp, [.hl] => some .jumpHL
  | .jp, terms => transfer? (fun c target => some (.jump c target)) terms
  | .call, terms => transfer? (fun c target => some (.call c target)) terms
  | .ret, [] => some (.ret none)
  | .ret, [t] => t.condition?.map fun c => .ret (some c)
  | .rst, [t] => t.slot?.map .restart
  | .db, [.byte opcode] => some (.unassigned opcode)
  | m, [] => m.adjustment?.map .adjust
  | m, [t] => (do return .rotate (← m.rotation?) (← t.operand?)) <|> s.compute?
  | _, _ => s.compute?

end Statement

/-- Assembles a text that stands at `start`: the bytes that it names. -/
def assemble? (start : UInt16) (text : String) : Option (List UInt8) := do
  let s ← Statement.ofText? text
  let i ← s.instruction? start
  return i.bytes

end Assembly
end Handheld
