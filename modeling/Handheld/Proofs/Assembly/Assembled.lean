import Handheld.Assembly.Assembler
import Handheld.Proofs.Assembly.Meaning

/-!
# A listed line identifies its bytes

At a known address the text of an instruction is assembled back into the bytes it
came from.  So no two memories show the same line unless they hold the same bytes
there.  Only the padding byte of STOP is not shown.

There are three groups.

* Encoding: `bytes_ofBytes` says that an instruction is encoded by the bytes it was
  decoded from.
* Assembling: `instruction?_statement` says that the statement of an instruction
  names that instruction, `assemble?_disassemble` that a line is assembled into the
  bytes that were listed.
* The result, `text_identifies_bytes`.
-/

namespace Handheld

open Assembly (Term Mnemonic Statement)

/-! ## Encoding -/

namespace Instruction

theorem immediate_word (high low : UInt8) : immediate (word high low) = [low, high] := by
  rw [immediate, lowByte_word, highByte_word]

theorem bytes_ofExtended (opcode : UInt8) :
    (ofExtended opcode).bytes = [0xCB, opcode] ∧ (ofExtended opcode).significantLength = 2 := by
  induction opcode using forall_byte with
  | h n hn => interval_cases n <;> exact ⟨rfl, rfl⟩

/-- An instruction is encoded by the bytes it was decoded from. -/
theorem bytes_ofBytes (opcode low high : UInt8) :
    (ofBytes opcode low high).bytes =
      [opcode, low, high].take (ofBytes opcode low high).significantLength := by
  by_cases hextended : opcode = 0xCB
  · subst hextended
    have hdecoded : ofBytes 0xCB low high = ofExtended low := rfl
    obtain ⟨hbytes, hlength⟩ := bytes_ofExtended low
    rw [hdecoded, hbytes, hlength]
    rfl
  · induction opcode using forall_byte with
    | h n hn =>
      interval_cases n <;> first
        | exact absurd rfl hextended
        | rfl
        | exact congrArg (_ :: ·) (immediate_word high low)

/-! ## Assembling -/

variable {start : UInt16}

theorem relativeTarget_sub (start : UInt16) (offset : UInt8) :
    lowByte (relativeTarget start offset - (start + 2)) = offset := by
  have hdistance : relativeTarget start offset - (start + 2) = signExtend offset := by
    rw [relativeTarget]
    grind
  rw [hdistance]
  induction offset using forall_byte with
  | h n hn =>
    have hall : ∀ n < 256, lowByte (signExtend (.ofNat n)) = .ofNat n := by decide +kernel
    exact hall n hn

theorem jumpRelative?_target (c : Option Condition) (offset : UInt8) :
    Statement.jumpRelative? start c (relativeTarget start offset) =
      some (jumpRelative c offset) := by
  rw [Statement.jumpRelative?, relativeTarget_sub]
  exact if_pos rfl

theorem signedByte?_signedValue (e : UInt8) : Term.signedByte? (signedValue e) = some e := by
  rw [Term.signedByte?, ofInt_signedValue]
  exact if_pos rfl

theorem highOffset?_highAddress (n : UInt8) :
    (Term.memory (highAddress n)).highOffset? = some n := by
  rw [Term.highOffset?, highAddress, highByte_word, lowByte_word]
  exact if_pos rfl

theorem slot?_restart (slot : Fin 8) :
    (Term.byte (8 * slot.val).toUInt8).slot? = some slot := by
  revert slot
  decide

/-- The statement of a transfer of control names its condition and its target. -/
theorem transfer?_statement (go : Option Condition → UInt16 → Option Instruction)
    (m : Mnemonic) (c : Option Condition) (target : UInt16) :
    Statement.transfer? go (transfer m c target).terms = go c target := by
  cases c with
  | none => rfl
  | some c => cases c <;> rfl

/-- The statement of an instruction names that instruction.  No opcode is that of a
load from memory to memory through HL. -/
theorem instruction?_statement {i : Instruction} (h : i ≠ load .atHL .atHL) :
    (i.statement start).instruction? start = some i := by
  cases i with
  | loadPair p | addPair p | incrementPair p | decrementPair p | storeThrough p | loadThrough p
  | push p | pop p => cases p <;> rfl
  | increment o | decrement o | loadImmediate o => cases o <;> rfl
  | load target source =>
    cases target <;> cases source <;> first | rfl | exact absurd rfl h
  | adjust operation | arithmeticImmediate operation => cases operation <;> rfl
  | arithmetic operation o | rotate operation o => cases operation <;> cases o <;> rfl
  | jumpRelative c offset =>
    exact (transfer?_statement (Statement.jumpRelative? start) .jr c _).trans
      (jumpRelative?_target c offset)
  | jump c target =>
    -- JP has one more form than the other transfers, so its terms are looked at
    cases c with
    | none => rfl
    | some c => cases c <;> rfl
  | call c target =>
    exact transfer?_statement (fun c target => some (call c target)) .call c target
  | ret c =>
    cases c with
    | none => rfl
    | some c => cases c <;> rfl
  | restart slot => exact congrArg (Option.map restart) (slot?_restart slot)
  | storeHigh n => exact congrArg (Option.map storeHigh) (highOffset?_highAddress n)
  | loadHigh n => exact congrArg (Option.map loadHigh) (highOffset?_highAddress n)
  | addSp e => exact congrArg (Option.map addSp) (signedByte?_signedValue e)
  | loadHLFromSp e => exact congrArg (Option.map loadHLFromSp) (signedByte?_signedValue e)
  | testBit n o | resetBit n o | setBit n o =>
    change Statement.onBit? _ (.number n.val) o.term = _
    rw [Statement.onBit?, Term.bit?_number]
    cases o <;> rfl
  | _ => rfl

/-! ## Lines -/

variable {read other : UInt16 → UInt8}

/-- The opcode of a load from memory to memory through HL is that of HALT. -/
theorem decode_ne_load : decode read start ≠ load .atHL .atHL := by
  intro hload
  have hbytes := bytes_ofBytes (read start) (read (start + 1)) (read (start + 2))
  change (decode read start).bytes = List.take (decode read start).significantLength _ at hbytes
  rw [hload] at hbytes
  have hopcode : read start = 0x76 := (List.cons.inj hbytes).1.symm
  rw [decode, hopcode] at hload
  cases hload

theorem length_le (i : Instruction) : i.length ≤ 3 := by
  cases i <;> exact Nat.le_of_ble_eq_true rfl

theorem significantLength_eq (i : Instruction) :
    i.significantLength = if i = stop then 1 else i.length := by
  cases i <;> rfl

theorem significantLength_le (i : Instruction) : i.significantLength ≤ 3 := by
  rw [significantLength_eq]
  split
  · decide
  · exact i.length_le

/-- An instruction in memory is encoded by the bytes that its line depends on. -/
theorem bytes_decode (read : UInt16 → UInt8) (start : UInt16) :
    (decode read start).bytes = ((decode read start).listedAddresses start).map read := by
  have hthree : [read start, read (start + 1), read (start + 2)] =
      (List.range 3).map fun k => read (start + k.toUInt16) := by
    simp [List.range_succ]
  have hbytes := bytes_ofBytes (read start) (read (start + 1)) (read (start + 2))
  rw [hthree, ← List.map_take, List.take_range,
    Nat.min_eq_left (significantLength_le _)] at hbytes
  rw [listedAddresses, List.map_map]
  exact hbytes

end Instruction

open Assembly (assemble?)

namespace Disassembly

variable {start : UInt16} {read other : UInt16 → UInt8}

/-- The text of a line names the instruction. -/
theorem instruction?_text (read : UInt16 → UInt8) (start : UInt16) :
    (Statement.ofText? (disassemble read start).text).bind (·.instruction? start) =
      some (Instruction.decode read start) := by
  rw [ofText?_disassemble]
  exact Instruction.instruction?_statement Instruction.decode_ne_load

/-- Lines with one text are of one instruction. -/
theorem decode_eq_of_text (h : (disassemble read start).text = (disassemble other start).text) :
    Instruction.decode read start = Instruction.decode other start := by
  have hnamed := instruction?_text read start
  rw [h, instruction?_text] at hnamed
  exact (Option.some.inj hnamed).symm

/-- A line is assembled into the bytes that it was listed from. -/
theorem assemble?_disassemble (read : UInt16 → UInt8) (start : UInt16) :
    assemble? start (disassemble read start).text =
      some (((Instruction.decode read start).listedAddresses start).map read) := by
  rw [assemble?, ofText?_disassemble]
  change ((Statement.instruction? start _).bind fun i => some i.bytes) = _
  rw [Instruction.instruction?_statement Instruction.decode_ne_load]
  exact congrArg some (Instruction.bytes_decode read start)

/-- The bytes of an instruction that its line shows: all of them but the padding byte
of STOP, numbered from the opcode on. -/
def Shows (d : Disassembly) (k : Nat) : Prop :=
  k < d.length.toNat ∧ ¬ (d.text = "STOP" ∧ k = 1)

theorem text_eq_stop_iff :
    (disassemble read start).text = "STOP" ↔ Instruction.decode read start = .stop := by
  constructor
  · intro htext
    have hnamed := instruction?_text read start
    rw [htext] at hnamed
    exact (Option.some.inj hnamed).symm
  · intro hstop
    rw [disassemble_eq, hstop]
    rfl

theorem length_toNat (read : UInt16 → UInt8) (start : UInt16) :
    (disassemble read start).length.toNat = (Instruction.decode read start).length := by
  have hle := (Instruction.decode read start).length_le
  rw [disassemble_eq]
  exact Nat.mod_eq_of_lt (Nat.lt_of_le_of_lt hle (by decide))

theorem shows_iff {k : Nat} :
    (disassemble read start).Shows k ↔ k < (Instruction.decode read start).significantLength := by
  rw [Shows, length_toNat, text_eq_stop_iff, Instruction.significantLength_eq]
  split
  case isTrue hstop =>
    rw [hstop]
    simp only [true_and]
    show k < 2 ∧ ¬ k = 1 ↔ k < 1
    omega
  case isFalse hother => exact and_iff_left fun h => hother h.1

theorem getElem?_listed {k : Nat} {byte : UInt8} :
    (((Instruction.decode read start).listedAddresses start).map read)[k]? = some byte ↔
      (disassemble read start).Shows k ∧ read (start + k.toUInt16) = byte := by
  rw [shows_iff, Instruction.listedAddresses, List.map_map, List.getElem?_eq_some_iff]
  simp only [List.length_map, List.length_range, List.getElem_map, List.getElem_range,
    Function.comp_apply, exists_prop]

/-! ## The result -/

/-- A line identifies the bytes it was listed from.  At one address, two memories that
give the same text give the same length and hold the same bytes there, but for the
padding byte of STOP; and the text is assembled back into just these bytes. -/
theorem text_identifies_bytes (start : UInt16) :
    (∀ read other : UInt16 → UInt8,
      (disassemble read start).text = (disassemble other start).text →
      (disassemble read start).length = (disassemble other start).length ∧
      ∀ k, (disassemble read start).Shows k →
        read (start + k.toUInt16) = other (start + k.toUInt16)) ∧
    (∀ read : UInt16 → UInt8, ∃ bytes,
      assemble? start (disassemble read start).text = some bytes ∧
      ∀ k byte, bytes[k]? = some byte ↔
        (disassemble read start).Shows k ∧ read (start + k.toUInt16) = byte) ∧
    (∀ read : UInt16 → UInt8,
      (disassemble read start).text = "STOP" ↔ read start = 0x10) := by
  refine ⟨?_, ?_, ?_⟩
  · intro read other htext
    have hdecoded := decode_eq_of_text htext
    refine ⟨by rw [disassemble_eq, disassemble_eq, hdecoded], ?_⟩
    intro k hshown
    have hbytes := assemble?_disassemble read start
    rw [htext, assemble?_disassemble] at hbytes
    have hread := getElem?_listed.2 ⟨hshown, rfl⟩
    rw [← Option.some.inj hbytes] at hread
    exact (getElem?_listed.1 hread).2.symm
  · intro read
    exact ⟨_, assemble?_disassemble read start, fun k byte => getElem?_listed⟩
  · intro read
    rw [text_eq_stop_iff]
    constructor
    · intro hstop
      have hbytes := Instruction.bytes_decode read start
      rw [hstop] at hbytes
      simpa using (List.cons.inj hbytes).1.symm
    · intro hopcode
      rw [Instruction.decode, hopcode]
      rfl

/-- A memory that holds a jump to itself at the last address, its displacement at the
first, and one byte everywhere else. -/
def jumpAtEnd (filler : UInt8) (address : UInt16) : UInt8 :=
  if address = 0xFFFF then 0x18 else if address = 0 then 0xFE else filler

/-- The displacement is known from the text although it lies at the other end of the
memory; the byte behind it is not. -/
theorem text_identifies_jump :
    (disassemble (jumpAtEnd 0x00) 0xFFFF).text = "JR $FFFF" ∧
      (disassemble (jumpAtEnd 0x42) 0xFFFF).text = "JR $FFFF" ∧
      (disassemble (jumpAtEnd 0x00) 0xFFFF).Shows 1 ∧
      jumpAtEnd 0x00 0 = jumpAtEnd 0x42 0 ∧ jumpAtEnd 0x00 1 ≠ jumpAtEnd 0x42 1 ∧
      ∃ bytes, assemble? 0xFFFF "JR $FFFF" = some bytes ∧ bytes[1]? = some 0xFE := by
  have hfirst : (disassemble (jumpAtEnd 0x00) 0xFFFF).text = "JR $FFFF" := by decide
  have hsecond : (disassemble (jumpAtEnd 0x42) 0xFFFF).text = "JR $FFFF" := by decide
  have hshown : (disassemble (jumpAtEnd 0x00) 0xFFFF).Shows 1 := by
    rw [Shows, hfirst]
    decide
  obtain ⟨hsame, hassembled, -⟩ := text_identifies_bytes 0xFFFF
  obtain ⟨bytes, hbytes, hlisted⟩ := hassembled (jumpAtEnd 0x00)
  rw [hfirst] at hbytes
  exact ⟨hfirst, hsecond, hshown,
    (hsame (jumpAtEnd 0x00) (jumpAtEnd 0x42) (hfirst.trans hsecond.symm)).2 1 hshown,
    by decide, bytes, hbytes, (hlisted 1 0xFE).2 ⟨hshown, rfl⟩⟩

end Disassembly
end Handheld
