import Handheld.Proofs.Bus.Stores

/-!
# The stack

Words are put below the stack pointer and taken from there.  As long as the bytes below
the place where the stack began are plain memory, the word taken is the one that was put
there last.

There are three groups.

* The bytes below an address.  `HasRoom` says that some number of them lie in the work
  memory or in the high memory.  There they are cells of which no two are the same,
  `HasRoom.place_ne`.
* The words of a stack.  `Bus.Holds` says which words lie below the base of a stack.
  `Holds.push` puts a word on top of them, and `Holds.top` reads the word on top.
* Words put on the stack and taken from it, `lastInFirstOut`.
-/

namespace Handheld

/-! ## The bytes below an address -/

/-- The bytes below an address, counted downwards. -/
def byteBelow (base : UInt16) (i : Nat) : UInt16 :=
  base - (i + 1).toUInt16

/-- Below the address, this many bytes lie all in the work memory or all in the high
memory. -/
def HasRoom (base : UInt16) (bytes : Nat) : Prop :=
  (∀ i < bytes, 0xC000 ≤ (byteBelow base i).toNat ∧ (byteBelow base i).toNat ≤ 0xDFFF) ∨
  ∀ i < bytes, 0xFF80 ≤ (byteBelow base i).toNat ∧ (byteBelow base i).toNat ≤ 0xFFFE

theorem toNat_byteBelow {base : UInt16} {i : Nat} (h : i + 1 ≤ base.toNat) :
    (byteBelow base i).toNat = base.toNat - (i + 1) := by
  have hbase := base.toNat_lt
  have hoffset : (i + 1).toUInt16.toNat = i + 1 := Nat.mod_eq_of_lt (by omega)
  rw [byteBelow, UInt16.toNat_sub_of_le _ _ (UInt16.le_iff_toNat_le.2 (by omega)), hoffset]

/-- Below a stack pointer, the distances add up. -/
theorem sub_sub_toUInt16 (base : UInt16) (i j : Nat) :
    base - i.toUInt16 - j.toUInt16 = base - (i + j).toUInt16 := by
  have hsum : (i + j).toUInt16 = i.toUInt16 + j.toUInt16 := UInt16.ofNat_add i j
  rw [hsum, UInt16.sub_eq_add_neg, UInt16.sub_eq_add_neg, UInt16.sub_eq_add_neg, UInt16.neg_add,
    UInt16.add_assoc, UInt16.sub_eq_add_neg]

namespace HasRoom

variable {base : UInt16} {bytes i j : Nat}

theorem mono (h : HasRoom base bytes) {fewer : Nat} (hle : fewer ≤ bytes) :
    HasRoom base fewer := by
  rcases h with h | h
  · exact .inl fun i hi => h i (by omega)
  · exact .inr fun i hi => h i (by omega)

/-- The bytes lie in a memory. -/
theorem memory (h : HasRoom base bytes) (hi : i < bytes) :
    0xC000 ≤ (byteBelow base i).toNat ∧ (byteBelow base i).toNat ≤ 0xDFFF ∨
      0xFF80 ≤ (byteBelow base i).toNat ∧ (byteBelow base i).toNat ≤ 0xFFFE :=
  Or.imp (· i hi) (· i hi) h

/-- The bytes do not wrap around. -/
theorem succ_le (h : HasRoom base bytes) (hi : i < bytes) : i + 1 ≤ base.toNat := by
  by_cases hzero : base = 0
  · -- below the start of the address space there is its end
    subst hzero
    have hlast : (byteBelow 0 0).toNat = 0xFFFF := rfl
    have hmemory := h.memory (show 0 < bytes by omega)
    omega
  · have hbase : 0 < base.toNat := Nat.pos_of_ne_zero fun hnat => hzero (UInt16.toNat_inj.1 hnat)
    by_contra hbelow
    have hstart : (byteBelow base (base.toNat - 1)).toNat = 0 := by
      rw [toNat_byteBelow (by omega)]
      omega
    have hmemory := h.memory (show base.toNat - 1 < bytes by omega)
    omega

theorem toNat_byteBelow (h : HasRoom base bytes) (hi : i < bytes) :
    (byteBelow base i).toNat + (i + 1) = base.toNat := by
  have hle := h.succ_le hi
  rw [Handheld.toNat_byteBelow hle]
  omega

theorem isCell (h : HasRoom base bytes) (hi : i < bytes) :
    (Place.ofAddress (byteBelow base i)).IsCell := by
  refine Place.isCell_of_holdsByte ?_
  have hmemory := h.memory hi
  unfold HoldsByte
  omega

/-- No two of the bytes are one. -/
theorem place_ne (h : HasRoom base bytes) (hi : i < bytes) (hj : j < bytes) (hne : i ≠ j) :
    Place.ofAddress (byteBelow base j) ≠ Place.ofAddress (byteBelow base i) := by
  intro hsame
  have hbyte := h.toNat_byteBelow hi
  have hother := h.toNat_byteBelow hj
  rcases Place.eq_or_mirrored (h.isCell hi) hsame with heq | ⟨k, hk, hmirror⟩
  · omega
  · -- the second half of the work memory has no room
    rcases h with h | h
    · have hwork := h i hi
      have hworkOther := h j hj
      omega
    · have hhigh := h i hi
      omega

end HasRoom

/-! ## The words of a stack -/

theorem Bus.readWord_byteBelow (b : Bus) (base : UInt16) (k : Nat) :
    b.readWord (base - (2 * (k + 1)).toUInt16) =
      word (b.read (byteBelow base (2 * k))) (b.read (byteBelow base (2 * k + 1))) := by
  have hhigh : base - (2 * (k + 1)).toUInt16 + 1 = byteBelow base (2 * k) := by
    have hone : base - (2 * (k + 1)).toUInt16 = byteBelow base (2 * k) - (1 : Nat).toUInt16 := by
      rw [byteBelow, sub_sub_toUInt16, Nat.mul_succ]
    rw [hone]
    exact UInt16.sub_add_cancel _ _
  rw [readWord, hhigh]
  rfl

/-- The words of a stack lie below its base, the first of them on top. -/
def Bus.Holds (b : Bus) (base : UInt16) : List UInt16 → Prop
  | [] => True
  | w :: rest => b.readWord (base - (2 * (rest.length + 1)).toUInt16) = w ∧ b.Holds base rest

namespace Bus.Holds

variable {b : Bus} {base : UInt16} {words rest : List UInt16} {w : UInt16}

/-- The words are read off the bytes below the base. -/
theorem of_read_eq (h : b.Holds base words) {b' : Bus}
    (hsame : ∀ i < 2 * words.length, b'.read (byteBelow base i) = b.read (byteBelow base i)) :
    b'.Holds base words := by
  induction words with
  | nil => trivial
  | cons w rest ih =>
    rw [List.length_cons] at hsame
    refine ⟨?_, ih h.2 fun i hi => hsame i (by omega)⟩
    rw [readWord_byteBelow, hsame _ (by omega), hsame _ (by omega), ← readWord_byteBelow]
    exact h.1

/-- The word with a number of words on top of it. -/
theorem readWord (h : b.Holds base words) {k : Nat} (hk : words.reverse[k]? = some w) :
    b.readWord (base - (2 * (k + 1)).toUInt16) = w := by
  induction words with
  | nil => cases hk
  | cons first rest ih =>
    rw [List.reverse_cons, List.getElem?_append, List.length_reverse] at hk
    by_cases hlt : k < rest.length
    · rw [if_pos hlt] at hk
      exact ih h.2 hk
    · rw [if_neg hlt] at hk
      obtain ⟨hzero, hw⟩ := List.getElem?_eq_some_iff.1 hk
      have hlength : k = rest.length := by
        simp only [List.length_singleton] at hzero
        omega
      subst hlength
      rw [h.1]
      simpa using hk

end Bus.Holds

/-- The stack pointer when a number of words lie below the base. -/
theorem sp_push {r : Registers} {base : UInt16} {n : Nat} (hsp : r.sp = base - (2 * n).toUInt16)
    (w : UInt16) : (r.push w).1.sp = base - (2 * (n + 1)).toUInt16 := by
  show r.sp - (2 : Nat).toUInt16 = _
  rw [hsp, sub_sub_toUInt16, Nat.mul_succ]

theorem sp_drop {r : Registers} {base : UInt16} {n : Nat}
    (hsp : r.sp = base - (2 * (n + 1)).toUInt16) : r.drop.sp = base - (2 * n).toUInt16 := by
  have htwo : base - (2 * (n + 1)).toUInt16 = base - (2 * n).toUInt16 - (2 : Nat).toUInt16 := by
    rw [sub_sub_toUInt16, Nat.mul_succ]
  show r.sp + 2 = _
  rw [hsp, htwo]
  exact UInt16.sub_add_cancel _ _

section Push

variable {r : Registers} {b : Bus} {base : UInt16} {words : List UInt16} (w : UInt16)

/-- The two bytes of a word on the stack are seen where they lie, and nothing else
changes. -/
theorem read_push {n : Nat} (hroom : HasRoom base (2 * (n + 1)))
    (hsp : r.sp = base - (2 * n).toUInt16) (other : UInt16) :
    (b.writeAll (r.push w).2).read other =
      if Place.ofAddress other = Place.ofAddress (byteBelow base (2 * n + 1)) then lowByte w
      else if Place.ofAddress other = Place.ofAddress (byteBelow base (2 * n)) then highByte w
      else b.read other := by
  have hhigh : r.sp - 1 = byteBelow base (2 * n) := by
    show r.sp - (1 : Nat).toUInt16 = _
    rw [hsp, sub_sub_toUInt16]
    rfl
  have hlow : r.sp - 2 = byteBelow base (2 * n + 1) := by
    show r.sp - (2 : Nat).toUInt16 = _
    rw [hsp, sub_sub_toUInt16]
    rfl
  show ((b.write (r.sp - 1) (highByte w)).write (r.sp - 2) (lowByte w)).read other = _
  rw [hhigh, hlow, Bus.read_write_of_isCell _ _ (hroom.isCell (by omega)),
    Bus.read_write_of_isCell _ _ (hroom.isCell (by omega))]

/-- A word is put on top of the words that lie there. -/
theorem Bus.Holds.push (h : b.Holds base words) (hroom : HasRoom base (2 * (words.length + 1)))
    (hsp : r.sp = base - (2 * words.length).toUInt16) :
    (b.writeAll (r.push w).2).Holds base (w :: words) := by
  constructor
  · have hne := hroom.place_ne (i := 2 * words.length + 1) (j := 2 * words.length) (by omega)
      (by omega) (by omega)
    rw [readWord_byteBelow, read_push w hroom hsp, read_push w hroom hsp, if_neg hne, if_pos rfl,
      if_pos rfl, word_highByte_lowByte]
  · refine h.of_read_eq fun i hi => ?_
    rw [read_push w hroom hsp, if_neg (hroom.place_ne (by omega) (by omega) (by omega)),
      if_neg (hroom.place_ne (by omega) (by omega) (by omega))]

/-- The word on top is the first one. -/
theorem Bus.Holds.top {w : UInt16} (h : b.Holds base (w :: words))
    (hsp : r.sp = base - (2 * (words.length + 1)).toUInt16) : r.top b.read = w := by
  show b.readWord r.sp = w
  rw [hsp, h.1]

end Push

/-! ## Words put on the stack and taken from it -/

namespace Machine

/-- Puts a word on the stack. -/
def push (m : Machine) (w : UInt16) : Machine :=
  { m with cpu.regs := (m.cpu.regs.push w).1, bus := m.bus.writeAll (m.cpu.regs.push w).2 }

/-- Puts words on the stack, one after another. -/
def pushAll (m : Machine) (words : List UInt16) : Machine :=
  words.foldl push m

/-- Takes the word on top from the stack. -/
def pop (m : Machine) : UInt16 × Machine :=
  (m.cpu.regs.top m.bus.read, { m with cpu.regs := m.cpu.regs.drop })

/-- Takes a number of words from the stack. -/
def popAll : Nat → Machine → List UInt16 × Machine
  | 0, m => ([], m)
  | n + 1, m =>
    let (w, m) := m.pop
    let (words, m) := m.popAll n
    (w :: words, m)

/-- The stack of a machine began at the base, and these are its words. -/
structure Stacked (base : UInt16) (words : List UInt16) (m : Machine) : Prop where
  sp : m.cpu.regs.sp = base - (2 * words.length).toUInt16
  words : m.bus.Holds base words

variable {m : Machine} {base : UInt16} {words below : List UInt16}

theorem stacked_nil (m : Machine) : Stacked m.cpu.regs.sp [] m :=
  ⟨(UInt16.sub_zero _).symm, trivial⟩

/-- Whatever puts a word on the stack, then it lies on top. -/
theorem Stacked.of_push (h : Stacked base words m) (hroom : HasRoom base (2 * (words.length + 1)))
    {w : UInt16} {m' : Machine} (hsp : m'.cpu.regs.sp = m.cpu.regs.sp - 2)
    (hbus : m'.bus = m.bus.writeAll (m.cpu.regs.push w).2) : Stacked base (w :: words) m' := by
  refine ⟨hsp.trans (sp_push h.sp w), ?_⟩
  rw [hbus]
  exact h.words.push w hroom h.sp

theorem Stacked.push (h : Stacked base words m) (hroom : HasRoom base (2 * (words.length + 1)))
    (w : UInt16) : Stacked base (w :: words) (m.push w) :=
  h.of_push hroom rfl rfl

theorem Stacked.pushAll (h : Stacked base below m)
    (hroom : HasRoom base (2 * (below.length + words.length))) :
    Stacked base (words.reverse ++ below) (m.pushAll words) := by
  induction words generalizing m below with
  | nil => exact h
  | cons w words ih =>
    rw [List.length_cons] at hroom
    have hfirst := h.push (hroom.mono (by omega)) w
    have hrest := ih hfirst (hroom.mono (by rw [List.length_cons]; omega))
    rwa [List.reverse_cons, List.append_assoc, List.singleton_append]

/-- Nothing is seen of the words elsewhere. -/
theorem read_pushAll (h : Stacked base below m)
    (hroom : HasRoom base (2 * (below.length + words.length))) {other : UInt16}
    (hother : ∀ i < 2 * (below.length + words.length),
      Place.ofAddress other ≠ Place.ofAddress (byteBelow base i)) :
    (m.pushAll words).bus.read other = m.bus.read other := by
  induction words generalizing m below with
  | nil => rfl
  | cons w words ih =>
    rw [List.length_cons] at hroom hother
    have hfirst := h.push (hroom.mono (by omega)) w
    have hlength : (w :: below).length + words.length = below.length + (words.length + 1) := by
      rw [List.length_cons]
      omega
    have hrest := ih hfirst (by rwa [hlength]) (by rwa [hlength])
    refine hrest.trans ?_
    show (m.bus.writeAll (m.cpu.regs.push w).2).read other = _
    rw [read_push w (hroom.mono (by omega)) h.sp, if_neg (hother _ (by omega)),
      if_neg (hother _ (by omega))]

/-- The words change the stack pointer and the bus. -/
theorem exists_pushAll_eq (m : Machine) (words : List UInt16) :
    ∃ sp bus, m.pushAll words = { m with cpu.regs.sp := sp, bus } := by
  induction words generalizing m with
  | nil => exact ⟨_, _, rfl⟩
  | cons w words ih =>
    obtain ⟨sp, bus, heq⟩ := ih (m.push w)
    exact ⟨sp, bus, heq⟩

/-- The words on top are taken from the top downwards, and the bus stays. -/
theorem Stacked.popAll (h : Stacked base (words ++ below) m) :
    m.popAll words.length =
      (words, { m with cpu.regs.sp := base - (2 * below.length).toUInt16 }) := by
  induction words generalizing m with
  | nil =>
    have hsp : m.cpu.regs.sp = base - (2 * below.length).toUInt16 := h.sp
    rw [← hsp]
    rfl
  | cons w words ih =>
    have htop : m.cpu.regs.top m.bus.read = w := h.words.top h.sp
    have hrest : Stacked base (words ++ below) m.pop.2 := ⟨sp_drop h.sp, h.words.2⟩
    rw [List.length_cons, Machine.popAll]
    show (m.pop.1 :: (m.pop.2.popAll words.length).1, (m.pop.2.popAll words.length).2) = _
    rw [ih hrest]
    exact congrArg (fun first => (first :: words, _)) htop

/-- What is put on the stack is taken from it in the opposite order. -/
structure LastInFirstOut (m : Machine) (words : List UInt16) : Prop where
  sp : (m.pushAll words).cpu.regs.sp = m.cpu.regs.sp - (2 * words.length).toUInt16
  /-- The words lie one below another. -/
  order : ∀ k w, words[k]? = some w →
    (m.pushAll words).bus.readWord (m.cpu.regs.sp - (2 * (k + 1)).toUInt16) = w
  /-- Elsewhere nothing changes, except where the work memory shows again. -/
  others : ∀ address, (∀ i < 2 * words.length, address ≠ byteBelow m.cpu.regs.sp i ∧
      ¬ Mirrored (byteBelow m.cpu.regs.sp i).toNat address.toNat) →
    (m.pushAll words).bus.read address = m.bus.read address
  /-- The last word is taken first.  The CPU is then as it was, and the bus stays. -/
  taken : (m.pushAll words).popAll words.length =
    (words.reverse, { m with bus := (m.pushAll words).bus })

theorem lastInFirstOut (hroom : HasRoom m.cpu.regs.sp (2 * words.length)) :
    LastInFirstOut m words := by
  have hroom' : HasRoom m.cpu.regs.sp (2 * (([] : List UInt16).length + words.length)) := by
    rwa [List.length_nil, Nat.zero_add]
  have hstacked := m.stacked_nil.pushAll hroom'
  rw [List.append_nil] at hstacked
  constructor
  · rw [hstacked.sp, List.length_reverse]
  · intro k w hk
    refine hstacked.words.readWord ?_
    rwa [List.reverse_reverse]
  · intro address haddress
    refine read_pushAll m.stacked_nil hroom' fun i hi hsame => ?_
    rw [List.length_nil, Nat.zero_add] at hi
    obtain ⟨hne, hmirror⟩ := haddress i hi
    rcases Place.eq_or_mirrored (hroom.isCell hi) hsame with heq | hmirrored
    · exact hne (UInt16.toNat_inj.1 heq)
    · exact hmirror hmirrored
  · rw [← List.append_nil words.reverse] at hstacked
    have hpopped := hstacked.popAll
    rw [List.length_reverse] at hpopped
    have hsp : m.cpu.regs.sp - (2 * ([] : List UInt16).length).toUInt16 = m.cpu.regs.sp :=
      UInt16.sub_zero _
    obtain ⟨sp, bus, heq⟩ := m.exists_pushAll_eq words
    rw [hpopped, hsp, heq]

end Machine
end Handheld
