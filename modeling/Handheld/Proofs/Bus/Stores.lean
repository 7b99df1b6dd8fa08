import Handheld.Proofs.Bus.Slot
import Handheld.Proofs.Cartridge.RamStore
import Handheld.Proofs.Machine.Writes
import Handheld.Proofs.Screen.Buckets

/-!
# Every address leads to one store

A write to the bus is seen where it was made and, at most, at a few other
addresses: the work memory shows twice, the registers of a controller choose what
the windows of the cartridge show, and some registers of the screen change others.
Everything else reads as it did before.

There are four groups.

* The address space in numbers.  `HoldsByte` are the addresses that keep the byte
  written to them, and `Reaches` says where a write to an address can be seen.  The
  lemmas behind them tie the numbers to the places.
* The screen and the cartridge: what a write to one of them leaves alone.
* The bus, with one lemma for each kind of place.  A memory reads as written and is
  otherwise unchanged, `read_write_of_isCell`; a port changes only itself.
* The result, `read_write_stores`.
-/

namespace Handheld

/-! ## The address space in numbers -/

/-- The addresses that keep the byte written to them: video memory, work memory
and its second half, sprite memory, the registers that no component claims, high
memory, and the enabled interrupts. -/
def HoldsByte (n : Nat) : Prop :=
  0x8000 ≤ n ∧ n < 0xA000 ∨
  0xC000 ≤ n ∧ n < 0xFEA0 ∨
  (0xFF01 ≤ n ∧ n < 0xFF80 ∧ ¬ (0xFF04 ≤ n ∧ n ≤ 0xFF07) ∧ n ≠ 0xFF0F ∧
    ¬ (0xFF40 ≤ n ∧ n ≤ 0xFF4B) ∧ n ≠ 0xFF50) ∨
  0xFF80 ≤ n

instance : DecidablePred HoldsByte :=
  fun _ => inferInstanceAs (Decidable (_ ∨ _))

/-- Two addresses that show the same byte of the work memory. -/
def Mirrored (n m : Nat) : Prop :=
  ∃ i < 0x1E00, n = 0xC000 + i ∧ m = 0xE000 + i ∨ n = 0xE000 + i ∧ m = 0xC000 + i

/-- The addresses of the cartridge's two windows. -/
def InCartridge (n : Nat) : Prop :=
  n < 0x8000 ∨ 0xA000 ≤ n ∧ n < 0xC000

/-- Where a write to `n` can be seen: at `m`, if at all. -/
def Reaches (n m : Nat) : Prop :=
  if n < 0x8000 then 0x4000 ≤ m ∧ m < 0x8000 ∨ 0xA000 ≤ m ∧ m < 0xC000
  else if HoldsByte n then m = n ∨ Mirrored n m
  else if 0xFEA0 ≤ n ∧ n < 0xFF00 ∨ n = 0xFF44 then False
  else if n = 0xFF50 then m < 0x8000
  else if n = 0xFF46 then m = n ∨ 0xFE00 ≤ m ∧ m < 0xFEA0
  else if n = 0xFF45 then m = n ∨ m = 0xFF41 ∨ m = 0xFF0F
  else if n = 0xFF40 then m = n ∨ m = 0xFF41 ∨ m = 0xFF44 ∨ m = 0xFF0F
  else m = n

/-- A register of the timer has one address. -/
theorem TimerRegister.ofAddress?_inj {address other : UInt16} {r : TimerRegister}
    (h : ofAddress? address = some r) (hother : ofAddress? other = some r) : address = other := by
  unfold ofAddress? at h hother
  cases r <;> split_ifs at h hother <;> simp_all

namespace Place

/-- The places that keep the byte written to them. -/
def IsCell : Place → Prop
  | vram _ | work _ | oam _ | scratch _ | high _ | enables => True
  | _ => False

theorem isCell_of_holdsByte {address : UInt16} (h : HoldsByte address.toNat) :
    (ofAddress address).IsCell := by
  have hanswers := answers_ofAddress address
  unfold HoldsByte at h
  cases hplace : ofAddress address with
  | vram _ | work _ | oam _ | scratch _ | high _ | enables => trivial
  | _ =>
    simp only [hplace, Answers] at hanswers
    omega

theorem holdsByte_of_isCell {address : UInt16} (h : (ofAddress address).IsCell) :
    HoldsByte address.toNat := by
  have hanswers := answers_ofAddress address
  have haddress := address.toNat_lt
  unfold HoldsByte
  generalize ofAddress address = place at h hanswers
  cases place with
  | vram offset | work offset | oam offset | scratch offset | high offset =>
    have hlt := offset.isLt
    simp only [Answers] at hanswers
    omega
  | enables =>
    simp only [Answers] at hanswers
    omega
  | _ => exact h.elim

/-- A byte of the work memory shows at two addresses, every other cell at one. -/
theorem eq_or_mirrored {address other : UInt16} (h : (ofAddress address).IsCell)
    (hsame : ofAddress other = ofAddress address) :
    other.toNat = address.toNat ∨ Mirrored address.toNat other.toNat := by
  have hanswers := answers_ofAddress address
  have hother := answers_ofAddress other
  rw [hsame] at hother
  generalize ofAddress address = place at h hanswers hother
  cases place with
  | work offset =>
    simp only [Answers] at hanswers hother
    by_cases hne : other.toNat = address.toNat
    · exact .inl hne
    · exact .inr ⟨offset.val, by omega, by omega⟩
  | vram offset | oam offset | scratch offset | high offset | enables =>
    simp only [Answers] at hanswers hother
    omega
  | _ => exact h.elim

/-- The two addresses of a byte of the work memory have one place. -/
theorem ofAddress_of_mirrored {address other : UInt16}
    (h : Mirrored address.toNat other.toNat) : ofAddress other = ofAddress address := by
  obtain ⟨i, hi, ⟨haddress, hother⟩ | ⟨haddress, hother⟩⟩ := h
  all_goals
    unfold ofAddress
    simp (disch := omega) only [haddress, hother, if_neg, dif_neg, dif_pos]
    simp

theorem ofAddress_of_inCartridge {address : UInt16} (h : InCartridge address.toNat) :
    ofAddress address = .cartridge := by
  have hanswers := answers_ofAddress address
  unfold InCartridge at h
  generalize ofAddress address = place at hanswers ⊢
  cases place with
  | cartridge => rfl
  | vram offset =>
    have hlt := offset.isLt
    simp only [Answers] at hanswers
    omega
  | _ =>
    simp only [Answers] at hanswers
    omega

/-- The registers beside those of the screen that a write changes. -/
def IsPort : Place → Prop
  | joypad | timer _ | requests => True
  | _ => False

/-- A port has one address. -/
theorem eq_of_isPort {address other : UInt16} (h : (ofAddress address).IsPort)
    (hsame : ofAddress other = ofAddress address) : other = address := by
  have hanswers := answers_ofAddress address
  have hother := answers_ofAddress other
  rw [hsame] at hother
  generalize ofAddress address = place at h hanswers hother
  cases place with
  | joypad | requests =>
    simp only [Answers] at hanswers hother
    exact UInt16.toNat_inj.1 (hother.trans hanswers.symm)
  | timer r =>
    simp only [Answers, UInt16.ofNat_toNat] at hanswers hother
    exact TimerRegister.ofAddress?_inj hother.2 hanswers.2
  | _ => exact h.elim

theorem reaches_of_isPort {address : UInt16} (h : (ofAddress address).IsPort) :
    Reaches address.toNat address.toNat := by
  have hanswers := answers_ofAddress address
  have hself : 0xFF00 ≤ address.toNat → address.toNat ≠ 0xFF44 →
      address.toNat ≠ 0xFF50 → Reaches address.toNat address.toNat := by
    intro hregister hline hswitch
    unfold Reaches
    split_ifs <;> omega
  generalize ofAddress address = place at h hanswers
  cases place with
  | joypad | requests | timer _ =>
    simp only [Answers] at hanswers
    exact hself (by omega) (by omega) (by omega)
  | _ => exact h.elim

end Place

/-! ## The screen -/

namespace ScreenRegister

/-- The registers that a write to one can change. -/
def changes : ScreenRegister → List ScreenRegister
  | line => []
  | control => [control, status, line]
  | lineCompare => [lineCompare, status]
  | r => [r]

/-- Whether a write compares the line, and so can request an interrupt. -/
def compares : ScreenRegister → Bool
  | control | lineCompare => true
  | _ => false

theorem reaches_of_mem_changes {r q : ScreenRegister} (h : q ∈ r.changes) :
    Reaches r.address.toNat q.address.toNat := by
  cases r <;> cases q <;> simp [changes] at h <;> simp [Reaches, HoldsByte, address]

theorem reaches_of_compares {r : ScreenRegister} (h : r.compares = true) :
    Reaches r.address.toNat 0xFF0F := by
  cases r <;> simp [compares] at h <;> simp [Reaches, HoldsByte, address]

end ScreenRegister

namespace Screen

/-- The registers do not depend on the memories. -/
theorem read_memories (s : Screen) (vram : Vector UInt8 0x2000) (sprites : SpriteMemory)
    (r : ScreenRegister) : ({ s with vram, sprites } : Screen).read r = s.read r := by
  cases r <;> rfl

/-- The memories do not depend on the registers. -/
theorem memories_write (s : Screen) (value : UInt8) (r : ScreenRegister) :
    (s.write value r).1.vram = s.vram ∧ (s.write value r).1.sprites = s.sprites := by
  cases r with
  | control =>
    obtain ⟨_, _, _, _, _, heq⟩ := s.writeControl_fst value
    rw [write, heq]
    exact ⟨rfl, rfl⟩
  | _ => exact ⟨rfl, rfl⟩

theorem read_write_of_not_mem (s : Screen) (value : UInt8) {r q : ScreenRegister}
    (h : q ∉ r.changes) : (s.write value r).1.read q = s.read q := by
  cases r with
  | control =>
    obtain ⟨_, _, _, _, _, heq⟩ := s.writeControl_fst value
    rw [write, heq]
    cases q <;> first | rfl | exact absurd (by decide) h
  | _ => cases q <;> first | rfl | exact absurd (by decide) h

theorem write_snd_of_not_compares (s : Screen) (value : UInt8) {r : ScreenRegister}
    (h : r.compares = false) : (s.write value r).2 = 0 := by
  cases r <;> first | rfl | cases h

end Screen

/-! ## The cartridge -/

namespace Cartridge

variable (c : Cartridge) {address : UInt16}

theorem read_ram_elsewhere (ram : Array UInt8)
    (h : ¬ (0xA000 ≤ address.toNat ∧ address.toNat < 0xC000)) :
    ({ c with ram } : Cartridge).read address = c.read address := by
  unfold read
  simp only [UInt16.lt_iff_toNat_lt, UInt16.le_iff_toNat_le, UInt16.reduceToNat, if_neg h]
  rfl

theorem read_banking_elsewhere (banking : Banking)
    (hrom : ¬ (0x4000 ≤ address.toNat ∧ address.toNat < 0x8000))
    (hram : ¬ (0xA000 ≤ address.toNat ∧ address.toNat < 0xC000)) :
    ({ c with banking } : Cartridge).read address = c.read address := by
  unfold read
  simp only [UInt16.lt_iff_toNat_lt, UInt16.le_iff_toNat_le, UInt16.reduceToNat, if_neg hram]
  by_cases hfirst : address.toNat < 0x4000
  · rw [if_pos hfirst, if_pos hfirst]
    rfl
  · rw [if_neg hfirst, if_neg hfirst, if_neg (by omega), if_neg (by omega)]

theorem read_unmapBoot (h : 0x8000 ≤ address.toNat) :
    c.unmapBoot.read address = c.read address := by
  unfold read
  simp only [UInt16.lt_iff_toNat_lt, UInt16.le_iff_toNat_le, UInt16.reduceToNat]
  simp (disch := omega) only [if_neg]
  rfl

/-- A write to the ROM chooses banks, and one to the RAM changes one byte. -/
theorem read_write_of_not_reaches (value : UInt8) {other : UInt16}
    (hcartridge : InCartridge address.toNat) (h : ¬ Reaches address.toNat other.toNat) :
    (c.write address value).read other = c.read other := by
  by_cases hrom : address.toNat < 0x8000
  · have hram : (c.write address value).ram = c.ram := c.ram_write_outside value (by omega)
    rw [Reaches, if_pos hrom, not_or] at h
    rw [write_eq, hram]
    exact c.read_banking_elsewhere _ h.1 h.2
  · obtain ⟨hlow, hhigh⟩ := hcartridge.resolve_left hrom
    have hne : other.toNat ≠ address.toNat := by
      intro hsame
      refine h ?_
      unfold Reaches HoldsByte
      simp (disch := omega) only [if_neg, hsame]
    obtain ⟨offset, rfl⟩ := exists_ramAddress hlow hhigh
    rw [write_ramAddress]
    split
    · by_cases hwindow : 0xA000 ≤ other.toNat ∧ other.toNat < 0xC000
      · obtain ⟨place, rfl⟩ := exists_ramAddress hwindow.1 hwindow.2
        have hcell : ramCell c.mappedRamBank offset ≠ ramCell c.mappedRamBank place :=
          fun hsame => hne (by rw [(ramCell_inj.1 hsame).2])
        have hbank : ({ c with ram := c.ram.setIfInBounds (ramCell c.mappedRamBank offset) value } :
            Cartridge).mappedRamBank = c.mappedRamBank := rfl
        simp only [read_ramAddress, Accessible, hbank, Array.size_setIfInBounds,
          Array.getD_eq_getD_getElem?, Array.getElem?_setIfInBounds_ne hcell]
      · exact c.read_ram_elsewhere _ hwindow
    · rfl

end Cartridge

/-! ## The bus -/

theorem Timer.read_write_of_ne (t : Timer) (value : UInt8) {r q : TimerRegister} (h : q ≠ r) :
    (t.write value r).read q = t.read q := by
  cases r <;> cases q <;> first | rfl | exact absurd rfl h

namespace Bus

variable (b : Bus) {address other : UInt16} (value : UInt8)

/-- The law of a memory: a cell reads as written, and nothing else changes. -/
theorem read_write_of_isCell (h : (Place.ofAddress address).IsCell) (other : UInt16) :
    (b.write address value).read other =
      if Place.ofAddress other = Place.ofAddress address then value else b.read other := by
  unfold write read
  generalize Place.ofAddress address = place at h
  cases place with
  | vram _ | work _ | scratch _ | high _ =>
    cases Place.ofAddress other <;>
      simp only [reduceCtorEq, if_false, Place.vram.injEq, Place.work.injEq,
        Place.scratch.injEq, Place.high.injEq, get_set, Screen.read_memories]
  | oam _ =>
    cases Place.ofAddress other <;>
      simp only [writeOam, reduceCtorEq, if_false, Place.oam.injEq, SpriteMemory.bytes_write,
        get_set, Screen.read_memories]
  | enables => cases Place.ofAddress other <;> simp only [reduceCtorEq, if_false, if_true]
  | _ => exact h.elim

theorem read_write_of_isPort (h : (Place.ofAddress address).IsPort)
    (hne : Place.ofAddress other ≠ Place.ofAddress address) :
    (b.write address value).read other = b.read other := by
  unfold write read
  generalize Place.ofAddress address = place at h hne
  cases place with
  | joypad | requests =>
    cases hother : Place.ofAddress other <;> first | rfl | exact absurd hother hne
  | timer r =>
    cases hother : Place.ofAddress other with
    | timer q => exact b.timer.read_write_of_ne value fun hsame => hne (by rw [hother, hsame])
    | _ => rfl
  | _ => exact h.elim

theorem read_writeScreen {r : ScreenRegister}
    (hscreen : ∀ q, Place.ofAddress other = .screen q → q ∉ r.changes)
    (hrequests : Place.ofAddress other = .requests → r.compares = false) :
    (b.writeScreen value r).read other = b.read other := by
  obtain ⟨hvram, hsprites⟩ := b.screen.memories_write value r
  unfold writeScreen read
  cases hother : Place.ofAddress other with
  | vram _ => simp only [hvram]
  | oam _ => simp only [hsprites]
  | screen q => exact b.screen.read_write_of_not_mem value (hscreen q hother)
  | requests =>
    simp only [b.screen.write_snd_of_not_compares value (hrequests hother), UInt8.or_zero]
  | _ => rfl

theorem read_copyToOam (h : ∀ offset, Place.ofAddress other ≠ .oam offset) :
    (b.copyToOam value).read other = b.read other := by
  rw [copyToOam_sprites]
  unfold read
  cases hother : Place.ofAddress other with
  | oam offset => exact absurd hother (h offset)
  | screen q => exact b.screen.read_memories _ _ q
  | _ => rfl

/-- A change to the cartridge is seen in its windows. -/
theorem read_mapCartridge (bootDisabled : Bool) {f : Cartridge → Cartridge}
    (h : ∀ c, b.cartridge = some c → Place.ofAddress other = .cartridge →
      (f c).read other = c.read other) :
    ({ b with bootDisabled, cartridge := b.cartridge.map f } : Bus).read other = b.read other := by
  unfold read
  cases hother : Place.ofAddress other with
  | cartridge =>
    cases hcartridge : b.cartridge with
    | none => rfl
    | some c => exact h c hcartridge hother
  | _ => rfl

/-- A write changes no read at an address that it does not reach. -/
theorem read_write_of_not_reaches (h : ¬ Reaches address.toNat other.toNat) :
    (b.write address value).read other = b.read other := by
  have hanswers := Place.answers_ofAddress address
  have hother := Place.answers_ofAddress other
  by_cases hcell : (Place.ofAddress address).IsCell
  · rw [b.read_write_of_isCell value hcell, if_neg]
    intro hsame
    refine h ?_
    have hholds := Place.holdsByte_of_isCell hcell
    have hlow : 0x8000 ≤ address.toNat := by
      unfold HoldsByte at hholds
      omega
    rw [Reaches, if_neg (by omega), if_pos hholds]
    exact Place.eq_or_mirrored hcell hsame
  by_cases hport : (Place.ofAddress address).IsPort
  · refine b.read_write_of_isPort value hport ?_
    intro hsame
    obtain rfl := Place.eq_of_isPort hport hsame
    exact h (Place.reaches_of_isPort hport)
  unfold write
  cases hplace : Place.ofAddress address with
  | cartridge =>
    rw [hplace] at hanswers
    exact b.read_mapCartridge b.bootDisabled
      fun c _ _ => c.read_write_of_not_reaches value hanswers h
  | unusable => rfl
  | bootSwitch =>
    simp only [hplace, Place.Answers] at hanswers
    have hhigh : 0x8000 ≤ other.toNat := by
      rw [hanswers] at h
      simpa [Reaches, HoldsByte] using h
    simp only [switchBoot]
    split
    · exact b.read_mapCartridge true fun c _ _ => c.read_unmapBoot hhigh
    · rfl
  | screen r =>
    obtain rfl := Place.address_of_ofAddress hplace
    have hscreen : ∀ q, Place.ofAddress other = .screen q → q ∉ r.changes := by
      intro q hq hmem
      obtain rfl := Place.address_of_ofAddress hq
      exact h (ScreenRegister.reaches_of_mem_changes hmem)
    have hrequests : Place.ofAddress other = .requests → r.compares = false := by
      intro hq
      rw [hq] at hother
      by_contra hcompares
      refine h ?_
      rw [show other.toNat = 0xFF0F from hother]
      exact ScreenRegister.reaches_of_compares (by simpa using hcompares)
    cases r with
    | dma =>
      refine (read_copyToOam _ value ?_).trans (b.read_writeScreen value hscreen hrequests)
      intro offset hoam
      have hlt := offset.isLt
      simp only [hoam, Place.Answers] at hother
      refine h ?_
      simp [Reaches, HoldsByte, ScreenRegister.address]
      omega
    | _ => exact b.read_writeScreen value hscreen hrequests
  | joypad | timer _ | requests => exact absurd (by rw [hplace]; trivial) hport
  | vram _ | work _ | oam _ | scratch _ | high _ | enables =>
    exact absurd (by rw [hplace]; trivial) hcell

/-- Every address leads to one store.  An address that keeps what is written to it
reads so afterwards, as does its mirror in the work memory; a write changes no read
at an address that it does not reach; and without a cartridge a write to the
cartridge's windows changes nothing. -/
theorem read_write_stores :
    ∀ (b : Bus) (address : UInt16) (value : UInt8),
      (HoldsByte address.toNat → (b.write address value).read address = value ∧
        ∀ other : UInt16, Mirrored address.toNat other.toNat →
          (b.write address value).read other = value) ∧
      (∀ other : UInt16, (b.write address value).read other ≠ b.read other →
        Reaches address.toNat other.toNat) ∧
      (InCartridge address.toNat → b.cartridge = none →
        ∀ other, (b.write address value).read other = b.read other) := by
  intro b address value
  refine ⟨?_, ?_, ?_⟩
  · intro hholds
    have hcell := Place.isCell_of_holdsByte hholds
    refine ⟨by rw [b.read_write_of_isCell value hcell, if_pos rfl], ?_⟩
    intro other hmirrored
    rw [b.read_write_of_isCell value hcell, if_pos (Place.ofAddress_of_mirrored hmirrored)]
  · intro other hchanged
    by_contra hreaches
    exact hchanged (b.read_write_of_not_reaches value hreaches)
  · intro hin hnone other
    rw [write, Place.ofAddress_of_inCartridge hin]
    exact b.read_mapCartridge b.bootDisabled fun c hc _ => by rw [hnone] at hc; cases hc

/-- A byte written to the start of the work memory shows at its mirror, and the
write does not reach the byte behind. -/
theorem read_write_start :
    let after := Bus.powerOn.write 0xC000 0x42
    HoldsByte (0xC000 : UInt16).toNat ∧
      Mirrored (0xC000 : UInt16).toNat (0xE000 : UInt16).toNat ∧
      after.read 0xC000 = 0x42 ∧ after.read 0xE000 = 0x42 ∧
      after.read 0xC001 = Bus.powerOn.read 0xC001 ∧
      (Bus.powerOn.write 0x2000 0x42).read 0x4000 = Bus.powerOn.read 0x4000 := by
  intro after
  have hholds : HoldsByte (0xC000 : UInt16).toNat := by decide
  have hmirrored : Mirrored (0xC000 : UInt16).toNat (0xE000 : UInt16).toNat :=
    ⟨0, by decide, .inl ⟨rfl, rfl⟩⟩
  have hbehind : ¬ Reaches (0xC000 : UInt16).toNat (0xC001 : UInt16).toNat := by
    rw [Reaches, if_neg (by decide), if_pos hholds]
    rintro (hsame | ⟨i, -, ⟨-, hmirror⟩ | ⟨hmirror, -⟩⟩)
    · exact absurd hsame (by decide)
    · have hsecond : 0xC001 = 0xE000 + i := hmirror
      omega
    · have hfirst : 0xC000 = 0xE000 + i := hmirror
      omega
  obtain ⟨hheld, hchanged, -⟩ := read_write_stores Bus.powerOn 0xC000 0x42
  obtain ⟨-, -, hbare⟩ := read_write_stores Bus.powerOn 0x2000 0x42
  exact ⟨hholds, hmirrored, (hheld hholds).1, (hheld hholds).2 0xE000 hmirrored,
    not_not.1 fun hdiffers => hbehind (hchanged 0xC001 hdiffers),
    hbare (.inl (by decide)) rfl 0x4000⟩

end Bus
end Handheld
