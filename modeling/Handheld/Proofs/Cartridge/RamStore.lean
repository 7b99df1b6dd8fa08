import Handheld.Proofs.Cartridge.Control
import Handheld.Proofs.Cartridge.Loading

/-!
# Cartridge RAM keeps what was stored in it

The RAM of a cartridge is reached through a window of the address space, one
bank at a time, and only while it is enabled.  A cell holds the byte that was
stored in it last, that is, written to its address while its bank was shown;
zero if there was none.  Reading gives that byte while the bank is shown, and
all ones otherwise.

There are three groups.

* Cells.  A cell is given by its bank and its offset in the bank; `storesTo`
  are the bytes that a history of writes stores in a cell.
* What a write does to the RAM.  `write_ramAddress` is a write to the window and
  `ram_write_outside` one beside it; `getElem?_ram_write` says it cell by cell.
* The law: `getElem?_ram_writeAll` for the RAM itself, and `read_ram_of_writes`
  for a program that reads and writes.
-/

namespace Handheld

/-! ## Cells -/

/-- The address of an offset in the RAM window. -/
def ramAddress (offset : Fin 0x2000) : UInt16 :=
  .ofNat (0xA000 + offset.val)

theorem ramAddress_toNat (offset : Fin 0x2000) :
    (ramAddress offset).toNat = 0xA000 + offset.val := by
  have hlt := offset.isLt
  rw [ramAddress, UInt16.toNat_ofNat']
  omega

theorem ramAddress_inj {offset place : Fin 0x2000} :
    ramAddress offset = ramAddress place ↔ offset = place := by
  refine ⟨fun h => Fin.ext ?_, congrArg ramAddress⟩
  have hsame := congrArg UInt16.toNat h
  rw [ramAddress_toNat, ramAddress_toNat] at hsame
  omega

/-- An address of the RAM window is that of an offset. -/
theorem exists_ramAddress {address : UInt16} (hlow : 0xA000 ≤ address.toNat)
    (hhigh : address.toNat < 0xC000) : ∃ offset, address = ramAddress offset := by
  refine ⟨⟨address.toNat - 0xA000, by omega⟩, UInt16.toNat_inj.1 ?_⟩
  rw [ramAddress_toNat]
  simp only
  omega

/-- The number of a cell in the RAM. -/
def ramCell (bank : Nat) (offset : Fin 0x2000) : Nat :=
  bank * 0x2000 + offset.val

/-- Banks do not overlap: a cell belongs to one bank, at one offset. -/
theorem ramCell_inj {bank other : Nat} {offset place : Fin 0x2000} :
    ramCell bank offset = ramCell other place ↔ bank = other ∧ offset = place := by
  have hlt := offset.isLt
  have hlt' := place.isLt
  rw [Fin.ext_iff]
  unfold ramCell
  omega

/-- The write `w` stores its byte in a cell: it is made to the cell's address,
and the writes `before` it left the RAM enabled and the cell's bank shown. -/
def Stores (k : Controller) (bank : Nat) (offset : Fin 0x2000)
    (before : List (UInt16 × UInt8)) (w : UInt16 × UInt8) : Prop :=
  w.1 = ramAddress offset ∧ k.ramEnabledAfter before = true ∧ k.ramBankAfter before = bank

instance (k : Controller) (bank : Nat) (offset : Fin 0x2000) (before : List (UInt16 × UInt8))
    (w : UInt16 × UInt8) : Decidable (Stores k bank offset before w) :=
  inferInstanceAs (Decidable (_ ∧ _ ∧ _))

/-- The bytes that a history of writes stores in a cell, in order. -/
def storesTo (k : Controller) (bank : Nat) (offset : Fin 0x2000)
    (writes : List (UInt16 × UInt8)) : List UInt8 :=
  (writes.zipIdx.filter fun x => Stores k bank offset (writes.take x.2) x.1).map fun x => x.1.2

/-- The byte that a history of writes stores in a cell last; zero if it stores
none. -/
def storedLast (k : Controller) (bank : Nat) (offset : Fin 0x2000)
    (writes : List (UInt16 × UInt8)) : UInt8 :=
  (storesTo k bank offset writes).getLast?.getD 0

theorem storesTo_concat (k : Controller) (bank : Nat) (offset : Fin 0x2000)
    (writes : List (UInt16 × UInt8)) (w : UInt16 × UInt8) :
    storesTo k bank offset (writes ++ [w]) =
      storesTo k bank offset writes ++ if Stores k bank offset writes w then [w.2] else [] := by
  unfold storesTo
  rw [List.zipIdx_append, List.filter_append, List.map_append]
  congr 2
  · apply List.filter_congr
    intro x hx
    have hlt := List.snd_lt_of_mem_zipIdx hx
    rw [List.take_append_of_le_length (by omega)]
  · simp only [List.zipIdx_singleton, Nat.zero_add, List.take_left, List.filter_cons,
      List.filter_nil, decide_eq_true_eq]
    split <;> rfl

theorem storedLast_concat (k : Controller) (bank : Nat) (offset : Fin 0x2000)
    (writes : List (UInt16 × UInt8)) (w : UInt16 × UInt8) :
    storedLast k bank offset (writes ++ [w]) =
      if Stores k bank offset writes w then w.2 else storedLast k bank offset writes := by
  rw [storedLast, storesTo_concat]
  split
  · rw [List.getLast?_concat]
    rfl
  · rw [List.append_nil]
    rfl

namespace Cartridge

/-! ## Access to the RAM -/

section

variable (c : Cartridge) (offset : Fin 0x2000)

/-- Whether there is a cell to access at an offset of the RAM window. -/
def Accessible : Prop :=
  c.banking.ramEnabled = true ∧ ramCell c.mappedRamBank offset < c.ram.size

instance : Decidable (c.Accessible offset) :=
  inferInstanceAs (Decidable (_ ∧ _))

theorem ramOffset?_ramAddress :
    c.ramOffset? (ramAddress offset) =
      if c.Accessible offset then some (ramCell c.mappedRamBank offset) else none := by
  have hsize : ramBankSize = 0x2000 := rfl
  simp only [ramOffset?, ramAddress_toNat, Nat.add_sub_cancel_left, hsize, Bool.and_eq_true,
    decide_eq_true_eq]
  rfl

theorem read_ramAddress :
    c.read (ramAddress offset) =
      if c.Accessible offset then c.ram.getD (ramCell c.mappedRamBank offset) 0xFF
      else 0xFF := by
  have haddress := ramAddress_toNat offset
  have hlt := offset.isLt
  unfold read
  simp only [UInt16.lt_iff_toNat_lt, UInt16.le_iff_toNat_le, UInt16.reduceToNat]
  rw [if_neg (by omega), if_neg (by omega), if_pos (by omega), ramOffset?_ramAddress]
  by_cases h : c.Accessible offset
  · rw [if_pos h, if_pos h]
  · rw [if_neg h, if_neg h]

theorem write_ramAddress (value : UInt8) :
    c.write (ramAddress offset) value =
      if c.Accessible offset then
        { c with ram := c.ram.setIfInBounds (ramCell c.mappedRamBank offset) value }
      else c := by
  have haddress := ramAddress_toNat offset
  have hlt := offset.isLt
  unfold write
  simp only [UInt16.lt_iff_toNat_lt, UInt16.le_iff_toNat_le, UInt16.reduceToNat]
  rw [if_neg (by omega), if_pos (by omega), ramOffset?_ramAddress]
  by_cases h : c.Accessible offset
  · rw [if_pos h, if_pos h]
  · rw [if_neg h, if_neg h]

end

/-- A write beside the RAM window leaves the RAM alone. -/
theorem ram_write_outside (c : Cartridge) {address : UInt16} (value : UInt8)
    (h : ¬ (0xA000 ≤ address.toNat ∧ address.toNat < 0xC000)) :
    (c.write address value).ram = c.ram := by
  unfold write
  simp only [UInt16.lt_iff_toNat_lt, UInt16.le_iff_toNat_le, UInt16.reduceToNat]
  rw [if_neg h]
  split
  · cases c.controller <;> rfl
  · rfl

/-- A write changes a cell only if it is made to the cell's address, while the
RAM is enabled and the cell's bank is shown. -/
theorem getElem?_ram_write (c : Cartridge) (address : UInt16) (value : UInt8) {bank : Nat}
    {offset : Fin 0x2000} (hcell : ramCell bank offset < c.ram.size) :
    (c.write address value).ram[ramCell bank offset]? =
      if address = ramAddress offset ∧ c.banking.ramEnabled = true ∧ c.mappedRamBank = bank then
        some value
      else c.ram[ramCell bank offset]? := by
  by_cases hwindow : 0xA000 ≤ address.toNat ∧ address.toNat < 0xC000
  · obtain ⟨place, rfl⟩ := exists_ramAddress hwindow.1 hwindow.2
    simp only [write_ramAddress, ramAddress_inj]
    by_cases hsame : place = offset ∧ c.mappedRamBank = bank
    · obtain ⟨rfl, rfl⟩ := hsame
      by_cases henabled : c.banking.ramEnabled = true
      · rw [if_pos ⟨henabled, hcell⟩, if_pos ⟨rfl, henabled, rfl⟩]
        exact Array.getElem?_setIfInBounds_self_of_lt hcell
      · rw [if_neg (fun h => henabled h.1), if_neg (fun h => henabled h.2.1)]
    · have hother : ramCell c.mappedRamBank place ≠ ramCell bank offset :=
        fun h => hsame (ramCell_inj.1 h).symm
      have hno : ¬ (place = offset ∧ c.banking.ramEnabled = true ∧ c.mappedRamBank = bank) :=
        fun h => hsame ⟨h.1, h.2.2⟩
      rw [if_neg hno]
      split
      · exact Array.getElem?_setIfInBounds_ne hother
      · rfl
  · rw [ram_write_outside c value hwindow, if_neg]
    rintro ⟨rfl, -⟩
    have hlt := offset.isLt
    rw [ramAddress_toNat] at hwindow
    omega

theorem size_ram_write (c : Cartridge) (address : UInt16) (value : UInt8) :
    (c.write address value).ram.size = c.ram.size := by
  by_cases hwindow : 0xA000 ≤ address.toNat ∧ address.toNat < 0xC000
  · obtain ⟨place, rfl⟩ := exists_ramAddress hwindow.1 hwindow.2
    rw [write_ramAddress]
    split
    · exact Array.size_setIfInBounds
    · rfl
  · rw [ram_write_outside c value hwindow]

theorem size_ram_writeAll (c : Cartridge) (writes : List (UInt16 × UInt8)) :
    (c.writeAll writes).ram.size = c.ram.size := by
  induction writes using List.reverseRecOn with
  | nil => rfl
  | append_singleton writes w ih => rw [writeAll_concat, size_ram_write, ih]

/-! ## The law -/

/-- A cell of the cartridge with an image holds the byte stored in it last. -/
theorem getElem?_ram_writeAll (image : Array UInt8) (writes : List (UInt16 × UInt8))
    {bank : Nat} {offset : Fin 0x2000} (hcell : ramCell bank offset < (ofImage image).ram.size) :
    ((ofImage image).writeAll writes).ram[ramCell bank offset]? =
      some (storedLast (ofImage image).controller bank offset writes) := by
  have hbanking : (ofImage image).banking = .initial (ofImage image).controller := rfl
  induction writes using List.reverseRecOn with
  | nil =>
    rw [writeAll_nil, Array.getElem?_eq_getElem hcell]
    simp [ofImage, storedLast, storesTo]
  | append_singleton writes w ih =>
    have hnow : ramCell bank offset < ((ofImage image).writeAll writes).ram.size := by
      rwa [size_ram_writeAll]
    rw [writeAll_concat, getElem?_ram_write _ _ _ hnow, ih, storedLast_concat,
      ramEnabled_writeAll hbanking, mappedRamBank_writeAll hbanking, apply_ite some]
    rfl

theorem accessible_writeAll (image : Array UInt8) (writes : List (UInt16 × UInt8))
    (offset : Fin 0x2000) :
    ((ofImage image).writeAll writes).Accessible offset ↔
      (ofImage image).controller.ramEnabledAfter writes = true ∧
        ramCell ((ofImage image).controller.ramBankAfter writes) offset <
          (ofImage image).ram.size := by
  have hbanking : (ofImage image).banking = .initial (ofImage image).controller := rfl
  rw [Accessible, ramEnabled_writeAll hbanking, mappedRamBank_writeAll hbanking,
    size_ram_writeAll]

/-- The RAM of a cartridge is a faithful store.  After any writes, a read of the
RAM window gives the byte stored last in the cell that is shown, and ones if no
cell is shown.  A write that finds no cell is lost, a write to the ROM stores
nothing, and a write to the window changes no cell but the one that is shown. -/
theorem read_ram_of_writes {image : Array UInt8} {c : Cartridge} (h : load image = .ok c)
    (writes : List (UInt16 × UInt8)) :
    let now := c.writeAll writes
    let bank := c.controller.ramBankAfter writes
    let shown := fun offset : Fin 0x2000 =>
      c.controller.ramEnabledAfter writes = true ∧ ramCell bank offset < c.ram.size
    (∀ offset, shown offset →
      now.read (ramAddress offset) = storedLast c.controller bank offset writes) ∧
    (∀ offset, ¬ shown offset → now.read (ramAddress offset) = 0xFF ∧
      ∀ value, now.write (ramAddress offset) value = now) ∧
    (∀ address value, address < 0x8000 → (now.write address value).ram = now.ram) ∧
    (∀ offset value other place, (other, place) ≠ (bank, offset) →
      (now.write (ramAddress offset) value).ram[ramCell other place]? =
        now.ram[ramCell other place]?) := by
  obtain ⟨-, -, rfl⟩ := load_eq_ok_iff.1 h
  intro now bank shown
  have hshown : ∀ offset, now.Accessible offset ↔ shown offset :=
    accessible_writeAll image writes
  refine ⟨?_, ?_, ?_, ?_⟩
  · intro offset hoffset
    have hcell := getElem?_ram_writeAll image writes hoffset.2
    have hbank : now.mappedRamBank = bank := mappedRamBank_writeAll rfl writes
    rw [read_ramAddress, if_pos ((hshown offset).2 hoffset), Array.getD_eq_getD_getElem?, hbank,
      hcell]
    rfl
  · intro offset hoffset
    have hnone : ¬ now.Accessible offset := fun haccess => hoffset ((hshown offset).1 haccess)
    exact ⟨by rw [read_ramAddress, if_neg hnone],
      fun value => by rw [write_ramAddress, if_neg hnone]⟩
  · intro address value hrom
    simp only [UInt16.lt_iff_toNat_lt, UInt16.reduceToNat] at hrom
    exact ram_write_outside now value (by omega)
  · intro offset value other place hother
    have hbank : now.mappedRamBank = bank := mappedRamBank_writeAll rfl writes
    rw [write_ramAddress]
    split
    · refine Array.getElem?_setIfInBounds_ne fun hsame => hother ?_
      rw [hbank] at hsame
      obtain ⟨rfl, rfl⟩ := ramCell_inj.1 hsame
      rfl
    · rfl

/-- A cartridge with four banks of RAM: a byte stored in bank 2 is still there
after bank 0 was written at the same address. -/
theorem read_ram_of_two_banks :
    let writes : List (UInt16 × UInt8) :=
      [(0x1FFF, 0x4A), (0x6000, 0x01), (0x4000, 0x02), (0xBFFF, 0x99), (0x5000, 0x04),
        (0xBFFF, 0x42), (0x4000, 0x06)]
    ∃ c : Cartridge, load (.replicate 0x150 0x03) = .ok c ∧
      c.controller = .mbc1 ∧ c.ram.size = 0x8000 ∧ (c.writeAll writes).read 0xBFFF = 0x99 := by
  intro writes
  have hcontroller : ∀ image : Array UInt8, image.getD 0x0147 0 = 0x03 →
      (ofImage image).controller = .mbc1 := by
    intro image htype
    simp [ofImage, Header.ofImage, Header.controller, Header.controller?, htype]
  have hram : ∀ image : Array UInt8, image.getD 0x0147 0 = 0x03 → image.getD 0x0149 0 = 0x03 →
      (ofImage image).ram.size = 0x8000 := by
    intro image htype hsize
    simp [ofImage, Header.ofImage, Header.controller, Header.controller?, Header.ramSize, htype,
      hsize, Controller.maxRamSize, ramBankSize]
  have hload : load (.replicate 0x150 0x03) = .ok (ofImage (.replicate 0x150 0x03)) := by
    rw [load_eq_ok_iff]
    simp [sizeLimit]
  obtain ⟨hread, -⟩ := read_ram_of_writes hload writes
  have hlast : storedLast .mbc1 (Controller.mbc1.ramBankAfter writes) ⟨0x1FFF, by decide⟩
      writes = 0x99 := by decide
  rw [hcontroller _ (by simp), hram _ (by simp) (by simp)] at hread
  exact ⟨_, hload, hcontroller _ (by simp), hram _ (by simp) (by simp),
    (hread ⟨0x1FFF, by decide⟩ (by decide)).trans hlast⟩

end Cartridge
end Handheld
