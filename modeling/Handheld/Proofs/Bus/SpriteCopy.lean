import Handheld.Proofs.Bus.Stores

/-!
# The copy on to the sprite memory

A page number written to FF46 starts a copy of 160 bytes from that page on to the
sprite memory.  The copy goes through the bus a byte at a time, and each Y byte
moves a sprite to another bucket, so the page may hold the sprite memory itself,
or the registers.

There are three groups.

* Addresses.  A page meets the sprite memory at most in the byte that is written
  next, so that no byte is lost before it is read: `read_source_writeOam`.
* The copy.  `bytes_copyFrom` follows the sprite memory through it, `filed_copyToOam`
  the buckets.
* The result, `write_dma_copies`.
-/

namespace Handheld

/-! ## Addresses -/

/-- The address of a byte of a page. -/
def sourceAddress (page : UInt8) (offset : Fin 160) : UInt16 :=
  .ofNat (0x100 * page.toNat + offset.val)

theorem sourceAddress_toNat (page : UInt8) (offset : Fin 160) :
    (sourceAddress page offset).toNat = 0x100 * page.toNat + offset.val := by
  have hpage := page.toNat_lt
  have hoffset := offset.isLt
  rw [sourceAddress, UInt16.toNat_ofNat']
  omega

theorem sourceAddress_eq_word (page : UInt8) (offset : Fin 160) :
    sourceAddress page offset = word page offset.val.toUInt8 := by
  have hoffset := offset.isLt
  apply UInt16.toNat_inj.1
  rw [sourceAddress_toNat, word_toNat]
  simp
  omega

theorem four_mul_lt (i : Fin 40) : 4 * i.val < 160 := by
  have hi := i.isLt
  omega

/-- The offset of the Y byte of a sprite. -/
def yOffset (i : Fin 40) : Fin 160 :=
  ⟨4 * i.val, four_mul_lt i⟩

/-- A page meets the sprite memory at the same offset. -/
theorem offset_eq_of_sourceAddress {page : UInt8} {offset place : Fin 160}
    (h : Place.ofAddress (sourceAddress page offset) = .oam place) : place = offset := by
  have hanswers := Place.answers_ofAddress (sourceAddress page offset)
  rw [h, sourceAddress_toNat] at hanswers
  have hplace := place.isLt
  have hoffset := offset.isLt
  simp only [Place.Answers] at hanswers
  apply Fin.ext
  omega

theorem ofAddress_oamAddress (offset : Fin 160) :
    Place.ofAddress (oamAddress offset) = .oam offset := by
  have hoffset := offset.isLt
  have haddress := oamAddress_toNat offset
  unfold Place.ofAddress
  simp (disch := omega) only [haddress, if_neg, dif_neg, dif_pos, Nat.add_sub_cancel_left]

namespace Bus

variable (b : Bus)

theorem write_oamAddress (offset : Fin 160) (value : UInt8) :
    b.write (oamAddress offset) value = b.writeOam offset value := by
  rw [write, ofAddress_oamAddress]

theorem read_oamAddress (offset : Fin 160) :
    b.read (oamAddress offset) = b.screen.sprites.bytes.get offset := by
  rw [read, ofAddress_oamAddress]

/-- A byte that is read and written changes no byte of the page. -/
theorem read_source_writeOam (page : UInt8) (offset other : Fin 160) :
    (b.writeOam offset (b.read (sourceAddress page offset))).read (sourceAddress page other) =
      b.read (sourceAddress page other) := by
  have hcell : (Place.ofAddress (oamAddress offset)).IsCell := by
    rw [ofAddress_oamAddress]
    trivial
  rw [← write_oamAddress, b.read_write_of_isCell _ hcell, ofAddress_oamAddress]
  split
  · next hsame => rw [offset_eq_of_sourceAddress hsame]
  · rfl

/-! ## The copy -/

/-- Copies the bytes at some offsets of a page. -/
def copyFrom (page : UInt8) (offsets : List (Fin 160)) : Bus :=
  offsets.foldl (fun b offset => b.writeOam offset (b.read (sourceAddress page offset))) b

theorem copyToOam_eq_copyFrom (page : UInt8) :
    b.copyToOam page = b.copyFrom page (List.finRange 160) := by
  simp only [copyToOam, copyFrom, sourceAddress_eq_word]

/-- Each byte that was copied is the one that the page had before, whatever the
copy has written since. -/
theorem bytes_copyFrom (page : UInt8) (offsets : List (Fin 160)) (i : Fin 160) :
    (b.copyFrom page offsets).screen.sprites.bytes.get i =
      if i ∈ offsets then b.read (sourceAddress page i) else b.screen.sprites.bytes.get i := by
  induction offsets generalizing b with
  | nil => rfl
  | cons offset offsets ih =>
    -- the bus behind the first byte still shows the page as it was
    have hnext := ih (b.writeOam offset (b.read (sourceAddress page offset)))
    rw [read_source_writeOam] at hnext
    refine hnext.trans ?_
    by_cases hrest : i ∈ offsets
    · rw [if_pos hrest, if_pos (List.mem_cons_of_mem _ hrest)]
    · simp only [writeOam, SpriteMemory.bytes_write, get_set, List.mem_cons, hrest, or_false,
        if_false]
      split
      · next hsame => rw [hsame]
      · rfl

theorem filed_copyToOam (page : UInt8) (h : b.screen.sprites.Filed) :
    (b.copyToOam page).screen.sprites.Filed :=
  copyToOam_induction (P := fun other => other.screen.sprites.Filed)
    (fun _ offset value h => h.write offset value) h page

/-! ## The register that starts it -/

theorem ofAddress_dma : Place.ofAddress 0xFF46 = .screen .dma :=
  Place.ofAddress_register (n := 0x46) rfl (by decide)

theorem write_dma (page : UInt8) :
    b.write 0xFF46 page = ({ b with screen.dma := page } : Bus).copyToOam page := by
  have hregister : b.writeScreen page .dma = { b with screen.dma := page } := by
    simp only [writeScreen, Screen.write, UInt8.or_zero]
  rw [write, ofAddress_dma]
  simp only [hregister]

/-- The page number is read back, and changes nothing else. -/
theorem read_withDma (page : UInt8) (address : UInt16) :
    ({ b with screen.dma := page } : Bus).read address =
      if address = 0xFF46 then page else b.read address := by
  split
  · next h =>
    rw [h, read, ofAddress_dma]
    rfl
  · next h =>
    unfold read
    cases hplace : Place.ofAddress address with
    | screen r =>
      have haddress := Place.address_of_ofAddress hplace
      cases r with
      | dma => exact absurd haddress.symm h
      | _ => rfl
    | _ => rfl

/-- A page number written to FF46 copies the start of that page, as it was before,
on to the sprite memory, and changes nothing else beside the register.  The bytes
go over the bus one after another, and the buckets follow the Y bytes. -/
theorem write_dma_copies (page : UInt8) :
    let before : Bus := { b with screen.dma := page }
    let after := b.write 0xFF46 page
    (∀ address, before.read address = if address = 0xFF46 then page else b.read address) ∧
    (∀ i, after.read (oamAddress i) = before.read (sourceAddress page i)) ∧
    after.read 0xFF46 = page ∧
    after = { before with screen.sprites := after.screen.sprites } ∧
    (∀ address, (∀ i, address ≠ oamAddress i) →
      after.read address = before.read address) ∧
    after = (List.finRange 160).foldl
      (fun b i => b.write (oamAddress i) (b.read (sourceAddress page i))) before ∧
    (b.screen.sprites.Filed → after.screen.sprites.Filed ∧
      ∀ (i : Fin 40) (k : Fin 16), i ∈ after.screen.sprites.buckets.get k ↔
        k.val = (before.read (sourceAddress page (yOffset i))).toNat >>> 4) ∧
    (b.screen.Reachable → b.screen.sprites.Filed) := by
  intro before after
  have hcopy : after = before.copyFrom page (List.finRange 160) := by
    rw [← copyToOam_eq_copyFrom]
    exact b.write_dma page
  have hbytes : ∀ i, after.screen.sprites.bytes.get i = before.read (sourceAddress page i) := by
    intro i
    rw [hcopy, bytes_copyFrom, if_pos (List.mem_finRange i)]
  have honly : after = { before with screen.sprites := after.screen.sprites } := by
    have hsprites := before.copyToOam_sprites page
    rwa [copyToOam_eq_copyFrom, ← hcopy] at hsprites
  have helsewhere : ∀ address, (∀ i, address ≠ oamAddress i) →
      after.read address = before.read address := by
    intro address hother
    rw [hcopy, ← copyToOam_eq_copyFrom]
    refine before.read_copyToOam page fun i hplace => hother i ?_
    have hanswers := Place.answers_ofAddress address
    rw [hplace] at hanswers
    exact UInt16.toNat_inj.1 (hanswers.trans (oamAddress_toNat i).symm)
  have hregister : ∀ i, 0xFF46 ≠ oamAddress i := by
    intro i hsame
    have hplace := ofAddress_dma
    rw [hsame, ofAddress_oamAddress] at hplace
    cases hplace
  refine ⟨b.read_withDma page, ?_, ?_, honly, helsewhere, ?_, ?_, Screen.Reachable.filed⟩
  · intro i
    rw [read_oamAddress, hbytes]
  · rw [helsewhere 0xFF46 hregister, b.read_withDma page, if_pos rfl]
  · simp only [hcopy, copyFrom, write_oamAddress]
  · intro hfiled
    have hafter : after.screen.sprites.Filed := by
      rw [hcopy, ← copyToOam_eq_copyFrom]
      exact before.filed_copyToOam page hfiled
    refine ⟨hafter, fun i k => ?_⟩
    rw [hafter.place, SpriteMemory.yByte, hbytes, yOffset]

/-- Two copies on a started machine: the first takes the registers, FF46 among
them, and the second the sprite memory itself. -/
theorem write_dma_copies_registers :
    let b := Bus.postBoot.write 0xFF46 0xFF
    let after := b.write 0xFF46 0xFE
    Bus.postBoot.screen.Reachable ∧ b.screen.sprites.Filed ∧ b.read 0xFE46 = 0xFF ∧
      after.screen.sprites.Filed ∧ after.read 0xFE46 = 0xFF ∧ after.read 0xFF46 = 0xFE := by
  intro b after
  have hreachable : Bus.postBoot.screen.Reachable := .postBoot
  obtain ⟨hread, hcopied, -, -, -, -, hkeeps, hfiled⟩ := write_dma_copies Bus.postBoot 0xFF
  have hb := (hkeeps (hfiled hreachable)).1
  have hsprite : b.read 0xFE46 = 0xFF := (hcopied 0x46).trans (hread 0xFF46)
  obtain ⟨hread, hcopied, hdma, -, -, -, hkeeps, -⟩ := write_dma_copies b 0xFE
  have hself : after.read 0xFE46 = b.read 0xFE46 := (hcopied 0x46).trans (hread 0xFE46)
  exact ⟨hreachable, hb, hsprite, (hkeeps hb).1, hself.trans hsprite, hdma⟩

end Bus
end Handheld
