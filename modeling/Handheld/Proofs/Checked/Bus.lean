import Mathlib.Data.List.FinRange
import Mathlib.Tactic.SplitIfs
import Handheld.Checked.Bus
import Handheld.Proofs.Checked.Cartridge

/-!
# The bus meets no fault

Every access to the bus by checked arithmetic has a result, and it is that of
the access without checks.  Reading always has one; writing needs that the boot
ROM over the ROM is no longer than the ROM, and the timer that it has counted
no more cycles than a step takes.  `Bus.Sound` says both.

There are three groups.

* The components: sprite memory and timer.
* The address space.  `Place.Answers` says at which addresses a place answers;
  `read_eq_ok` and `write_eq_ok` go through the places.
* Soundness is kept by everything that happens to a bus.
-/

namespace Handheld

namespace Checked

/-! ## The components -/

theorem bucketOf_eq (y : UInt8) : y.toNat >>> 4 = (SpriteMemory.bucketOf y).val := by
  rw [Nat.shiftRight_eq_div_pow]
  rfl

theorem moveSprite_eq (buckets : Vector (List (Fin 40)) 16) (i : Fin 40) (source target : Fin 16) :
    (do let others := (← get buckets source.val).filter (· ≠ i)
        let buckets ← set buckets source.val others
        set buckets target.val ((← get buckets target.val) ++ [i])) =
      .ok (SpriteMemory.moveSprite buckets i source target) := by
  simp only [get_eq_ok source.isLt, ok_bind, set_eq_ok source.isLt, get_eq_ok target.isLt,
    set_eq_ok target.isLt]
  rfl

theorem rebucket_eq_ok (m : SpriteMemory) {sprite : Nat} (h : sprite < 40) (y : UInt8) :
    rebucket m sprite y = .ok (m.rebucket ⟨sprite, h⟩ y) := by
  have hlimit : Width.index.limit = 0x100000000 := rfl
  have hbyte : m.bytes.get ⟨sprite * 4, by omega⟩ = m.yByte ⟨sprite, h⟩ := by
    simp only [SpriteMemory.yByte, Nat.mul_comm]
  unfold rebucket SpriteMemory.rebucket
  rw [mul_eq_ok (by omega), ok_bind, get_eq_ok (by omega), ok_bind, hbyte]
  simp only [bucketOf_eq]
  by_cases hsame : SpriteMemory.bucketOf (m.yByte ⟨sprite, h⟩) = SpriteMemory.bucketOf y
  · rw [if_pos (by rw [hsame]), if_pos hsame, pure_eq_ok]
  · rw [if_neg (by rwa [Fin.val_inj]), if_neg hsame, spriteNumber, dif_pos h, pure_eq_ok, ok_bind]
    exact moveSprite_eq m.buckets _ _ _

theorem writeOam_eq_ok (m : SpriteMemory) (offset : Fin 160) (value : UInt8) {address : Nat}
    (h : address = 0xFE00 + offset.val) :
    writeOam m address value = .ok (m.write offset value) := by
  have hlt := offset.isLt
  subst h
  unfold writeOam SpriteMemory.write
  rw [sub_eq_ok (by omega), ok_bind, Nat.add_sub_cancel_left, if_neg (by omega)]
  by_cases hy : offset.val % 4 = 0
  · rw [if_pos hy, if_pos hy, rebucket_eq_ok m (by omega), ok_bind, set_eq_ok hlt]
    rfl
  · rw [if_neg hy, if_neg hy, pure_eq_ok, ok_bind, set_eq_ok hlt]
    rfl

end Checked

/-- The cycles that a timer has counted towards its next steps make up no step. -/
structure Timer.Sound (t : Timer) : Prop where
  divider : t.dividerCycles < 64
  counter : t.counterCycles < 256

theorem Timer.period_bounds (t : Timer) : 0 < t.period ∧ t.period ≤ 256 := by
  unfold period
  split <;> omega

theorem Timer.Sound.advance {t : Timer} (h : t.Sound) (cycles : Nat) :
    (t.advance cycles).1.Sound := by
  have hdivider : (t.dividerCycles + cycles) % dividerPeriod < 64 := Nat.mod_lt _ (by decide)
  unfold Timer.advance advanceCounter
  split
  · obtain ⟨hpos, hle⟩ := (t.advanceDivider cycles).period_bounds
    have hcounter := Nat.mod_lt ((t.advanceDivider cycles).counterCycles + cycles) hpos
    exact ⟨hdivider, by simp only; omega⟩
  · exact ⟨hdivider, h.counter⟩

/-- The sums that the timer forms over a number of cycles fit 32 bits. -/
structure Timer.Fits (t : Timer) (cycles : Nat) : Prop where
  divider : t.dividerCycles + cycles < Checked.Width.double.limit
  counter : t.enabled = true → t.counterCycles + cycles < Checked.Width.double.limit

theorem Timer.Sound.fits {t : Timer} (h : t.Sound) {cycles : Nat} (hcycles : cycles ≤ 11) :
    t.Fits cycles := by
  have hdivider := h.divider
  have hcounter := h.counter
  have hlimit : Checked.Width.double.limit = 0x100000000 := rfl
  exact ⟨by omega, fun _ => by omega⟩

theorem Timer.Sound.write {t : Timer} (h : t.Sound) (value : UInt8) (r : TimerRegister) :
    (t.write value r).Sound := by
  cases r with
  | divider => exact ⟨Nat.zero_lt_succ 63, h.counter⟩
  | _ => exact ⟨h.divider, h.counter⟩

namespace Checked

theorem get_periods (t : Timer) : get periods (t.control &&& 3).toNat = .ok t.period := by
  have hmod : (t.control &&& 3).toNat = t.control.toNat % 4 := by
    rw [UInt8.toNat_and]
    exact Nat.and_two_pow_sub_one_eq_mod _ 2
  have hlt : t.control.toNat % 4 < 4 := Nat.mod_lt _ (by decide)
  rw [hmod]
  unfold Timer.period
  generalize t.control.toNat % 4 = n at hlt
  match n, hlt with
  | 0, _ | 1, _ | 2, _ | 3, _ => rfl

theorem advanceTimer_of_fits {t : Timer} {cycles : Nat} (h : t.Fits cycles) :
    advanceTimer t cycles = .ok (t.advance cycles) := by
  have hperiod : 0 < Timer.dividerPeriod := by decide
  unfold advanceTimer Timer.advance Timer.advanceCounter
  rw [add_eq_ok h.divider, ok_bind, div_eq_ok hperiod, ok_bind, rem_eq_ok hperiod, ok_bind]
  change (if (t.advanceDivider cycles).enabled = true then _ else _) = _
  split
  · rename_i henabled
    have hpos := (t.advanceDivider cycles).period_bounds.1
    change (get periods ((t.advanceDivider cycles).control &&& 3).toNat >>= _) = _
    rw [get_periods, ok_bind]
    change (add _ t.counterCycles cycles >>= _) = _
    rw [add_eq_ok (h.counter henabled), ok_bind, div_eq_ok hpos, ok_bind, rem_eq_ok hpos, ok_bind]
    rfl
  · rfl

end Checked

/-! ## The address space -/

namespace Place

/-- The addresses at which a place answers, as numbers. -/
def Answers (n : Nat) : Place → Prop
  | cartridge => n < 0x8000 ∨ 0xA000 ≤ n ∧ n < 0xC000
  | vram offset => n = 0x8000 + offset.val
  | work offset => n = 0xC000 + offset.val ∨ n = 0xE000 + offset.val ∧ n < 0xFE00
  | oam offset => n = 0xFE00 + offset.val
  | unusable => 0xFEA0 ≤ n ∧ n < 0xFF00
  | joypad => n = 0xFF00
  | timer r => (0xFF04 ≤ n ∧ n ≤ 0xFF07) ∧ TimerRegister.ofAddress? (.ofNat n) = some r
  | requests => n = 0xFF0F
  | screen r => (0xFF40 ≤ n ∧ n ≤ 0xFF4B) ∧ ScreenRegister.ofAddress? (.ofNat n) = some r
  | bootSwitch => n = 0xFF50
  | scratch offset => n = 0xFF00 + offset.val ∧ n ≠ 0xFF00 ∧
      ¬ (0xFF04 ≤ n ∧ n ≤ 0xFF07) ∧ n ≠ 0xFF0F ∧
      ¬ (0xFF40 ≤ n ∧ n ≤ 0xFF4B) ∧ n ≠ 0xFF50
  | high offset => n = 0xFF80 + offset.val
  | enables => n = 0xFFFF

theorem answers_ofRegister {n : Nat} {offset : Fin 0x80} (hn : n = 0xFF00 + offset.val) :
    (ofRegister offset).Answers n := by
  unfold ofRegister
  split
  -- an offset that no component claims differs from each that one does
  case h_20 =>
    simp only [imp_false] at *
    simp only [Answers]
    omega
  all_goals
    rename_i h
    rw [h] at hn
    subst hn
    simp only [Answers]
    try decide

theorem ofAddress_register {address : UInt16} {n : Nat} (h : address.toNat = 0xFF00 + n)
    (hn : n < 0x80) : ofAddress address = ofRegister ⟨n, hn⟩ := by
  have hoffset : address.toNat - 0xFF00 = n := by omega
  unfold ofAddress
  dsimp only
  rw [if_neg (by omega), dif_neg (by omega), if_neg (by omega), dif_neg (by omega),
    dif_neg (by omega), dif_neg (by omega), if_neg (by omega), dif_pos (by omega)]
  simp only [hoffset]

/-- The place of an address answers there. -/
theorem answers_ofAddress (address : UInt16) : (ofAddress address).Answers address.toNat := by
  have haddress := address.toNat_lt
  by_cases hbelow : address.toNat < 0xFF00
  · unfold ofAddress
    dsimp only
    split_ifs <;> (simp only [Answers]; omega)
  by_cases hregister : address.toNat < 0xFF80
  · obtain ⟨n, hn⟩ := Nat.exists_eq_add_of_le (Nat.not_lt.1 hbelow)
    rw [ofAddress_register hn (by omega)]
    exact answers_ofRegister hn
  · unfold ofAddress
    dsimp only
    split_ifs <;> (simp only [Answers]; omega)

end Place

namespace Checked

theorem and_eq_mod (n : Nat) : n &&& 0x1FFF = n % 0x2000 :=
  Nat.and_two_pow_sub_one_eq_mod n 13

theorem vramMask_eq (offset : Fin 0x2000) : offset.val &&& 0x1FFF = offset.val := by
  rw [and_eq_mod, Nat.mod_eq_of_lt offset.isLt]

theorem getD_toArray {n : Nat} {v : Vector UInt8 n} {i : Nat} (h : i < n) :
    v.toArray.getD i 0 = v.get ⟨i, h⟩ := by
  rw [Array.getD_eq_getD_getElem?, Array.getElem?_eq_getElem (by rwa [Vector.size_toArray])]
  rfl

/-- The offset of an address from the start of a memory. -/
theorem sub_eq_offset {n base offset : Nat} (h : n = base + offset) :
    sub n base = .ok offset := by
  rw [h, sub_eq_ok (Nat.le_add_right base offset), Nat.add_sub_cancel_left]

/-- Reading the bus meets no fault. -/
theorem read_eq_ok (b : Bus) (address : UInt16) : read b address = .ok (b.read address) := by
  -- the place and the number of the address are told apart; what ties them
  -- together is that the place answers there
  have haddress : UInt16.ofNat address.toNat = address := UInt16.ofNat_toNat
  have hanswers := Place.answers_ofAddress address
  unfold read Bus.read
  dsimp only
  generalize Place.ofAddress address = place at hanswers
  generalize address.toNat = n at haddress hanswers
  cases place with
  | cartridge =>
    have hrange : n < 0x8000 ∨ 0xA000 ≤ n ∧ n < 0xC000 := hanswers
    rw [if_pos hrange]
    cases b.cartridge with
    | none => rfl
    | some c => exact readCartridge_eq_ok c address
  | vram offset =>
    have hn : n = 0x8000 + offset.val := hanswers
    have hlt := offset.isLt
    simp (disch := omega) only [if_pos, if_neg, sub_eq_offset hn, ok_bind, vramMask_eq,
      get_eq_ok hlt]
  | work offset =>
    have hlt := offset.isLt
    obtain hn | ⟨hn, hecho⟩ := hanswers
    all_goals
      simp (disch := omega) only [if_pos, if_neg, sub_eq_offset hn, ok_bind, get_eq_ok hlt]
  | oam offset =>
    have hn : n = 0xFE00 + offset.val := hanswers
    have hlt := offset.isLt
    simp (disch := omega) only [if_pos, if_neg, sub_eq_offset hn, ok_bind, getD_toArray hlt,
      pure_eq_ok]
  | unusable =>
    obtain ⟨hlow, hhigh⟩ := hanswers
    simp (disch := omega) only [if_pos, if_neg, pure_eq_ok]
  | joypad | requests | bootSwitch | enables =>
    have hn : n = _ := hanswers
    simp (disch := omega) only [if_pos, if_neg, pure_eq_ok]
  | timer r =>
    obtain ⟨hrange, hr⟩ := hanswers
    rw [haddress] at hr
    simp (disch := omega) only [if_pos, if_neg, Timer.readAt, hr, pure_eq_ok]
  | screen r =>
    obtain ⟨hrange, hr⟩ := hanswers
    rw [haddress] at hr
    simp (disch := omega) only [if_pos, if_neg, Screen.readAt, hr, pure_eq_ok]
  | scratch offset =>
    obtain ⟨hn, hothers⟩ := hanswers
    have hlt := offset.isLt
    simp (disch := omega) only [if_pos, if_neg, sub_eq_offset hn, ok_bind, get_eq_ok hlt]
  | high offset =>
    have hn : n = 0xFF80 + offset.val := hanswers
    have hlt := offset.isLt
    simp (disch := omega) only [if_pos, if_neg, sub_eq_offset hn, ok_bind, get_eq_ok hlt]

/-! ## Writing -/

theorem word_zero_add (page : UInt8) (offset : Fin 160) :
    word page 0 + offset.val.toUInt16 = word page offset.val.toUInt8 := by
  have hpage := page.toNat_lt
  have hoffset := offset.isLt
  apply UInt16.toNat_inj.1
  rw [UInt16.toNat_add, word_toNat, word_toNat]
  simp
  omega

theorem copyToOam_eq_ok (b : Bus) (page : UInt8) :
    copyToOam b page = .ok (b.copyToOam page) := by
  have hrange : List.range 160 = (List.finRange 160).map Fin.val :=
    (List.map_coe_finRange_eq_range).symm
  have hlimit : Width.word.limit = 0x10000 := rfl
  rw [copyToOam, Bus.copyToOam, hrange]
  generalize List.finRange 160 = offsets
  induction offsets generalizing b with
  | nil => rfl
  | cons offset offsets ih =>
    rw [List.map_cons, List.foldlM_cons, List.foldl_cons, ← ih, word_zero_add, read_eq_ok,
      ok_bind, add_eq_ok (by omega), ok_bind, writeOam_eq_ok _ offset _ rfl, ok_bind]
    rfl

theorem switchBoot_eq_ok {b : Bus} (h : ∀ c ∈ b.cartridge, c.OverlayFits) (value : UInt8) :
    switchBoot b value = .ok (b.switchBoot value) := by
  unfold switchBoot Bus.switchBoot
  split
  · cases hc : b.cartridge with
    | none => simp [pure_eq_ok]
    | some c => simp [unmapBoot_eq_ok (h c hc), ok_bind, pure_eq_ok]
  · rfl

theorem writeScreen_eq {b : Bus} {address : UInt16} {r : ScreenRegister}
    (hr : ScreenRegister.ofAddress? address = some r) (value : UInt8) :
    writeScreen b address value = b.writeScreen value r := by
  simp only [writeScreen, Bus.writeScreen, Screen.writeAt, hr]

/-- Writing the bus meets no fault while a boot ROM fits its ROM. -/
theorem write_eq_ok {b : Bus} (h : ∀ c ∈ b.cartridge, c.OverlayFits) (address : UInt16)
    (value : UInt8) : write b address value = .ok (b.write address value) := by
  have haddress : UInt16.ofNat address.toNat = address := UInt16.ofNat_toNat
  have hanswers := Place.answers_ofAddress address
  unfold write Bus.write
  dsimp only
  generalize Place.ofAddress address = place at hanswers
  generalize address.toNat = n at haddress hanswers
  cases place with
  | cartridge =>
    have hrange : n < 0x8000 ∨ 0xA000 ≤ n ∧ n < 0xC000 := hanswers
    rw [if_pos hrange]
    cases b with
    | mk cartridge =>
      cases cartridge with
      | none => rfl
      | some c => simp [writeCartridge_eq_ok, ok_bind, pure_eq_ok]
  | vram offset =>
    have hn : n = 0x8000 + offset.val := hanswers
    have hlt := offset.isLt
    simp (disch := omega) only [if_pos, if_neg, sub_eq_offset hn, ok_bind, vramMask_eq,
      set_eq_ok hlt, pure_eq_ok]
  | work offset =>
    have hlt := offset.isLt
    obtain hn | ⟨hn, hecho⟩ := hanswers
    all_goals
      simp (disch := omega) only [if_pos, if_neg, sub_eq_offset hn, ok_bind, set_eq_ok hlt,
        pure_eq_ok]
  | oam offset =>
    have hn : n = 0xFE00 + offset.val := hanswers
    have hlt := offset.isLt
    simp (disch := omega) only [if_pos, if_neg, writeOam_eq_ok _ offset _ hn, ok_bind, pure_eq_ok]
    rfl
  | unusable =>
    obtain ⟨hlow, hhigh⟩ := hanswers
    simp (disch := omega) only [if_pos, if_neg, pure_eq_ok]
  | joypad | requests | enables =>
    have hn : n = _ := hanswers
    simp (disch := omega) only [if_pos, if_neg, pure_eq_ok]
  | bootSwitch =>
    have hn : n = _ := hanswers
    simp (disch := omega) only [if_pos, if_neg, switchBoot_eq_ok h]
  | timer r =>
    obtain ⟨hrange, hr⟩ := hanswers
    rw [haddress] at hr
    simp (disch := omega) only [if_pos, if_neg, Timer.writeAt, hr, pure_eq_ok]
  | screen r =>
    obtain ⟨hrange, hr⟩ := hanswers
    rw [haddress] at hr
    have hn : n = r.address.toNat := by
      rw [ScreenRegister.address_of_ofAddress? hr, ← haddress,
        UInt16.toNat_ofNat_of_lt' (Nat.lt_of_le_of_lt hrange.2 (by decide))]
    cases r with
    | dma =>
      have hdma : n = 0xFF46 := hn
      simp (disch := omega) only [if_pos, if_neg, writeScreen_eq hr, copyToOam_eq_ok]
    | _ =>
      have hother : n ≠ 0xFF46 := by
        rw [hn]
        decide
      simp (disch := omega) only [if_pos, if_neg, writeScreen_eq hr, pure_eq_ok]
  | scratch offset =>
    obtain ⟨hn, hothers⟩ := hanswers
    have hlt := offset.isLt
    simp (disch := omega) only [if_pos, if_neg, sub_eq_offset hn, ok_bind, set_eq_ok hlt,
      pure_eq_ok]
  | high offset =>
    have hn : n = 0xFF80 + offset.val := hanswers
    have hlt := offset.isLt
    simp (disch := omega) only [if_pos, if_neg, sub_eq_offset hn, ok_bind, set_eq_ok hlt,
      pure_eq_ok]

end Checked

/-! ## Soundness -/

/-- A bus on which no access meets a fault. -/
structure Bus.Sound (b : Bus) : Prop where
  overlay : ∀ c ∈ b.cartridge, c.OverlayFits
  timer : b.timer.Sound

namespace Bus

variable {b : Bus}

theorem Sound.of_eq {other : Bus} (h : b.Sound) (hcartridge : other.cartridge = b.cartridge)
    (htimer : other.timer = b.timer) : other.Sound :=
  ⟨hcartridge ▸ h.overlay, htimer ▸ h.timer⟩

/-- What is done to the cartridge keeps a bus sound if it keeps the overlay
within the ROM. -/
theorem Sound.mapCartridge (h : b.Sound) (f : Cartridge → Cartridge)
    (hf : ∀ c : Cartridge, c.OverlayFits → (f c).OverlayFits) {other : Bus}
    (hcartridge : other.cartridge = b.cartridge.map f) (htimer : other.timer = b.timer) :
    other.Sound := by
  refine ⟨?_, htimer ▸ h.timer⟩
  intro c hc
  rw [hcartridge] at hc
  obtain ⟨before, hbefore, rfl⟩ := Option.map_eq_some_iff.1 hc
  exact hf before (h.overlay before hbefore)

theorem Sound.copyToOam (h : b.Sound) (page : UInt8) : (b.copyToOam page).Sound :=
  copyToOam_induction (fun _ _ _ h => h.of_eq rfl rfl) h page

theorem Sound.write (h : b.Sound) (address : UInt16) (value : UInt8) :
    (b.write address value).Sound := by
  unfold Bus.write
  cases Place.ofAddress address with
  | cartridge => exact h.mapCartridge _ (fun _ hc => hc.write address value) rfl rfl
  | timer r => exact ⟨h.overlay, h.timer.write value r⟩
  | screen r =>
    cases r with
    | dma =>
      have hwritten : (b.writeScreen value .dma).Sound := h.of_eq rfl rfl
      exact hwritten.copyToOam value
    | _ => exact h.of_eq rfl rfl
  | bootSwitch =>
    simp only
    unfold switchBoot
    split
    · exact h.mapCartridge _ (fun _ _ => Cartridge.overlayFits_of_none rfl) rfl rfl
    · exact h
  | _ => exact h.of_eq rfl rfl

theorem Sound.writeAll (h : b.Sound) (writes : List (UInt16 × UInt8)) :
    (b.writeAll writes).Sound := by
  unfold Bus.writeAll
  induction writes generalizing b with
  | nil => exact h
  | cons w writes ih => exact ih (h.write w.1 w.2)

theorem Sound.advanceTimer (h : b.Sound) (cycles : Nat) : (b.advanceTimer cycles).Sound :=
  ⟨h.overlay, h.timer.advance cycles⟩

theorem Sound.installBoot (h : b.Sound) (boot : Array UInt8) : (b.installBoot boot).Sound := by
  unfold Bus.installBoot
  split
  · exact h.of_eq rfl rfl
  · exact h.mapCartridge _ (fun c _ => c.overlayFits_mapBoot boot) rfl rfl

theorem Sound.insert (h : b.Sound) {c : Cartridge} (hc : c.OverlayFits) : (b.insert c).Sound := by
  refine ⟨?_, h.timer⟩
  rintro _ ⟨⟩
  unfold underBoot
  split
  · split
    · exact hc
    · exact c.overlayFits_mapBoot _
  · exact hc

end Bus

theorem Checked.advanceBusTimer_of_fits {b : Bus} {cycles : Nat} (h : b.timer.Fits cycles) :
    advanceBusTimer b cycles = .ok (b.advanceTimer cycles) := by
  rw [advanceBusTimer, advanceTimer_of_fits h]
  rfl

/-- The timer of a sound bus counts the cycles of a step without a fault. -/
theorem Checked.advanceBusTimer_eq_ok {b : Bus} (h : b.Sound) {cycles : Nat}
    (hcycles : cycles ≤ 11) : advanceBusTimer b cycles = .ok (b.advanceTimer cycles) :=
  advanceBusTimer_of_fits (h.timer.fits hcycles)

end Handheld
