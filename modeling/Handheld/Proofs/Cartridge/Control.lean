import Mathlib.Algebra.Ring.Nat
import Mathlib.Data.List.Induction
import Handheld.Cartridge.Basic

/-!
# What writes leave in the registers of a controller

Each of the four registers of a banking controller owns a range of the
addresses of the ROM, and keeps what was written there last.  So the banks that
a cartridge shows are known from the writes since it was loaded.  Without
banking they never change.

There are three groups.

* Histories of writes.  `lastWritten` is the value written last to a range.
* The banks after a history, in numbers: `Controller.romBankAfter`,
  `Controller.ramEnabledAfter` and `Controller.ramBankAfter`.
* The registers.  `banking_writeAll` says what they hold after a history, and
  the three theorems behind it that these are the banks in numbers.
-/

namespace Handheld

/-! ## Histories of writes -/

/-- The value written last to the addresses from `start` up to `stop`. -/
def lastWritten (start stop : UInt16) (writes : List (UInt16 × UInt8)) : Option UInt8 :=
  ((writes.filter fun w => start ≤ w.1 ∧ w.1 < stop).getLast?).map Prod.snd

theorem lastWritten_concat (start stop : UInt16) (writes : List (UInt16 × UInt8))
    (w : UInt16 × UInt8) :
    lastWritten start stop (writes ++ [w]) =
      if start.toNat ≤ w.1.toNat ∧ w.1.toNat < stop.toNat then some w.2
      else lastWritten start stop writes := by
  simp only [lastWritten, List.filter_append, List.filter_cons, List.filter_nil,
    decide_eq_true_eq, UInt16.le_iff_toNat_le, UInt16.lt_iff_toNat_lt]
  split
  · simp
  · rw [List.append_nil]

/-! ## The banks after a history -/

namespace Controller

/-- The ROM bank that the second window shows: the five low bits of what was
written last to 2000-3FFF.  Bank 0 is never shown there. -/
def romBankAfter : Controller → List (UInt16 × UInt8) → Nat
  | romOnly, _ => 1
  | mbc1, writes =>
    match lastWritten 0x2000 0x4000 writes with
    | some value => if value.toNat % 32 = 0 then 1 else value.toNat % 32
    | none => 1

/-- Whether the RAM is enabled: the low nibble of what was written last to
0000-1FFF is ten. -/
def ramEnabledAfter : Controller → List (UInt16 × UInt8) → Bool
  | romOnly, _ => true
  | mbc1, writes => (lastWritten 0 0x2000 writes).any fun value => value.toNat % 16 == 10

/-- The RAM bank that the RAM window shows: the two low bits of what was
written last to 4000-5FFF, if what was written last to 6000-7FFF is odd. -/
def ramBankAfter : Controller → List (UInt16 × UInt8) → Nat
  | romOnly, _ => 0
  | mbc1, writes =>
    if (lastWritten 0x6000 0x8000 writes).any fun value => value.toNat % 2 == 1 then
      ((lastWritten 0x4000 0x6000 writes).getD 0).toNat % 4
    else 0

theorem romBankAfter_bounds (k : Controller) (writes : List (UInt16 × UInt8)) :
    1 ≤ k.romBankAfter writes ∧ k.romBankAfter writes ≤ 31 := by
  cases k with
  | romOnly =>
    simp only [romBankAfter]
    omega
  | mbc1 =>
    simp only [romBankAfter]
    split
    · split <;> omega
    · omega

end Controller

namespace Cartridge

/-! ## The registers -/

/-- Writes from the bus, one after another. -/
def writeAll (c : Cartridge) (writes : List (UInt16 × UInt8)) : Cartridge :=
  writes.foldl (fun c w => c.write w.1 w.2) c

@[simp] theorem writeAll_nil (c : Cartridge) : c.writeAll [] = c := rfl

@[simp] theorem writeAll_concat (c : Cartridge) (writes : List (UInt16 × UInt8))
    (w : UInt16 × UInt8) : c.writeAll (writes ++ [w]) = (c.writeAll writes).write w.1 w.2 := by
  simp [writeAll]

/-- A write reaches the registers at the addresses of the ROM, if there is
banking. -/
theorem write_banking (c : Cartridge) (address : UInt16) (value : UInt8) :
    (c.write address value).banking =
      if c.controller = .mbc1 ∧ address < 0x8000 then control c.banking address value
      else c.banking := by
  unfold write
  by_cases hrom : address < 0x8000
  · cases hk : c.controller <;> simp [hrom]
  · simp only [hrom, and_false, if_false]
    split
    · cases c.ramOffset? address <;> rfl
    · rfl

/-- Besides the registers a write changes the RAM, and nothing else. -/
theorem write_eq (c : Cartridge) (address : UInt16) (value : UInt8) :
    c.write address value =
      { c with
        ram := (c.write address value).ram
        banking := (c.write address value).banking } := by
  unfold write
  split
  · split <;> rfl
  · split
    · cases c.ramOffset? address <;> rfl
    · rfl

theorem write_controller (c : Cartridge) (address : UInt16) (value : UInt8) :
    (c.write address value).controller = c.controller := by
  rw [write_eq]

theorem writeAll_controller (c : Cartridge) (writes : List (UInt16 × UInt8)) :
    (c.writeAll writes).controller = c.controller := by
  induction writes using List.reverseRecOn with
  | nil => rfl
  | append_singleton writes w ih => rw [writeAll_concat, write_controller, ih]

/-- The registers after a history of writes. -/
def bankingAfter (writes : List (UInt16 × UInt8)) : Banking where
  romBank := (lastWritten 0x2000 0x4000 writes).elim 1 selectedRomBank
  ramBank := (lastWritten 0x4000 0x6000 writes).elim 0 (· &&& 0x03)
  ramEnabled := (lastWritten 0 0x2000 writes).elim false (· &&& 0x0F == 0x0A)
  ramBanking := (lastWritten 0x6000 0x8000 writes).elim false (· &&& 0x01 != 0)

/-- A write to the ROM reaches the one register that owns its address. -/
theorem control_bankingAfter (writes : List (UInt16 × UInt8)) {w : UInt16 × UInt8}
    (h : w.1 < 0x8000) :
    control (bankingAfter writes) w.1 w.2 = bankingAfter (writes ++ [w]) := by
  simp only [UInt16.lt_iff_toNat_lt, UInt16.reduceToNat] at h
  unfold control bankingAfter
  simp only [UInt16.lt_iff_toNat_lt, UInt16.reduceToNat, lastWritten_concat]
  by_cases h1 : w.1.toNat < 0x2000
  · simp (disch := omega) only [if_pos, if_neg, Option.elim_some]
  by_cases h2 : w.1.toNat < 0x4000
  · simp (disch := omega) only [if_pos, if_neg, Option.elim_some]
  by_cases h3 : w.1.toNat < 0x6000
  · simp (disch := omega) only [if_pos, if_neg, Option.elim_some]
  · simp (disch := omega) only [if_pos, if_neg, Option.elim_some]

theorem bankingAfter_concat_of_le (writes : List (UInt16 × UInt8)) {w : UInt16 × UInt8}
    (h : 0x8000 ≤ w.1.toNat) : bankingAfter (writes ++ [w]) = bankingAfter writes := by
  unfold bankingAfter
  simp only [lastWritten_concat, UInt16.reduceToNat]
  simp (disch := omega) only [if_neg]

/-- The registers hold what the history left in them, if there is banking. -/
theorem banking_writeAll {c : Cartridge} (h : c.banking = .initial c.controller)
    (writes : List (UInt16 × UInt8)) :
    (c.writeAll writes).banking =
      match c.controller with
      | .romOnly => .initial .romOnly
      | .mbc1 => bankingAfter writes := by
  induction writes using List.reverseRecOn with
  | nil =>
    rw [writeAll_nil, h]
    cases c.controller <;> rfl
  | append_singleton writes w ih =>
    rw [writeAll_concat, write_banking, writeAll_controller, ih]
    cases c.controller with
    | romOnly => rfl
    | mbc1 =>
      by_cases hrom : w.1 < 0x8000
      · simp only [hrom, and_self, if_true, control_bankingAfter]
      · simp only [hrom, and_false, if_false]
        have hle : 0x8000 ≤ w.1.toNat := by
          simpa [UInt16.lt_iff_toNat_lt] using hrom
        rw [bankingAfter_concat_of_le writes hle]

/-- A mask of low bits takes a remainder. -/
theorem toNat_and_mask (value mask : UInt8) {n : Nat} (h : mask.toNat = 2 ^ n - 1) :
    (value &&& mask).toNat = value.toNat % 2 ^ n := by
  rw [UInt8.toNat_and, h, Nat.and_two_pow_sub_one_eq_mod]

section

variable {c : Cartridge} (h : c.banking = .initial c.controller)
  (writes : List (UInt16 × UInt8))
include h

theorem romBank_writeAll :
    (c.writeAll writes).banking.romBank.toNat = c.controller.romBankAfter writes := by
  rw [banking_writeAll h]
  cases c.controller with
  | romOnly => rfl
  | mbc1 =>
    simp only [bankingAfter, Controller.romBankAfter]
    cases lastWritten 0x2000 0x4000 writes with
    | none => rfl
    | some value =>
      have hmask := toNat_and_mask value 0x1F (n := 5) rfl
      simp only [Option.elim_some, selectedRomBank, ← UInt8.toNat_inj, hmask]
      split <;> simp_all

theorem ramEnabled_writeAll :
    (c.writeAll writes).banking.ramEnabled = c.controller.ramEnabledAfter writes := by
  rw [banking_writeAll h]
  cases c.controller with
  | romOnly => rfl
  | mbc1 =>
    simp only [bankingAfter, Controller.ramEnabledAfter]
    cases lastWritten 0 0x2000 writes with
    | none => rfl
    | some value =>
      have hmask := toNat_and_mask value 0x0F (n := 4) rfl
      simp only [Option.elim_some, Option.any_some]
      rw [Bool.eq_iff_iff]
      simp [← UInt8.toNat_inj, hmask]

theorem mappedRamBank_writeAll :
    (c.writeAll writes).mappedRamBank = c.controller.ramBankAfter writes := by
  rw [mappedRamBank, banking_writeAll h]
  cases c.controller with
  | romOnly => rfl
  | mbc1 =>
    have hmode : (bankingAfter writes).ramBanking =
        (lastWritten 0x6000 0x8000 writes).any fun value => value.toNat % 2 == 1 := by
      simp only [bankingAfter]
      cases lastWritten 0x6000 0x8000 writes with
      | none => rfl
      | some value =>
        have hmask := toNat_and_mask value 0x01 (n := 1) rfl
        simp only [Option.elim_some, Option.any_some]
        rw [Bool.eq_iff_iff]
        simp [← UInt8.toNat_inj, hmask]
    have hbank : (bankingAfter writes).ramBank.toNat =
        ((lastWritten 0x4000 0x6000 writes).getD 0).toNat % 4 := by
      simp only [bankingAfter]
      cases lastWritten 0x4000 0x6000 writes with
      | none => rfl
      | some value => exact toNat_and_mask value 0x03 (n := 2) rfl
    simp only [hmode, hbank, Controller.ramBankAfter]

end

end Cartridge
end Handheld
