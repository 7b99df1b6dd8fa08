import Handheld.Proofs.Bus.Slot

/-!
# Requests on the bus

The request register has one bit for each interrupt.  The timer and the screen
only ever set bits of it, and so does every write but the one to the register
itself.  Withdrawing the request of one interrupt leaves those of the others.

* The bits of a register: `isSet_zero`, `isSet_or`, `isSet_clear` and `isSet_of_nextPending`.
* The bus.  `Raises` says that a bus has every request of another and perhaps
  more; time and writes beside the register raise.
-/

namespace Handheld

/-! ## The bits of a register -/

theorem or_and_mask (bits more mask : UInt8) :
    (bits ||| more) &&& mask = bits &&& mask ||| more &&& mask := by
  rw [← UInt8.toNat_inj]
  simp only [UInt8.toNat_and, UInt8.toNat_or]
  exact Nat.and_or_distrib_right _ _ _

namespace Interrupt

variable (i : Interrupt)

theorem isSet_zero : i.isSet 0 = false := by
  cases i <;> decide

theorem isSet_or (bits more : UInt8) :
    i.isSet (bits ||| more) = (i.isSet bits || i.isSet more) := by
  unfold isSet
  rw [or_and_mask]
  by_cases hbits : bits &&& i.mask = 0
  · rw [hbits, UInt8.zero_or]
    rfl
  · have hboth : ¬ (bits &&& i.mask ||| more &&& i.mask = 0) := fun h =>
      hbits (UInt8.or_eq_zero_iff.1 h).1
    rw [bne_iff_ne.2 hboth, bne_iff_ne.2 hbits, Bool.true_or]

theorem isSet_clear (other : Interrupt) (bits : UInt8) :
    i.isSet (other.clear bits) = (i.isSet bits && i != other) := by
  have hmask : ~~~other.mask &&& i.mask = if i = other then 0 else i.mask := by
    cases i <;> cases other <;> rfl
  unfold isSet clear
  rw [UInt8.and_assoc, hmask]
  by_cases hsame : i = other
  · simp [hsame]
  · simp [hsame]

/-- An interrupt that is pending is requested. -/
theorem isSet_of_nextPending {i : Interrupt} {requests enabled : UInt8}
    (h : nextPending requests enabled = some i) : i.isSet requests = true := by
  have hset : i.isSet (requests &&& enabled &&& wired) = true := by
    unfold nextPending at h
    have hfound := List.find?_some h
    exact hfound
  simp only [isSet, bne_iff_ne] at hset ⊢
  intro hclear
  have hmasked : requests &&& enabled &&& wired &&& i.mask =
      (requests &&& i.mask) &&& (enabled &&& wired) := by
    simp only [UInt8.and_assoc, UInt8.and_comm i.mask]
  rw [hmasked, hclear, UInt8.zero_and] at hset
  exact hset rfl

end Interrupt

/-! ## The bus -/

namespace Bus

/-- A bus has every request of another, and perhaps more. -/
def Raises (b after : Bus) : Prop :=
  ∃ raised, after.requests = b.requests ||| raised

variable {b : Bus}

theorem Raises.of_eq {after : Bus} (h : after.requests = b.requests) : b.Raises after :=
  ⟨0, by rw [h, UInt8.or_zero]⟩

theorem Raises.trans {after later : Bus} (h : b.Raises after) (h' : after.Raises later) :
    b.Raises later := by
  obtain ⟨raised, hraised⟩ := h
  obtain ⟨more, hmore⟩ := h'
  exact ⟨raised ||| more, by rw [hmore, hraised, UInt8.or_assoc]⟩

theorem Raises.isSet {after : Bus} (h : b.Raises after) {i : Interrupt}
    (hset : i.isSet b.requests = true) : i.isSet after.requests = true := by
  obtain ⟨raised, hraised⟩ := h
  rw [hraised, i.isSet_or, hset, Bool.true_or]

theorem raises_advanceTimer (b : Bus) (cycles : Nat) : b.Raises (b.advanceTimer cycles) := by
  cases hpassed : (b.timer.advance cycles).2 with
  | false => exact .of_eq (by simp only [advanceTimer, hpassed]; rfl)
  | true => exact ⟨Interrupt.timer.mask, by simp only [advanceTimer, hpassed]; rfl⟩

theorem raises_advanceScreen (b : Bus) (cycles : Nat) : b.Raises (b.advanceScreen cycles) :=
  ⟨_, rfl⟩

/-- A write beside the request register withdraws no request. -/
theorem raises_write (b : Bus) {address : UInt16} (value : UInt8) (h : address ≠ 0xFF0F) :
    b.Raises (b.write address value) := by
  unfold write
  cases hplace : Place.ofAddress address with
  | requests =>
    have hanswers := Place.answers_ofAddress address
    rw [hplace] at hanswers
    have hrequests : address.toNat = 0xFF0F := hanswers
    exact absurd (UInt16.toNat_inj.1 hrequests) h
  | screen r =>
    cases r with
    | dma =>
      simp only
      rw [copyToOam_eq]
      exact ⟨_, rfl⟩
    | _ => exact ⟨_, rfl⟩
  | bootSwitch =>
    simp only [switchBoot]
    split
    · exact .of_eq rfl
    · exact .of_eq rfl
  | _ => exact .of_eq rfl

end Bus
end Handheld
