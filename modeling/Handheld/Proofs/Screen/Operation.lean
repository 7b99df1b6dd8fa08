import Handheld.Screen.Register

/-!
# Operations on the screen

Whatever happens to a screen comes through one of eight operations: time
passes, a register or a memory is read or written, or the completed picture is
taken.  A history of a screen is a list of operations, and the reachable
screens are those with a history that starts at one of the two initial states.

There are two groups.

* The operations and their histories.  `run_append` cuts a history in two.
* The induction over dots.  `passAll_induction` is the only place that looks
  into the loop of `passAll`.
-/

namespace Handheld

/-- What can be done to a screen. -/
inductive ScreenOp where
  | advance (cycles : Nat)
  | writeRegister (address : UInt16) (value : UInt8)
  | readRegister (address : UInt16)
  | writeVram (address : UInt16) (value : UInt8)
  | readVram (address : UInt16)
  | writeOam (address : UInt16) (value : UInt8)
  | readOam (address : UInt16)
  | takeFrame
  deriving DecidableEq, Repr

namespace ScreenOp

/-- The machine cycles that an operation takes. -/
def cycles : ScreenOp → Nat
  | advance cycles => cycles
  | _ => 0

/-- Whether an operation writes a register or a memory. -/
def isWrite : ScreenOp → Bool
  | writeRegister .. | writeVram .. | writeOam .. => true
  | _ => false

/-- Whether an operation leaves a screen that is on switched off. -/
def switchesOff : ScreenOp → Bool
  | writeRegister address value => address == 0xFF40 && value &&& 0x80 == 0
  | _ => false

theorem cycles_eq_zero_of_isWrite {op : ScreenOp} (h : op.isWrite = true) :
    op.cycles = 0 := by
  cases op <;> first | rfl | simp [isWrite] at h

end ScreenOp

/-- The machine cycles that a history takes. -/
def cyclesOf : List ScreenOp → Nat
  | [] => 0
  | op :: ops => op.cycles + cyclesOf ops

@[simp] theorem cyclesOf_nil : cyclesOf [] = 0 := rfl

@[simp] theorem cyclesOf_cons (op : ScreenOp) (ops : List ScreenOp) :
    cyclesOf (op :: ops) = op.cycles + cyclesOf ops := rfl

@[simp] theorem cyclesOf_append (ops more : List ScreenOp) :
    cyclesOf (ops ++ more) = cyclesOf ops + cyclesOf more := by
  induction ops with
  | nil => rw [List.nil_append, cyclesOf_nil, Nat.zero_add]
  | cons op ops ih => rw [List.cons_append, cyclesOf_cons, ih, cyclesOf_cons, Nat.add_assoc]

namespace Screen

/-! ## Histories -/

/-- The screen after an operation, and the interrupts that it requests.  What
a read answers is no part of the screen. -/
def perform (s : Screen) : ScreenOp → Screen × UInt8
  | .advance cycles => s.advance cycles
  | .writeRegister address value => s.writeAt address value
  | .writeVram address value => (s.writeVram address value, 0)
  | .writeOam address value => (s.writeOam address value, 0)
  | .takeFrame => (s.takeFrame, 0)
  | .readRegister _ | .readVram _ | .readOam _ => (s, 0)

/-- The screen after an operation. -/
def apply (s : Screen) (op : ScreenOp) : Screen :=
  (s.perform op).1

/-- The screen after a history. -/
def run (s : Screen) (ops : List ScreenOp) : Screen :=
  ops.foldl apply s

@[simp] theorem run_nil (s : Screen) : s.run [] = s := rfl

@[simp] theorem run_cons (s : Screen) (op : ScreenOp) (ops : List ScreenOp) :
    s.run (op :: ops) = (s.apply op).run ops := rfl

@[simp] theorem run_append (s : Screen) (ops more : List ScreenOp) :
    s.run (ops ++ more) = (s.run ops).run more := by
  simp [run]

/-- The screens that the operations reach from the two initial states. -/
inductive Reachable : Screen → Prop where
  | powerOn : Reachable .powerOn
  | postBoot : Reachable .postBoot
  | apply {s : Screen} (op : ScreenOp) : Reachable s → Reachable (s.apply op)

theorem Reachable.run {s : Screen} (h : s.Reachable) (ops : List ScreenOp) :
    (s.run ops).Reachable := by
  induction ops generalizing s with
  | nil => exact h
  | cons op ops ih =>
    rw [run_cons]
    exact ih (h.apply op)

theorem Reachable.exists_history {s : Screen} (h : s.Reachable) :
    ∃ (start : Screen) (ops : List ScreenOp),
      (start = .powerOn ∨ start = .postBoot) ∧ s = start.run ops := by
  induction h with
  | powerOn => exact ⟨.powerOn, [], Or.inl rfl, rfl⟩
  | postBoot => exact ⟨.postBoot, [], Or.inr rfl, rfl⟩
  | apply op _ ih =>
    obtain ⟨start, ops, hstart, rfl⟩ := ih
    exact ⟨start, ops ++ [op], hstart, by simp⟩

/-! ## The induction over dots -/

@[simp] theorem passAll_zero (s : Screen) (raised : UInt8) :
    s.passAll 0 raised = (s, raised) := by
  rw [passAll]
  simp

theorem passAll_of_pos (s : Screen) {dots : Nat} (raised : UInt8) (h : 0 < dots) :
    s.passAll dots raised =
      (s.passWithin (s.stretch dots)).1.passAll (dots - s.stretch dots)
        (raised ||| (s.passWithin (s.stretch dots)).2) := by
  rw [passAll]
  simp [h]

/-- What holds at the start, and is carried on by every stretch up to the end
of the mode, holds at the end.  `P elapsed s` is what holds of the screen `s`
after `elapsed` dots. -/
theorem passAll_induction {P : Nat → Screen → Prop}
    (stretch : ∀ (elapsed dots : Nat) (s : Screen), 0 < dots →
      dots ≤ max s.dotsLeft 1 → P elapsed s → P (elapsed + dots) (s.passWithin dots).1)
    (dots : Nat) : ∀ (elapsed : Nat) (s : Screen) (raised : UInt8),
      P elapsed s → P (elapsed + dots) (s.passAll dots raised).1 := by
  induction dots using Nat.strongRecOn with
  | ind dots ih =>
    intro elapsed s raised h
    by_cases hdots : 0 < dots
    · have hpos : 0 < s.stretch dots := s.stretch_pos hdots
      have hle : s.stretch dots ≤ dots := Nat.min_le_left _ _
      have hmode : s.stretch dots ≤ max s.dotsLeft 1 := Nat.min_le_right _ _
      have hnow := stretch elapsed (s.stretch dots) s hpos hmode h
      have hrest := ih (dots - s.stretch dots) (by omega) _ _
        (raised ||| (s.passWithin (s.stretch dots)).2) hnow
      rw [passAll_of_pos s raised hdots]
      rwa [show elapsed + dots = elapsed + s.stretch dots + (dots - s.stretch dots) by omega]
    · obtain rfl : dots = 0 := by omega
      simpa using h

end Screen
end Handheld
