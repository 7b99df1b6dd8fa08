import Mathlib.Tactic.Push
import Handheld.Joypad
import Handheld.Word

/-!
# What P1 shows

A button is in the state that the latest event has put it in, and P1 shows four of
them at a time.

There are four groups.

* The byte of the buttons.  `Buttons.isPressed_set` says what an event does to each of
  them, and `Buttons.ext_isPressed` that there is nothing else in the byte.
* The register.  `Joypad.showsGroup_read` says which bit is which button.
* Histories.  `Joypad.operateAll` runs through what can happen to a joypad, and
  `Joypad.isPressed_operateAll` reads a button off the history.
* Interleavings.  Two histories that concern different buttons lead to the same state
  however they are interleaved, `Joypad.operateAll_interleaving`.
-/

namespace Handheld

/-! ## The byte of the buttons -/

namespace Button

theorem mask_toNat (button : Button) : button.mask.toNat = 1 <<< button.ctorIdx := by
  cases button <;> rfl

theorem ctorIdx_inj {button other : Button} :
    button.ctorIdx = other.ctorIdx ↔ button = other := by
  constructor
  · intro h
    cases button <;> cases other <;> first | rfl | exact absurd h (by decide)
  · rintro rfl
    rfl

theorem exists_ctorIdx {k : Nat} (h : k < 8) : ∃ button : Button, button.ctorIdx = k := by
  match k, h with
  | 0, _ => exact ⟨.a, rfl⟩
  | 1, _ => exact ⟨.b, rfl⟩
  | 2, _ => exact ⟨.select, rfl⟩
  | 3, _ => exact ⟨.start, rfl⟩
  | 4, _ => exact ⟨.right, rfl⟩
  | 5, _ => exact ⟨.left, rfl⟩
  | 6, _ => exact ⟨.up, rfl⟩
  | 7, _ => exact ⟨.down, rfl⟩

end Button

/-- A byte has eight bits. -/
theorem testBit_byte (byte : UInt8) {k : Nat} (h : 8 ≤ k) : byte.toNat.testBit k = false := by
  refine Nat.testBit_lt_two_pow (Nat.lt_of_lt_of_le byte.toNat_lt ?_)
  exact Nat.pow_le_pow_right (by decide) h

theorem byte_ext {x y : UInt8} (h : ∀ k, x.toNat.testBit k = y.toNat.testBit k) : x = y :=
  UInt8.toNat_inj.1 (Nat.eq_of_testBit_eq h)

theorem testBit_not (byte : UInt8) {k : Nat} (h : k < 8) :
    (~~~byte).toNat.testBit k = !byte.toNat.testBit k := by
  rw [← UInt8.toNat_toBitVec, ← UInt8.toNat_toBitVec, UInt8.toBitVec_not, BitVec.testBit_toNat,
    BitVec.testBit_toNat, BitVec.getLsbD_not, decide_eq_true h, Bool.true_and]

namespace Buttons

variable (s : Buttons)

theorem isPressed_eq_testBit (button : Button) :
    s.isPressed button = !s.bits.toNat.testBit button.ctorIdx := by
  rw [← and_mask_eq_testBit s.bits button.mask button.ctorIdx button.mask_toNat, isPressed, bne,
    Bool.not_not]

/-- An event changes its own button only. -/
theorem isPressed_set (button : Button) (pressed : Bool) (other : Button) :
    (s.set button pressed).isPressed other =
      if button = other then pressed else s.isPressed other := by
  have hmask : button.mask.toNat.testBit other.ctorIdx = decide (button = other) := by
    rw [button.mask_toNat, Nat.one_shiftLeft, Nat.testBit_two_pow]
    exact decide_eq_decide.2 Button.ctorIdx_inj
  have hindex : other.ctorIdx < 8 := by cases other <;> decide
  rw [isPressed_eq_testBit, isPressed_eq_testBit, set]
  cases pressed with
  | true =>
    rw [if_pos rfl, UInt8.toNat_and, Nat.testBit_and, testBit_not _ hindex, hmask]
    by_cases heq : button = other <;> simp [heq]
  | false =>
    rw [if_neg (by decide), UInt8.toNat_or, Nat.testBit_or, hmask]
    by_cases heq : button = other <;> simp [heq]

theorem isPressed_released (button : Button) : isPressed {} button = false := by
  cases button <;> rfl

/-- The state of the buttons is whether each of them is down. -/
theorem ext_isPressed {s t : Buttons} (h : ∀ button, s.isPressed button = t.isPressed button) :
    s = t := by
  have hbits : s.bits = t.bits := byte_ext fun k => by
    by_cases hk : k < 8
    · obtain ⟨button, rfl⟩ := Button.exists_ctorIdx hk
      have hbutton := h button
      rw [isPressed_eq_testBit, isPressed_eq_testBit] at hbutton
      exact Bool.not_inj hbutton
    · rw [testBit_byte _ (Nat.not_lt.1 hk), testBit_byte _ (Nat.not_lt.1 hk)]
  obtain ⟨bits⟩ := s
  exact congrArg mk hbits

end Buttons

/-! ## The register -/

/-- The buttons that P1 shows, from bit 0 upwards. -/
def shownButtons (actions : Bool) : List Button :=
  if actions then [.a, .b, .select, .start] else [.right, .left, .up, .down]

/-- A reading of P1 that shows the group of buttons that a written value selects. -/
structure ShowsGroup (value reading : UInt8) (isPressed : Button → Bool) : Prop where
  /-- A button is seen as a cleared bit while it is down. -/
  buttons : ∀ k button, (shownButtons (value.toNat.testBit 4))[k]? = some button →
    reading.toNat.testBit k = !isPressed button
  /-- The other bits are the selection. -/
  selection : ∀ k, 4 ≤ k →
    reading.toNat.testBit k = (value.toNat.testBit k && decide (k = 4 ∨ k = 5))

theorem testBit_selection (value : UInt8) (k : Nat) :
    (value &&& 0x30).toNat.testBit k = (value.toNat.testBit k && decide (k = 4 ∨ k = 5)) := by
  have hmask : (0x30 : UInt8).toNat = 2 ^ 4 ||| 2 ^ 5 := rfl
  rw [UInt8.toNat_and, Nat.testBit_and, hmask, Nat.testBit_or, Nat.testBit_two_pow,
    Nat.testBit_two_pow, ← Bool.decide_or, decide_eq_decide.2]
  omega

theorem selection_eq_iff (value : UInt8) :
    value &&& 0x30 = 0x30 ↔ (value.toNat.testBit 4 && value.toNat.testBit 5) = true := by
  constructor
  · intro h
    have hfour := testBit_selection value 4
    have hfive := testBit_selection value 5
    rw [h] at hfour hfive
    rw [Bool.and_eq_true]
    exact ⟨(Bool.and_eq_true_iff.1 hfour.symm).1, (Bool.and_eq_true_iff.1 hfive.symm).1⟩
  · intro h
    obtain ⟨hfour, hfive⟩ := Bool.and_eq_true_iff.1 h
    refine byte_ext fun k => ?_
    have hall := testBit_selection 0x30 k
    rw [UInt8.and_self] at hall
    rw [testBit_selection, hall]
    by_cases hk : k = 4 ∨ k = 5
    · rcases hk with rfl | rfl
      · rw [hfour]
        rfl
      · rw [hfive]
        rfl
    · rw [decide_eq_false hk, Bool.and_false, Bool.and_false]

/-- The buttons of one group, a bit each. -/
def Buttons.lines (s : Buttons) (actions : Bool) : UInt8 :=
  if actions then s.bits &&& 0x0F else s.bits >>> 4

theorem Buttons.testBit_lines (s : Buttons) (actions : Bool) (k : Nat) :
    (s.lines actions).toNat.testBit k =
      (decide (k < 4) && s.bits.toNat.testBit (if actions then k else 4 + k)) := by
  rw [lines]
  cases actions with
  | true =>
    have hmask : (0x0F : UInt8).toNat = 2 ^ 4 - 1 := rfl
    rw [if_pos rfl, if_pos rfl, UInt8.toNat_and, Nat.testBit_and, hmask,
      Nat.testBit_two_pow_sub_one, Bool.and_comm]
  | false =>
    have hshift : (s.bits >>> 4).toNat = s.bits.toNat >>> 4 := UInt8.toNat_shiftRight _ _
    rw [if_neg (by decide), if_neg (by decide), hshift, Nat.testBit_shiftRight]
    by_cases hk : k < 4
    · rw [decide_eq_true hk, Bool.true_and]
    · rw [decide_eq_false hk, Bool.false_and, testBit_byte _ (by omega)]

/-- The lines are the buttons that are shown. -/
theorem Buttons.testBit_lines_of_shown (s : Buttons) {actions : Bool} {k : Nat} {button : Button}
    (h : (shownButtons actions)[k]? = some button) :
    (s.lines actions).toNat.testBit k = !s.isPressed button := by
  have hplace : k < 4 ∧ (if actions then k else 4 + k) = button.ctorIdx := by
    cases actions <;> match k, h with
      | 0, h | 1, h | 2, h | 3, h => cases h; exact ⟨by decide, rfl⟩
  rw [testBit_lines, decide_eq_true hplace.1, hplace.2, Bool.true_and, isPressed_eq_testBit,
    Bool.not_not]

namespace Joypad

/-- With a group selected, P1 shows it. -/
theorem showsGroup_read (j : Joypad) (value : UInt8)
    (h : (value.toNat.testBit 4 && value.toNat.testBit 5) = false) :
    ShowsGroup value (j.write value).read j.buttons.isPressed := by
  have hsome : ¬ value &&& 0x30 = 0x30 := by
    rw [selection_eq_iff, h]
    decide
  have hgroup : ((value &&& 0x30) &&& (0x10 : UInt8) != 0) = value.toNat.testBit 4 := by
    rw [and_mask_eq_testBit _ 0x10 4 rfl, testBit_selection, decide_eq_true (.inl rfl),
      Bool.and_true]
  have hread :
      (j.write value).read = value &&& 0x30 ||| j.buttons.lines (value.toNat.testBit 4) := by
    show (if value &&& 0x30 = 0x30 then 0x3F else value &&& 0x30 |||
      (if (value &&& 0x30) &&& (0x10 : UInt8) != 0 then _ else _)) = _
    rw [if_neg hsome, hgroup]
    rfl
  have hbits : ∀ k, (j.write value).read.toNat.testBit k =
      (value.toNat.testBit k && decide (k = 4 ∨ k = 5) ||
        (j.buttons.lines (value.toNat.testBit 4)).toNat.testBit k) := by
    intro k
    rw [hread, UInt8.toNat_or, Nat.testBit_or, testBit_selection]
  constructor
  · intro k button hbutton
    have hk : k < 4 := by
      have hlength := (List.getElem?_eq_some_iff.1 hbutton).1
      cases hactions : value.toNat.testBit 4 <;> rw [hactions] at hlength <;> exact hlength
    rw [hbits, decide_eq_false (by omega), Bool.and_false, Bool.false_or,
      j.buttons.testBit_lines_of_shown hbutton]
  · intro k hk
    rw [hbits, Buttons.testBit_lines, decide_eq_false (Nat.not_lt.2 hk), Bool.false_and,
      Bool.or_false]

/-- With both selection bits set, P1 shows none. -/
theorem read_of_both (j : Joypad) {value : UInt8}
    (h : (value.toNat.testBit 4 && value.toNat.testBit 5) = true) : (j.write value).read = 0x3F :=
  if_pos ((selection_eq_iff value).2 h)

end Joypad

/-! ## Histories -/

/-- When each step either sets a field or leaves it, the latest step that sets it decides. -/
theorem foldl_latest {σ α β : Type} {step : σ → α → σ} {f : σ → β}
    {told : α → Option β} {history : List α}
    (h : ∀ s, ∀ a ∈ history, f (step s a) = (told a).getD (f s)) (s : σ) :
    f (history.foldl step s) = (history.filterMap told).getLast?.getD (f s) := by
  induction history generalizing s with
  | nil => rfl
  | cons a rest ih =>
    have hrest : ∀ s, ∀ b ∈ rest, f (step s b) = (told b).getD (f s) :=
      fun s b hb => h s b (List.mem_cons_of_mem a hb)
    rw [List.foldl_cons, ih hrest, h s a List.mem_cons_self, List.filterMap_cons]
    cases told a with
    | none => rfl
    | some value =>
      rw [List.getLast?_cons]
      rfl

/-- What can happen to a joypad. -/
inductive JoypadAction where
  /-- Somebody puts a button into a state. -/
  | set (button : Button) (pressed : Bool)
  /-- Somebody has an event applied. -/
  | apply (event : ButtonEvent)
  /-- Somebody has all buttons released. -/
  | releaseAll
  /-- The machine takes an event from its input, with or without focus. -/
  | taken (focused : Bool) (event : ButtonEvent)
  /-- The program writes P1. -/
  | write (value : UInt8)
  deriving DecidableEq, Repr

namespace JoypadAction

/-- The event that the action has applied. -/
def event? : JoypadAction → Option ButtonEvent
  | set button pressed => some { button, pressed }
  | apply event => some event
  | taken focused event => if focused then some event else none
  | releaseAll | write _ => none

/-- What the action tells of a button. -/
def told? (button : Button) (action : JoypadAction) : Option Bool :=
  (action.event?.filter (·.button = button)).map (·.pressed)

/-- The value that the action writes. -/
def value? : JoypadAction → Option UInt8
  | write value => some value
  | _ => none

/-- What the latest event of a history tells of a button. -/
def latest? (button : Button) (history : List JoypadAction) : Option Bool :=
  (history.filterMap (·.told? button)).getLast?

/-- The value that was written last. -/
def lastValue? (history : List JoypadAction) : Option UInt8 :=
  (history.filterMap (·.value?)).getLast?

end JoypadAction

namespace Joypad

open JoypadAction

/-- The joypad after an action. -/
def operate (j : Joypad) : JoypadAction → Joypad
  | .set button pressed => { j with buttons := j.buttons.set button pressed }
  | .apply event => j.apply event
  | .releaseAll => { j with buttons := {} }
  | .taken focused event => if focused then j.apply event else j
  | .write value => j.write value

/-- The joypad after a history. -/
def operateAll (j : Joypad) (history : List JoypadAction) : Joypad :=
  history.foldl operate j

variable (j : Joypad)

theorem operateAll_append (history rest : List JoypadAction) :
    j.operateAll (history ++ rest) = (j.operateAll history).operateAll rest :=
  List.foldl_append

/-- An action tells of a button what it does to it. -/
theorem isPressed_operate {action : JoypadAction} (h : action ≠ .releaseAll) (button : Button) :
    (j.operate action).buttons.isPressed button =
      (action.told? button).getD (j.buttons.isPressed button) := by
  have hset : ∀ event : ButtonEvent, (j.apply event).buttons.isPressed button =
      ((Option.filter (·.button = button) (some event)).map (·.pressed)).getD
        (j.buttons.isPressed button) := by
    intro event
    rw [apply, Buttons.apply, Buttons.isPressed_set, Option.filter_some]
    by_cases heq : event.button = button
    · simp [heq]
    · simp [heq]
  cases action with
  | set other pressed => exact hset { button := other, pressed }
  | apply event => exact hset event
  | releaseAll => exact absurd rfl h
  | taken focused event =>
    cases focused with
    | true => exact hset event
    | false => rfl
  | write value => rfl

/-- The latest event decides, and without one nothing has changed. -/
theorem isPressed_operateAll {history : List JoypadAction} (h : .releaseAll ∉ history)
    (button : Button) : (j.operateAll history).buttons.isPressed button =
      (latest? button history).getD (j.buttons.isPressed button) := by
  refine foldl_latest (f := fun j : Joypad => j.buttons.isPressed button) ?_ j
  intro j action haction
  exact j.isPressed_operate (fun heq => h (heq ▸ haction)) button

/-- When all buttons have been released, only what comes later counts. -/
theorem isPressed_operateAll_released (before : List JoypadAction) {after : List JoypadAction}
    (h : .releaseAll ∉ after) (button : Button) :
    (j.operateAll (before ++ .releaseAll :: after)).buttons.isPressed button =
      (latest? button after).getD false := by
  rw [operateAll_append]
  show (operateAll ((j.operateAll before).operate .releaseAll) after).buttons.isPressed button = _
  rw [isPressed_operateAll _ h]
  exact congrArg _ (Buttons.isPressed_released button)

/-- The group that is selected is that of the value written last. -/
theorem selection_operateAll (history : List JoypadAction) :
    (j.operateAll history).selection =
      ((lastValue? history).map (· &&& 0x30)).getD j.selection := by
  rw [lastValue?, ← List.getLast?_map, List.map_filterMap]
  refine foldl_latest (f := selection) ?_ j
  intro j action _
  cases action with
  | write value => rfl
  | taken focused event => cases focused <;> rfl
  | set | apply | releaseAll => rfl

end Joypad

/-! ## Interleavings -/

/-- The third list is the first and the second one, put together in some order that
keeps theirs. -/
inductive Interleaving {α : Type} : List α → List α → List α → Prop where
  | nil : Interleaving [] [] []
  | left {x : α} {xs ys zs : List α} (rest : Interleaving xs ys zs) :
      Interleaving (x :: xs) ys (x :: zs)
  | right {y : α} {xs ys zs : List α} (rest : Interleaving xs ys zs) :
      Interleaving xs (y :: ys) (y :: zs)

namespace Interleaving

variable {α β : Type} {xs ys zs : List α}

theorem swap (h : Interleaving xs ys zs) : Interleaving ys xs zs := by
  induction h with
  | nil => exact .nil
  | left _ ih => exact ih.right
  | right _ ih => exact ih.left

theorem eq_left (h : Interleaving xs [] zs) : zs = xs := by
  generalize hys : ([] : List α) = ys at h
  induction h with
  | nil => rfl
  | left _ ih => rw [ih hys]
  | right _ _ => cases hys

theorem mem_iff (h : Interleaving xs ys zs) {x : α} : x ∈ zs ↔ x ∈ xs ∨ x ∈ ys := by
  induction h with
  | nil => simp
  | left _ ih => simp only [List.mem_cons, ih, or_assoc]
  | right _ ih => simp only [List.mem_cons, ih, or_left_comm]

/-- What only the first list has stays in its order. -/
theorem filterMap_left (h : Interleaving xs ys zs) {f : α → Option β}
    (hnone : ∀ y ∈ ys, f y = none) : zs.filterMap f = xs.filterMap f := by
  induction h with
  | nil => rfl
  | @left x _ _ _ _ ih =>
    rw [List.filterMap_cons, List.filterMap_cons, ih hnone]
  | @right y _ _ _ _ ih =>
    rw [List.filterMap_cons, hnone y List.mem_cons_self]
    exact ih fun other hother => hnone other (List.mem_cons_of_mem y hother)

end Interleaving

/-- Both actions have events applied, of different buttons. -/
def JoypadAction.Apart (x y : JoypadAction) : Prop :=
  ∃ event other, x.event? = some event ∧ y.event? = some other ∧ event.button ≠ other.button

namespace Joypad

open JoypadAction

variable {xs ys zs zs' : List JoypadAction}

/-- Of two histories that concern different buttons, one does not tell of a button. -/
theorem told_of_apart (h : ∀ x ∈ xs, ∀ y ∈ ys, x.Apart y) (button : Button) :
    (∀ x ∈ xs, x.told? button = none) ∨ ∀ y ∈ ys, y.told? button = none := by
  by_cases hxs : ∀ x ∈ xs, x.told? button = none
  · exact .inl hxs
  · right
    intro y hy
    push Not at hxs
    obtain ⟨x, hx, htold⟩ := hxs
    obtain ⟨event, other, hevent, hother, hne⟩ := h x hx y hy
    have hbutton : event.button = button := by
      refine Decidable.byContradiction fun hdiffer => htold ?_
      simp [told?, hevent, hdiffer]
    have hdiffer : ¬ other.button = button := fun heq => hne (hbutton.trans heq.symm)
    simp [told?, hother, hdiffer]

/-- Histories that concern different buttons lead to one state, however they are
interleaved. -/
theorem operateAll_interleaving (j : Joypad) (h : ∀ x ∈ xs, ∀ y ∈ ys, x.Apart y)
    (hzs : Interleaving xs ys zs) (hzs' : Interleaving xs ys zs') :
    j.operateAll zs = j.operateAll zs' := by
  -- without events in one of them there is but one order
  by_cases hempty : xs = [] ∨ ys = []
  · rcases hempty with rfl | rfl
    · rw [hzs.swap.eq_left, hzs'.swap.eq_left]
    · rw [hzs.eq_left, hzs'.eq_left]
  push Not at hempty
  obtain ⟨x, hx⟩ := List.exists_mem_of_ne_nil xs hempty.1
  obtain ⟨y, hy⟩ := List.exists_mem_of_ne_nil ys hempty.2
  have hevents : ∀ action, action ∈ xs ∨ action ∈ ys → action.event?.isSome := by
    rintro action (haction | haction)
    · obtain ⟨event, -, hevent, -⟩ := h action haction y hy
      rw [hevent]
      rfl
    · obtain ⟨-, event, -, hevent, -⟩ := h x hx action haction
      rw [hevent]
      rfl
  have hkeeps : ∀ {zs}, Interleaving xs ys zs →
      .releaseAll ∉ zs ∧ lastValue? zs = none := by
    intro zs hzs
    constructor
    · intro hmem
      cases hevents _ (hzs.mem_iff.1 hmem)
    · rw [lastValue?, List.getLast?_eq_none_iff, List.filterMap_eq_nil_iff]
      intro action haction
      have hevent := hevents action (hzs.mem_iff.1 haction)
      cases action with
      | write value => cases hevent
      | _ => rfl
  have hlatest : ∀ button, latest? button zs = latest? button zs' := by
    intro button
    rw [latest?, latest?]
    -- of each button only one of the parties tells, and its order is kept
    rcases told_of_apart h button with hnone | hnone
    · rw [hzs.swap.filterMap_left hnone, hzs'.swap.filterMap_left hnone]
    · rw [hzs.filterMap_left hnone, hzs'.filterMap_left hnone]
  have hbuttons : (j.operateAll zs).buttons = (j.operateAll zs').buttons := by
    refine Buttons.ext_isPressed fun button => ?_
    rw [isPressed_operateAll j (hkeeps hzs).1, isPressed_operateAll j (hkeeps hzs').1, hlatest]
  have hselection : (j.operateAll zs).selection = (j.operateAll zs').selection := by
    rw [selection_operateAll, selection_operateAll, (hkeeps hzs).2, (hkeeps hzs').2]
  exact congrArg₂ mk hbuttons hselection

end Joypad
end Handheld
