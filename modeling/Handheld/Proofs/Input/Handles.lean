import Handheld.Proofs.Checked.Bus
import Handheld.Proofs.Input.Buttons
import Handheld.Proofs.Input.Polling

/-!
# The joypad in several hands

The buttons are operated through handles, which may be cloned and given away, and by the
machine itself when it takes the events of its input.  Each call is one action, so
whatever the parties do is one history of the joypad.

There are four groups.

* Handles.  `SharedJoypad` keeps the buttons where its handle leads, and `call` is an
  action through some handle.  Through clones of that handle it is the action on the
  joypad, `joypad_callAll`.
* The machine.  `Pumps` takes the events of a source one at a time, and
  `pumps_iff` says that this is a history, too.
* Events in a row.  `Delivered` says of machines before and after them what they do to
  the buttons and to P1, and that they do nothing else.
* The result, `p1_shows_latest`.
-/

namespace Handheld

/-! ## Handles -/

namespace Checked

/-- Leads to the place where the state of some buttons is kept. -/
structure Handle where
  place : Nat
  deriving DecidableEq, Repr

namespace Handle

/-- Another handle to the same place. -/
def clone (h : Handle) : Handle :=
  { place := h.place }

/-- The handles that come from one by cloning. -/
inductive Clones (h : Handle) : Handle → Prop where
  | self : Clones h h
  | clone {other : Handle} (original : Clones h other) : Clones h other.clone

theorem Clones.place_eq {h other : Handle} (hclone : h.Clones other) : other.place = h.place := by
  induction hclone with
  | self => rfl
  | clone _ ih => exact ih

end Handle

/-- A joypad whose buttons are kept where its handle leads. -/
structure SharedJoypad where
  /-- The states of buttons that are kept, by their places. -/
  kept : Nat → Buttons
  handle : Handle
  selection : UInt8 := 0x30

namespace SharedJoypad

/-- Changes the state to which a handle leads. -/
def update (j : SharedJoypad) (h : Handle) (f : Buttons → Buttons) : SharedJoypad :=
  { j with kept := fun place => if place = h.place then f (j.kept place) else j.kept place }

/-- An action through a handle.  The machine takes its events through a clone of its own
handle, whoever asks it to. -/
def call (j : SharedJoypad) (h : Handle) : JoypadAction → SharedJoypad
  | .set button pressed => j.update h (·.set button pressed)
  | .apply event => j.update h (·.set event.button event.pressed)
  | .releaseAll => j.update h fun _ => {}
  | .taken focused event =>
    if focused then j.update j.handle.clone (·.set event.button event.pressed) else j
  | .write value => { j with selection := value &&& 0x30 }

/-- Actions through handles, one after another. -/
def callAll (j : SharedJoypad) (calls : List (Handle × JoypadAction)) : SharedJoypad :=
  calls.foldl (fun j c => j.call c.1 c.2) j

/-- The register P1. -/
def read (j : SharedJoypad) : UInt8 :=
  if j.selection = 0x30 then 0x3F
  else
    let bits := (j.kept j.handle.place).bits
    j.selection ||| (if j.selection &&& 0x10 != 0 then bits &&& 0x0F else bits >>> 4)

/-- The joypad with the buttons in it. -/
def joypad (j : SharedJoypad) : Joypad where
  buttons := j.kept j.handle.place
  selection := j.selection

theorem read_joypad (j : SharedJoypad) : j.joypad.read = j.read := rfl

theorem joypad_update (j : SharedJoypad) {h : Handle} (hplace : h.place = j.handle.place)
    (f : Buttons → Buttons) :
    (j.update h f).joypad = { j.joypad with buttons := f j.joypad.buttons } := by
  have hkept : (j.update h f).kept j.handle.place = f (j.kept j.handle.place) :=
    if_pos hplace.symm
  exact congrArg (Joypad.mk · j.selection) hkept

theorem handle_call (j : SharedJoypad) (h : Handle) (action : JoypadAction) :
    (j.call h action).handle = j.handle := by
  cases action with
  | taken focused event => cases focused <;> rfl
  | _ => rfl

/-- Through a handle to its buttons, an action happens to the joypad. -/
theorem joypad_call (j : SharedJoypad) {h : Handle} (hplace : h.place = j.handle.place)
    (action : JoypadAction) : (j.call h action).joypad = j.joypad.operate action := by
  cases action with
  | set button pressed => exact j.joypad_update hplace _
  | apply event => exact j.joypad_update hplace _
  | releaseAll => exact j.joypad_update hplace _
  | taken focused event =>
    cases focused with
    | true => exact j.joypad_update (h := j.handle.clone) rfl (·.set event.button event.pressed)
    | false => rfl
  | write value => rfl

theorem joypad_callAll (j : SharedJoypad) {calls : List (Handle × JoypadAction)}
    (h : ∀ c ∈ calls, j.handle.Clones c.1) :
    (j.callAll calls).joypad = j.joypad.operateAll (calls.map Prod.snd) := by
  induction calls generalizing j with
  | nil => rfl
  | cons c calls ih =>
    have hcalls : ∀ other ∈ calls, (j.call c.1 c.2).handle.Clones other.1 := by
      intro other hother
      rw [handle_call]
      exact h other (List.mem_cons_of_mem c hother)
    have hfirst := j.joypad_call (h c List.mem_cons_self).place_eq c.2
    rw [callAll, List.foldl_cons, ← callAll, ih _ hcalls, hfirst]
    rfl

end SharedJoypad
end Checked

/-! ## The machine -/

namespace Bus

theorem place_p1 : Place.ofAddress 0xFF00 = .joypad :=
  Place.ofAddress_register (n := 0) rfl (by decide)

theorem read_p1 (b : Bus) : b.read 0xFF00 = b.joypad.read := by
  rw [read, place_p1]

theorem write_p1 (b : Bus) (value : UInt8) :
    b.write 0xFF00 value = { b with joypad := b.joypad.write value } := by
  rw [write, place_p1]

end Bus

namespace Machine

variable (m : Machine) {σ : Type}

/-- The machine after an action on its joypad. -/
def operate (m : Machine) : JoypadAction → Machine
  | .set button pressed =>
    { m with bus.joypad.buttons := m.bus.joypad.buttons.set button pressed }
  | .apply event => m.press event
  | .releaseAll => { m with bus.joypad.buttons := {} }
  | .taken focused event => if focused then m.press event else m
  | .write value => { m with bus := m.bus.write 0xFF00 value }

/-- The machine after a history of its joypad. -/
def operateAll (m : Machine) (history : List JoypadAction) : Machine :=
  history.foldl operate m

theorem operate_eq (action : JoypadAction) :
    m.operate action = { m with bus.joypad := m.bus.joypad.operate action } := by
  cases action with
  | taken focused event => cases focused <;> rfl
  | write value =>
    rw [operate, Bus.write_p1]
    rfl
  | _ => rfl

theorem operateAll_eq (history : List JoypadAction) :
    m.operateAll history = { m with bus.joypad := m.bus.joypad.operateAll history } := by
  induction history generalizing m with
  | nil => rfl
  | cons action history ih =>
    show (m.operate action).operateAll history = _
    rw [ih, operate_eq]
    rfl

/-- What happens when the machine asks a source for events until there is none.  Whether
the source has focus has been asked before. -/
inductive Pumps (poll : σ → Option ButtonEvent × σ) (focused : Bool) :
    Machine → σ → Machine → σ → Prop where
  | none {m : Machine} {s s' : σ} (h : poll s = (.none, s')) : Pumps poll focused m s m s'
  | some {m m' : Machine} {s s' s'' : σ} {event : ButtonEvent} (h : poll s = (.some event, s'))
      (rest : Pumps poll focused (if focused then m.press event else m) s' m' s'') :
      Pumps poll focused m s m' s''

/-- The machine takes all events of the source, one after another. -/
theorem pumps_iff (poll : σ → Option ButtonEvent × σ) (focused : Bool) (s : σ) (m' : Machine)
    (s' : σ) : Pumps poll focused m s m' s' ↔
      ∃ events, Drains poll s events s' ∧ m' = m.operateAll (events.map (.taken focused)) := by
  constructor
  · intro h
    induction h with
    | none hask => exact ⟨[], .none hask, rfl⟩
    | some hask _ ih =>
      obtain ⟨events, hdrains, hm'⟩ := ih
      exact ⟨_ :: events, .some hask hdrains, hm'⟩
  · rintro ⟨events, hdrains, rfl⟩
    induction hdrains generalizing m with
    | none hask => exact .none hask
    | some hask _ ih => exact .some hask (ih _)

/-- Without focus, nothing comes of the events. -/
theorem operateAll_unfocused (events : List ButtonEvent) :
    m.operateAll (events.map (.taken false)) = m := by
  induction events with
  | nil => rfl
  | cons event events ih => exact ih

theorem operateAll_taken (focused : Bool) (events : List ButtonEvent) :
    m.operateAll (events.map (.taken focused)) = if focused then events.foldl press m else m := by
  cases focused with
  | true => exact List.foldl_map
  | false => exact m.operateAll_unfocused events

/-! ## Events in a row -/

/-- Events have been applied to the joypad of a machine, and nothing else has happened. -/
structure Delivered (events : List ButtonEvent) (before after : Machine) : Prop where
  /-- Of each button the last event counts. -/
  pressed : ∀ button, after.bus.joypad.buttons.isPressed button =
    ((events.filter (·.button = button)).getLast?.map (·.pressed)).getD
      (before.bus.joypad.buttons.isPressed button)
  /-- P1 shows the buttons when a group of them is selected. -/
  shown : ∀ value : UInt8, (value.toNat.testBit 4 && value.toNat.testBit 5) = false →
    ShowsGroup value ((after.bus.write 0xFF00 value).read 0xFF00)
      after.bus.joypad.buttons.isPressed
  rest : after = { before with bus.joypad.buttons := after.bus.joypad.buttons }

theorem isPressed_foldl_press (events : List ButtonEvent) (button : Button) :
    (events.foldl press m).bus.joypad.buttons.isPressed button =
      ((events.filter (·.button = button)).getLast?.map (·.pressed)).getD
        (m.bus.joypad.buttons.isPressed button) := by
  have htold : ∀ event : ButtonEvent, JoypadAction.told? button (.apply event) =
      if event.button = button then some event.pressed else none := by
    intro event
    simp only [JoypadAction.told?, JoypadAction.event?, Option.filter_some]
    by_cases heq : event.button = button <;> simp [heq]
  have hlast : (events.filter (·.button = button)).map (·.pressed) =
      events.filterMap fun event => JoypadAction.told? button (.apply event) := by
    induction events with
    | nil => rfl
    | cons event events ih =>
      rw [List.filterMap_cons, htold, List.filter_cons]
      by_cases heq : event.button = button <;> simp [heq, ih]
  rw [← List.getLast?_map, hlast]
  refine foldl_latest (f := fun m : Machine => m.bus.joypad.buttons.isPressed button) ?_ m
  intro m event _
  have happlied : JoypadAction.apply event ≠ .releaseAll := by simp
  exact m.bus.joypad.isPressed_operate happlied button

/-- Events that are pressed one after another are delivered. -/
theorem delivered_foldl_press (events : List ButtonEvent) :
    Delivered events m (events.foldl press m) := by
  refine ⟨m.isPressed_foldl_press events, ?_, ?_⟩
  · intro value hgroup
    rw [Bus.read_p1, Bus.write_p1]
    exact Joypad.showsGroup_read _ value hgroup
  · induction events generalizing m with
    | nil => rfl
    | cons event events ih => exact ih (m.press event)

namespace Delivered

variable {events : List ButtonEvent} {before after : Machine}
  (h : Delivered events before after) {button : Button}
include h

/-- Events that agree on a button leave it as they say. -/
theorem isPressed_of_mem {pressed : Bool} (hmem : { button, pressed } ∈ events)
    (hall : ∀ event ∈ events, event.button = button → event.pressed = pressed) :
    after.bus.joypad.buttons.isPressed button = pressed := by
  have hsome : { button, pressed } ∈ events.filter (·.button = button) := by simp [hmem]
  obtain ⟨last, hlast⟩ := Option.isSome_iff_exists.1
    (List.getLast?_isSome.2 (List.ne_nil_of_mem hsome))
  have hin := List.mem_filter.1 (List.mem_of_getLast? hlast)
  rw [h.pressed, hlast]
  exact hall last hin.1 (of_decide_eq_true hin.2)

/-- A button without an event stays as it was. -/
theorem isPressed_of_not_mem (hnone : ∀ event ∈ events, event.button ≠ button) :
    after.bus.joypad.buttons.isPressed button = before.bus.joypad.buttons.isPressed button := by
  have hempty : events.filter (·.button = button) = [] := by simpa using hnone
  rw [h.pressed, hempty]
  rfl

end Delivered

/-! ## The result -/

open JoypadAction

/-- After a history, the buttons and P1 are as their latest changes have left them. -/
structure ShowsLatest (m : Machine) (history : List JoypadAction) : Prop where
  /-- Of each button the latest event counts. -/
  pressed : .releaseAll ∉ history → ∀ button,
    (m.operateAll history).bus.joypad.buttons.isPressed button =
      (latest? button history).getD (m.bus.joypad.buttons.isPressed button)
  /-- Since all buttons have been released for the last time, the latest event counts. -/
  released : ∀ before after, history = before ++ .releaseAll :: after →
    .releaseAll ∉ after → ∀ button,
      (m.operateAll history).bus.joypad.buttons.isPressed button =
        (latest? button after).getD false
  /-- Before it is written, P1 shows no group. -/
  unwritten : m.bus.joypad.selection = 0x30 → lastValue? history = none →
    (m.operateAll history).bus.read 0xFF00 = 0x3F
  /-- With both selection bits set, it shows none. -/
  unselected : ∀ value, lastValue? history = some value →
    (value.toNat.testBit 4 && value.toNat.testBit 5) = true →
    (m.operateAll history).bus.read 0xFF00 = 0x3F
  /-- Otherwise it shows the group that was selected. -/
  selected : ∀ value, lastValue? history = some value →
    (value.toNat.testBit 4 && value.toNat.testBit 5) = false →
    ShowsGroup value ((m.operateAll history).bus.read 0xFF00)
      (m.operateAll history).bus.joypad.buttons.isPressed

theorem showsLatest (history : List JoypadAction) : ShowsLatest m history := by
  have hjoypad : (m.operateAll history).bus.joypad = m.bus.joypad.operateAll history := by
    rw [operateAll_eq]
  have hwritten : ∀ value, lastValue? history = some value →
      (m.bus.joypad.operateAll history).write value = m.bus.joypad.operateAll history := by
    intro value hlast
    have hselection := m.bus.joypad.selection_operateAll history
    rw [hlast] at hselection
    rw [Joypad.write, ← show _ = value &&& 0x30 from hselection]
  constructor
  · intro hnone button
    rw [hjoypad, Joypad.isPressed_operateAll _ hnone]
  · rintro before after rfl hnone button
    rw [hjoypad, Joypad.isPressed_operateAll_released _ _ hnone]
  · intro hselection hlast
    rw [Bus.read_p1, hjoypad, Joypad.read, Joypad.selection_operateAll, hlast]
    exact if_pos hselection
  · intro value hlast hboth
    rw [Bus.read_p1, hjoypad, ← hwritten value hlast, Joypad.read_of_both _ hboth]
  · intro value hlast hgroup
    rw [Bus.read_p1, hjoypad]
    have hshows := (m.bus.joypad.operateAll history).showsGroup_read value hgroup
    rwa [hwritten value hlast] at hshows

/-- P1 shows the latest event of every button, whoever operates them and in whichever
order: after every history each button is as its latest event since the last release of
all buttons has left it, and P1 shows the group selected last.  What several parties do
through clones of the machine's handle is such a history, and so is what the machine
takes from its input.  The events of two parties that operate different buttons can come
in any order. -/
theorem p1_shows_latest (history : List JoypadAction) :
    ShowsLatest m history ∧
    (∀ (j : Checked.SharedJoypad) (calls : List (Checked.Handle × JoypadAction)),
      j.joypad = m.bus.joypad → (∀ c ∈ calls, j.handle.Clones c.1) →
      calls.map Prod.snd = history →
        (j.callAll calls).joypad = (m.operateAll history).bus.joypad ∧
        (j.callAll calls).read = (m.operateAll history).bus.read 0xFF00) ∧
    (∀ (poll : σ → Option ButtonEvent × σ) (s s' : σ) (m' : Machine),
      (Pumps poll false m s m' s' ↔ m' = m ∧ ∃ events, Drains poll s events s') ∧
      (Pumps poll true m s m' s' ↔
        ∃ events, Drains poll s events s' ∧ m' = m.operateAll (events.map .apply))) ∧
    (∀ (source : InputSource σ) (s : σ), m.pump source s =
      (m.operateAll ((source.drain s).1.map (.taken (source.focused s))), (source.drain s).2)) ∧
    (∀ xs ys zs zs' : List JoypadAction, (∀ x ∈ xs, ∀ y ∈ ys, x.Apart y) →
      Interleaving xs ys zs → Interleaving xs ys zs' → m.operateAll zs = m.operateAll zs') := by
  refine ⟨m.showsLatest history, ?_, ?_, ?_, ?_⟩
  · rintro j calls hjoypad hclones rfl
    have hcalls := j.joypad_callAll hclones
    rw [hjoypad] at hcalls
    rw [Bus.read_p1, operateAll_eq, ← Checked.SharedJoypad.read_joypad, hcalls]
    exact ⟨rfl, rfl⟩
  · intro poll s s' m'
    constructor
    · rw [pumps_iff]
      simp only [operateAll_unfocused]
      exact ⟨fun ⟨events, hdrains, hm'⟩ => ⟨hm', events, hdrains⟩,
        fun ⟨hm', events, hdrains⟩ => ⟨events, hdrains, hm'⟩⟩
    · have hfocused : ∀ events : List ButtonEvent,
          m.operateAll (events.map (.taken true)) = m.operateAll (events.map .apply) := by
        intro events
        rw [operateAll_taken, if_pos rfl, operateAll, List.foldl_map]
        rfl
      rw [pumps_iff]
      simp only [hfocused]
  · intro source s
    rw [operateAll_taken]
    rfl
  · intro xs ys zs zs' hapart hzs hzs'
    rw [operateAll_eq, operateAll_eq, Joypad.operateAll_interleaving _ hapart hzs hzs']

/-- Two parties with a handle each: one presses A, the other has all buttons released and
presses Start, and the program selects the actions.  Without focus, B stays up.  Right
and A can be pressed in either order. -/
theorem p1_shows_start :
    (postBoot.operateAll [.set .a true, .releaseAll, .apply ⟨.start, true⟩,
        .taken false ⟨.b, true⟩, .write 0x10]).bus.joypad.buttons.isPressed .start = true ∧
      ((postBoot.operateAll [.set .a true, .releaseAll, .apply ⟨.start, true⟩,
        .taken false ⟨.b, true⟩, .write 0x10]).bus.read 0xFF00).toNat.testBit 3 = false ∧
      (Checked.SharedJoypad.callAll { kept := fun _ => {}, handle := ⟨0⟩ }
        [(⟨0⟩, .set .a true), (Checked.Handle.clone ⟨0⟩, .releaseAll),
          (Checked.Handle.clone ⟨0⟩, .apply ⟨.start, true⟩),
          (⟨0⟩, .taken false ⟨.b, true⟩),
          (⟨0⟩, .write 0x10)]).read.toNat.testBit 3 = false ∧
      postBoot.operateAll [.apply ⟨.right, true⟩, .set .a true] =
        postBoot.operateAll [.set .a true, .apply ⟨.right, true⟩] := by
  obtain ⟨hshows, hshared, -, -, hinterleaved⟩ := postBoot.p1_shows_latest (σ := Unit)
    [.set .a true, .releaseAll, .apply ⟨.start, true⟩, .taken false ⟨.b, true⟩, .write 0x10]
  have hstart := hshows.released [.set .a true]
    [.apply ⟨.start, true⟩, .taken false ⟨.b, true⟩, .write 0x10] rfl (by decide) .start
  have hline := (hshows.selected 0x10 rfl (by decide)).buttons 3 .start rfl
  have hread := (hshared { kept := fun _ => {}, handle := ⟨0⟩ }
    [(⟨0⟩, .set .a true), (Checked.Handle.clone ⟨0⟩, .releaseAll),
      (Checked.Handle.clone ⟨0⟩, .apply ⟨.start, true⟩),
      (⟨0⟩, .taken false ⟨.b, true⟩), (⟨0⟩, .write 0x10)] rfl ?_ rfl).2
  · rw [hread]
    refine ⟨hstart, hline.trans (by rw [hstart]; rfl), hline.trans (by rw [hstart]; rfl), ?_⟩
    refine hinterleaved [.apply ⟨.right, true⟩] [.set .a true] _ _ ?_ ?_ ?_
    · intro x hx y hy
      obtain rfl := List.mem_singleton.1 hx
      obtain rfl := List.mem_singleton.1 hy
      exact ⟨⟨.right, true⟩, ⟨.a, true⟩, rfl, rfl, by decide⟩
    · exact .left (.right .nil)
    · exact .right (.left .nil)
  · simp [Checked.Handle.Clones.self, Checked.Handle.Clones.clone]

end Machine
end Handheld
