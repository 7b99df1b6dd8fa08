import Mathlib.Data.List.Induction
import Handheld.Proofs.Screen.Dots

/-!
# The course of a frame

Where a screen that is on stands is a function of the dots that have passed since
it was switched on, however these dots were cut into advances, and whatever was
written to it meanwhile.

There are three groups.

* The invariant.  `OnCourse` ties a screen to the dots since its switch-on.
* The invariant is kept.  `OnCourse.dot` follows from what a dot can do, and
  `OnCourse.run` carries the invariant through a history.
* Any history.  `position_of_history` finds the last switch-on in a history
  and gives the position from there.
-/

namespace Handheld.Screen

/-! ## The invariant -/

/-- The screen was switched on the given dots ago, when `before` pictures had
been completed. -/
structure OnCourse (s : Screen) (before dots : Nat) : Prop where
  phase : s.AtPhase (dots % frameDots)
  frameCount : s.frameCount = before + picturesIn dots

theorem OnCourse.phase_eq {s : Screen} {before dots : Nat} (h : s.OnCourse before dots) :
    s.position.phase = dots % frameDots := by
  rw [h.phase.position, phase_positionAt (Nat.mod_lt _ (by decide))]

/-! ## The invariant is kept -/

theorem OnCourse.dotStep {s : Screen} {before dots : Nat} (h : s.OnCourse before dots) :
    DotStep s (dots % frameDots) s.changesOfDot s.dot :=
  dot_step h.phase (Nat.mod_lt _ (by decide))

theorem picturesIn_succ (dots : Nat) :
    picturesIn (dots + 1) =
      picturesIn dots + if (dots + 1) % frameDots = visibleDots then 1 else 0 := by
  have hpictures : ∀ d, picturesIn d = (d + 4560) / 70080 := fun _ => rfl
  have hF : frameDots = 70080 := rfl
  have hV : visibleDots = 65520 := rfl
  rw [hpictures, hpictures, hF, hV]
  split_ifs <;> omega

/-- The place in the frame moves by the dots that pass, and a picture is completed
where the vertical blank begins. -/
theorem OnCourse.dot {s : Screen} {before dots : Nat} (h : s.OnCourse before dots) :
    s.dot.1.OnCourse before (dots + 1) := by
  have hphase := h.dotStep.atPhase h.phase
  have hcount := h.dotStep.frameCount
  rw [Nat.mod_add_mod] at hphase hcount
  refine ⟨hphase, ?_⟩
  rw [hcount, h.frameCount, picturesIn_succ, Nat.add_assoc]

/-- Dots that pass are dots since the switch-on. -/
theorem OnCourse.passAll {s : Screen} {before dots : Nat} (h : s.OnCourse before dots)
    (more : Nat) (raised : UInt8) : (s.passAll more raised).1.OnCourse before (dots + more) := by
  induction more generalizing s dots raised with
  | zero =>
    rw [passAll_zero]
    exact h
  | succ more ih =>
    rw [passAll_succ, Nat.add_comm more, ← Nat.add_assoc]
    exact ih h.dot _

/-- A stretch that does not reach beyond the mode is so many dots. -/
theorem OnCourse.passWithin {s : Screen} {before dots now : Nat} (h : s.OnCourse before dots)
    (hpos : 0 < now) (hle : now ≤ s.dotsLeft) :
    (s.passWithin now).1.OnCourse before (dots + now) := by
  have hstretch : s.stretch now = now := Nat.min_eq_left (by omega)
  have hall := h.passAll now 0
  rw [passAll_of_pos s 0 hpos, hstretch, Nat.sub_self, passAll_zero] at hall
  exact hall

theorem OnCourse.advance {s : Screen} {before dots : Nat} (h : s.OnCourse before dots)
    (hon : s.enabled = true) (cycles : Nat) :
    (s.advance cycles).1.OnCourse before (dots + 4 * cycles) := by
  rw [Screen.advance, if_pos hon, Nat.mul_comm cycles]
  exact h.passAll _ _

/-- A screen that has just started a frame. -/
theorem onCourse_startFrame (s : Screen) : s.startFrame.OnCourse s.frameCount 0 :=
  ⟨atPhase_zero rfl, rfl⟩

theorem OnCourse.of_sameCourse {s t : Screen} {before dots : Nat} (h : s.OnCourse before dots)
    (hsame : s.SameCourse t) : t.OnCourse before dots := by
  refine ⟨⟨?_, ?_⟩, ?_⟩
  · rw [hsame.position]
    exact h.phase.position
  · rw [hsame.vblankDots]
    exact h.phase.vblankDots
  · rw [hsame.frameCount]
    exact h.frameCount

/-- A screen that is switched on starts a frame. -/
theorem apply_switchOn {s : Screen} (value : UInt8) (hoff : s.enabled = false)
    (hbit : value &&& 0x80 ≠ 0) :
    (s.apply (.writeRegister 0xFF40 value)).enabled = true ∧
      (s.apply (.writeRegister 0xFF40 value)).OnCourse s.frameCount 0 := by
  rw [apply_writeControl, writeControl_on hoff hbit]
  refine ⟨by simp [compareLine, startFrame, enabled, hbit], ?_⟩
  exact (onCourse_startFrame { s with control := value }).of_sameCourse ⟨rfl, rfl, rfl, rfl⟩

/-- A screen that is switched off stands still at the first line. -/
theorem apply_switchOff {s : Screen} (value : UInt8) (hon : s.enabled = true)
    (hbit : value &&& 0x80 = 0) :
    (s.apply (.writeRegister 0xFF40 value)).enabled = false ∧
      (s.apply (.writeRegister 0xFF40 value)).position = .off := by
  rw [apply_writeControl, writeControl_off hon hbit]
  exact ⟨by simp [compareLine, stop, enabled, hbit], rfl⟩

/-- As long as nothing switches the screen off, its place in the frame moves by
the time that passes. -/
theorem OnCourse.run {s : Screen} {before dots : Nat} (h : s.OnCourse before dots)
    (hon : s.enabled = true) {ops : List ScreenOp} (hops : ∀ op ∈ ops, op.switchesOff = false) :
    (s.run ops).enabled = true ∧ (s.run ops).OnCourse before (dots + 4 * cyclesOf ops) := by
  induction ops generalizing s dots with
  | nil => exact ⟨hon, h⟩
  | cons op ops ih =>
    have hrest : ∀ o ∈ ops, o.switchesOff = false := fun o ho => hops o (by simp [ho])
    have hop : op.switchesOff = false := hops op (by simp)
    rw [run_cons, cyclesOf_cons, Nat.mul_add, ← Nat.add_assoc]
    rcases s.apply_cases op with
      ⟨cycles, rfl⟩ | ⟨value, rfl, htoggles⟩ | ⟨hcycles, hsame⟩
    · refine ih (h.advance hon cycles) ?_ hrest
      exact (sameSettings_advance s cycles).enabled.trans hon
    · rcases toggles_eq_true_iff.1 htoggles with ⟨hoff, _⟩ | ⟨_, hbit⟩
      · simp [hon] at hoff
      · simp [ScreenOp.switchesOff, hbit] at hop
    · rw [hcycles, Nat.mul_zero, Nat.add_zero]
      exact ih (h.of_sameCourse hsame) (hsame.enabled.trans hon) hrest

/-! ## Any history -/

/-- The history `before ++ since` is cut where the screen last came on: with
the last operation of `before`, or it was on from the start; and it stayed on
during `since`. -/
structure OnSince (start : Screen) (before since : List ScreenOp) : Prop where
  comesOn : before = [] ∨
    ∃ earlier op, before = earlier ++ [op] ∧ (start.run earlier).enabled = false
  staysOn : ∀ part, part <+: since → (start.run (before ++ part)).enabled = true

theorem OnSince.append {start : Screen} {before since : List ScreenOp}
    (h : OnSince start before since) (op : ScreenOp)
    (hon : (start.run (before ++ since ++ [op])).enabled = true) :
    OnSince start before (since ++ [op]) := by
  refine ⟨h.comesOn, ?_⟩
  intro part hpart
  rcases List.prefix_concat_iff.1 hpart with rfl | hpart
  · rw [← List.append_assoc]
    exact hon
  · exact h.staysOn part hpart

/-- Where a screen stands after a history, by its last switch-on. -/
structure Tracks (start : Screen) (ops : List ScreenOp) : Prop where
  off : (start.run ops).enabled = false → (start.run ops).position = .off
  on : (start.run ops).enabled = true → ∃ before since, ops = before ++ since ∧
    OnSince start before since ∧
    (start.run ops).OnCourse (start.run before).frameCount (4 * cyclesOf since)

theorem tracks_powerOn_nil : Tracks .powerOn [] :=
  ⟨fun _ => rfl, fun h => absurd h (by decide)⟩

theorem tracks_postBoot_nil : Tracks .postBoot [] := by
  refine ⟨fun h => absurd h (by decide), ?_⟩
  intro hon
  refine ⟨[], [], rfl, ⟨Or.inl rfl, ?_⟩, ⟨atPhase_zero rfl, rfl⟩⟩
  intro part hpart
  rw [List.prefix_nil.1 hpart]
  exact hon

/-- Time moves the place in the frame, or nothing while the screen is off. -/
theorem Tracks.advance {start : Screen} {ops : List ScreenOp} (h : Tracks start ops)
    (cycles : Nat) : Tracks start (ops ++ [.advance cycles]) := by
  have hrun : start.run (ops ++ [.advance cycles]) = ((start.run ops).advance cycles).1 :=
    run_append start ops [.advance cycles]
  have henabled : (start.run (ops ++ [.advance cycles])).enabled = (start.run ops).enabled := by
    rw [hrun]
    exact (sameSettings_advance _ cycles).enabled
  refine ⟨?_, ?_⟩ <;> intro hstate
  · have hoff := henabled.symm.trans hstate
    rw [hrun, advance_of_off hoff]
    exact h.off hoff
  · have hon := henabled.symm.trans hstate
    obtain ⟨before, since, rfl, hsince, hcourse⟩ := h.on hon
    have hsince' := hsince.append (.advance cycles) hstate
    refine ⟨before, _, List.append_assoc .., hsince', ?_⟩
    rw [hrun, cyclesOf_append, Nat.mul_add]
    exact hcourse.advance hon cycles

/-- The switch cuts the history anew. -/
theorem Tracks.switch {start : Screen} {ops : List ScreenOp} {value : UInt8}
    (htoggles : (start.run ops).toggles value = true) :
    Tracks start (ops ++ [.writeRegister 0xFF40 value]) := by
  have hrun : start.run (ops ++ [.writeRegister 0xFF40 value]) =
      (start.run ops).apply (.writeRegister 0xFF40 value) := run_append start ops _
  rcases toggles_eq_true_iff.1 htoggles with ⟨hoff, hbit⟩ | ⟨hon, hbit⟩
  · obtain ⟨hnow, hcourse⟩ := apply_switchOn value hoff hbit
    have hframes : (start.run (ops ++ [.writeRegister 0xFF40 value])).frameCount =
        (start.run ops).frameCount := by
      rw [hrun]
      exact (frames_apply_of_isWrite rfl).1
    rw [← hrun] at hnow hcourse
    rw [← hframes] at hcourse
    refine ⟨fun hno => absurd (hnow.symm.trans hno) (by decide), fun _ => ?_⟩
    refine ⟨_, [], (List.append_nil _).symm, ⟨Or.inr ⟨ops, _, rfl, hoff⟩, ?_⟩, hcourse⟩
    intro part hpart
    rw [List.prefix_nil.1 hpart, List.append_nil]
    exact hnow
  · obtain ⟨hnow, hpos⟩ := apply_switchOff value hon hbit
    rw [← hrun] at hnow hpos
    exact ⟨fun _ => hpos, fun hyes => absurd (hnow.symm.trans hyes) (by decide)⟩

/-- Whatever else is done to the screen leaves it where it stands. -/
theorem Tracks.keep {start : Screen} {ops : List ScreenOp} {op : ScreenOp}
    (h : Tracks start ops) (hcycles : op.cycles = 0)
    (hsame : (start.run ops).SameCourse ((start.run ops).apply op)) :
    Tracks start (ops ++ [op]) := by
  have hrun : start.run (ops ++ [op]) = (start.run ops).apply op := run_append start ops [op]
  rw [← hrun] at hsame
  refine ⟨?_, ?_⟩ <;> intro hstate
  · rw [hsame.position]
    exact h.off (hsame.enabled.symm.trans hstate)
  · obtain ⟨before, since, rfl, hsince, hcourse⟩ := h.on (hsame.enabled.symm.trans hstate)
    refine ⟨before, _, List.append_assoc .., hsince.append op hstate, ?_⟩
    rw [cyclesOf_append, cyclesOf_cons, hcycles]
    exact hcourse.of_sameCourse hsame

theorem tracks_of_initial {start : Screen} (hstart : start = .powerOn ∨ start = .postBoot)
    (ops : List ScreenOp) : Tracks start ops := by
  induction ops using List.reverseRecOn with
  | nil =>
    rcases hstart with rfl | rfl
    · exact tracks_powerOn_nil
    · exact tracks_postBoot_nil
  | append_singleton ops op ih =>
    rcases (start.run ops).apply_cases op with
      ⟨cycles, rfl⟩ | ⟨value, rfl, htoggles⟩ | ⟨hcycles, hsame⟩
    · exact ih.advance cycles
    · exact Tracks.switch htoggles
    · exact ih.keep hcycles hsame

/-- Every reachable screen that is on is somewhere on its course. -/
theorem Reachable.onCourse {s : Screen} (h : s.Reachable) (hon : s.enabled = true) :
    ∃ before dots, s.OnCourse before dots := by
  obtain ⟨start, ops, hstart, rfl⟩ := h.exists_history
  obtain ⟨before, since, _, _, hcourse⟩ := (tracks_of_initial hstart ops).on hon
  exact ⟨_, _, hcourse⟩

/-- Where a screen stands after any history.  While it is off it stands still
at the first line.  While it is on, its place and the pictures that it has
completed depend on nothing but the cycles since it was last switched on.  No
operation besides time and the switch moves it. -/
theorem position_of_history {start : Screen} (hstart : start = .powerOn ∨ start = .postBoot)
    (ops : List ScreenOp) :
    ((start.run ops).enabled = false →
      (start.run ops).position = { mode := .hblank, line := 0, dotsLeft := 80 }) ∧
    ((start.run ops).enabled = true →
      ∃ before since, ops = before ++ since ∧ OnSince start before since ∧
        (start.run ops).position = positionAt (4 * cyclesOf since % 70080) ∧
        (start.run ops).frameCount =
          (start.run before).frameCount + (4 * cyclesOf since + 4560) / 70080) ∧
    ∀ op : ScreenOp, (∀ cycles, op ≠ .advance cycles) →
      (∀ value, op = .writeRegister 0xFF40 value → (start.run ops).toggles value = false) →
      ((start.run ops).apply op).position = (start.run ops).position ∧
        ((start.run ops).apply op).frameCount = (start.run ops).frameCount := by
  have htracks := tracks_of_initial hstart ops
  refine ⟨htracks.off, ?_, ?_⟩
  · intro hon
    obtain ⟨before, since, hops, hsince, hcourse⟩ := htracks.on hon
    exact ⟨before, since, hops, hsince, hcourse.phase.position, hcourse.frameCount⟩
  · intro op htime hswitch
    have hsame := apply_sameCourse htime hswitch
    exact ⟨hsame.position, hsame.frameCount⟩

/-- A screen that is switched off in its vertical blank and on again. -/
theorem position_after_restart :
    let ops : List ScreenOp := [.advance 16400, .writeRegister 0xFF40 0x11, .advance 7,
      .writeRegister 0xFF40 0x91, .advance 20000]
    (postBoot.run ops).enabled = true ∧
      ∃ before since, ops = before ++ since ∧ OnSince .postBoot before since ∧
        (postBoot.run ops).position = positionAt (4 * cyclesOf since % 70080) ∧
        (postBoot.run ops).frameCount =
          (postBoot.run before).frameCount + (4 * cyclesOf since + 4560) / 70080 := by
  intro ops
  have hon : (postBoot.run ops).enabled = true := by
    have hfirst : (postBoot.apply (.advance 16400)).enabled = true :=
      (sameSettings_advance _ _).enabled
    have hoff := (apply_switchOff 0x11 hfirst (by decide)).1
    have hwait := (sameSettings_advance _ 7).enabled.trans hoff
    have hagain := (apply_switchOn 0x91 hwait (by decide)).1
    exact (sameSettings_advance _ 20000).enabled.trans hagain
  exact ⟨hon, (position_of_history (Or.inr rfl) ops).2.1 hon⟩

end Handheld.Screen
