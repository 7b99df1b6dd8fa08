import Handheld.Proofs.Machine.FrameLoop
import Handheld.Proofs.Screen.OwnLines

/-!
# The pictures that are shown

A frame hands out its picture right after the step that completed it.  The
vertical blank has then just begun, so that no line of the next frame has been
drawn: what is shown is the picture of one frame.

There are two groups.

* The end of a frame.  `mode_step_of_completed` says where the screen stands after
  the step that completes a picture, and `runFrame_presented` what a frame shows.
* Pictures.  `pictures_of_own_lines` says of which lines every completed picture
  consists, and every picture that is shown.
-/

namespace Handheld

/-! ## The end of a frame -/

/-- Where a picture was completed a short time ago, the vertical blank goes on. -/
theorem Screen.mode_advance_of_completed {s : Screen} (h : s.Reachable) {cycles : Nat}
    (hcycles : 4 * cycles ≤ 4560) (hmore : s.frameCount < (s.advance cycles).1.frameCount) :
    (s.advance cycles).1.mode = .vblank := by
  cases hon : s.enabled with
  | false =>
    rw [advance_of_off hon] at hmore
    exact absurd hmore (Nat.lt_irrefl _)
  | true =>
    obtain ⟨before, dots, hcourse⟩ := h.onCourse hon
    have hafter := hcourse.advance hon cycles
    have hpictures : ∀ d, picturesIn d = (d + 4560) / 70080 := fun _ => rfl
    rw [hcourse.frameCount, hafter.frameCount, hpictures, hpictures] at hmore
    have hblank : ¬ (dots + 4 * cycles) % frameDots < visibleDots := by
      show ¬ (dots + 4 * cycles) % 70080 < 65520
      omega
    have hmode : (s.advance cycles).1.mode = (positionAt _).mode :=
      congrArg Position.mode hafter.phase.position
    rw [hmode, positionAt, if_neg hblank]

namespace Machine

variable {σ : Type}

/-- After the step that completes a picture its vertical blank goes on. -/
theorem mode_step_of_completed {m : Machine} (h : m.bus.screen.Reachable)
    (hmore : m.frameCount < m.step.1.frameCount) : m.step.1.bus.screen.mode = .vblank := by
  obtain ⟨ops, heq, hops⟩ := m.exists_ops_step
  obtain ⟨hcount, -⟩ := Screen.laterFrames_run_of_writesOf hops m.bus.screen
  have hcycles := m.step_cycles
  rw [frameCount, frameCount, heq, ← hcount] at hmore
  rw [heq]
  exact Screen.mode_advance_of_completed (h.run ops) (by omega) hmore

/-- The steps of a frame are a history of the screen, which takes as long. -/
theorem FrameRun.exists_ops_after (source : InputSource σ) (n : Nat) (r : FrameRun σ) :
    ∃ ops, (r.after source n).machine.bus.screen = r.machine.bus.screen.run ops ∧
      (r.after source n).cycles = r.cycles + cyclesOf ops := by
  induction n with
  | zero => exact ⟨[], rfl, rfl⟩
  | succ n ih =>
    obtain ⟨ops, hrun, htime⟩ := ih
    obtain ⟨writes, hstep, hwrites⟩ := ((r.after source n).pumped source).exists_ops_step
    refine ⟨ops ++ (writes ++ [.advance ((r.after source n).pumped source).step.2]), ?_, ?_⟩
    · rw [after_succ, next_machine, hstep, pumped_screen, hrun, Screen.run_append,
        Screen.run_append]
      rfl
    · rw [after_succ, next_cycles, htime, cyclesOf_append, cyclesOf_append,
        hwrites.cyclesOf_eq_zero, Nat.zero_add, Nat.add_assoc]
      rfl

/-- The step after which a picture is ready has completed it. -/
theorem FrameRun.Underway.mode_next {start : Screen} {n : Nat} {r : FrameRun σ}
    (h : Underway start n r) (hgoing : r.finished = false) (source : InputSource σ)
    (hready : (r.next source).machine.bus.screen.frameReady = true) :
    (r.next source).machine.bus.screen.mode = .vblank := by
  have hscreen := r.pumped_screen source
  have hbefore := (Bool.or_eq_false_iff.1 hgoing).1
  have hflag := (r.pumped source).laterFrames_step.frameReady
  rw [next_machine] at hready ⊢
  rw [hready, hscreen, hbefore, Bool.false_or] at hflag
  refine mode_step_of_completed ?_ ?_
  · rw [hscreen]
    exact h.reachable
  · rw [frameCount, hscreen]
    exact of_decide_eq_true hflag.symm

/-- A frame shows the picture that the screen completed with the last step. -/
theorem runFrame_presented {m : Machine} (h : m.bus.screen.Reachable)
    (hready : m.bus.screen.frameReady = false) (source : InputSource σ) (input : σ)
    {shown : Presented} (hshown : (m.runFrame source input).presented = some shown) :
    ∃ ops, (m.bus.screen.run ops).mode = .vblank ∧
      cyclesOf ops = (m.runFrame source input).cycles ∧
      (m.runFrame source input).machine.bus.screen = (m.bus.screen.run ops).takeFrame ∧
      shown = ⟨(m.bus.screen.run ops).frameCount, (m.bus.screen.run ops).picture⟩ := by
  obtain ⟨n, -, hgoing, -, hrun⟩ := exists_last_step h hready source input
  have hunder := (FrameRun.underway_zero input h).after source n
  obtain ⟨ops, hscreen, htime⟩ :=
    FrameRun.exists_ops_after source (n + 1) { machine := m, input }
  have hmode := hunder.mode_next (hgoing n (Nat.le_refl n)) source
  rw [← FrameRun.after_succ, hscreen] at hmode
  cases hend : (m.bus.screen.run ops).frameReady with
  | false =>
    rw [hrun, FrameRun.present_of_not_ready (hscreen ▸ hend)] at hshown
    contradiction
  | true =>
    rw [hrun, FrameRun.present_of_ready (hscreen ▸ hend)] at hshown ⊢
    refine ⟨ops, hmode hend, ?_, ?_, ?_⟩
    · exact (htime.trans (Nat.zero_add _)).symm
    · exact congrArg Screen.takeFrame hscreen
    · rw [← Option.some.inj hshown, ← hscreen]
      rfl

theorem Shows.exists_presented {m : Machine} {r : FrameResult σ} (h : Shows m r) :
    ∃ shown, r.presented = some shown := by
  cases hpresented : r.presented with
  | some shown => exact ⟨shown, rfl⟩
  | none =>
    have hsink := h.sink ⟨fun _ number _ => number⟩ 0
    have hnothing : r.tellSink ⟨fun _ number _ => number⟩ 0 = 0 := by
      rw [FrameResult.tellSink, hpresented]
    rw [hnothing] at hsink
    contradiction

/-- Every picture consists of the lines of its own frame.  A row changes only with an
operation that draws its line, to what the settings give; with at most ten sprites on it,
that is what a plain renderer draws.  In a vertical blank, each row was drawn during the
frame that ends with it, and each frame drew its lines once, in order; so it is at
the moment at which any of the completed pictures is complete.  What running a frame
shows is such a picture, whatever the screen went through before. -/
theorem pictures_of_own_lines :
    (∀ start : Screen, start = .powerOn ∨ start = .postBoot → ∀ ops : List ScreenOp,
      (∀ (op : ScreenOp) (row : Fin 144),
        ((start.run ops).apply op).picture.get row =
          if row.val ∈ (start.run ops).linesDrawnBy op then (start.run ops).lineFor row
          else (start.run ops).picture.get row) ∧
      (∀ row : Fin 144, ((start.run ops).plainLine row).coveringCount ≤ 10 → ∀ x : Fin 160,
        (((start.run ops).lineFor row).get x).color =
          PlainScreen.colors.getD (((start.run ops).plainLine row).pixel x.val) 0) ∧
      ((start.run ops).mode = .vblank →
        ∃ before since frames, ops = before ++ since ∧
          Screen.DrawsOwnLines start before since frames) ∧
      ∀ number, 0 < number → number ≤ (start.run ops).frameCount →
        ∃ earlier cycles all, Screen.Completes start ops earlier cycles all number ∧
          ∃ before since frames, earlier ++ [.advance cycles] = before ++ since ∧
            Screen.DrawsOwnLines start before since frames) ∧
    ∀ {σ : Type} (source : InputSource σ) (input : σ) (m : Machine) (shown : Presented),
      m.bus.screen.frameReady = false → (m.runFrame source input).presented = some shown →
      ∀ (start : Screen) (ops : List ScreenOp), start = .powerOn ∨ start = .postBoot →
        m.bus.screen = start.run ops →
        ∃ more before since frames, ops ++ more = before ++ since ∧
          Screen.DrawsOwnLines start before since frames ∧
          cyclesOf more = (m.runFrame source input).cycles ∧
          (m.runFrame source input).machine.bus.screen = (start.run (ops ++ more)).takeFrame ∧
          shown =
            ⟨(start.run (ops ++ more)).frameCount, (start.run (ops ++ more)).picture⟩ := by
  refine ⟨?_, ?_⟩
  · intro start hstart ops
    have hreach : (start.run ops).Reachable := Screen.reachable_of_initial hstart ops
    refine ⟨Screen.picture_apply hreach, fun row hfew => Screen.lineFor_plain hreach.filed hfew,
      Screen.exists_drawsOwnLines hstart, ?_⟩
    intro number hpos hle
    obtain ⟨earlier, cycles, all, hcompletes⟩ := Screen.exists_completes hstart hpos hle
    exact ⟨earlier, cycles, all, hcompletes,
      Screen.exists_drawsOwnLines hstart (congrArg Screen.Position.mode hcompletes.position)⟩
  · intro σ source input m shown hready hshown start ops hstart hhistory
    have hreach : m.bus.screen.Reachable := hhistory ▸ Screen.reachable_of_initial hstart ops
    obtain ⟨more, hm, htime, hscreen, hpicture⟩ :=
      runFrame_presented hreach hready source input hshown
    rw [hhistory, ← Screen.run_append] at hm hscreen hpicture
    obtain ⟨before, since, frames, hcut, hlines⟩ := Screen.exists_drawsOwnLines hstart hm
    exact ⟨more, before, since, frames, hcut, hlines, htime, hscreen, hpicture⟩

/-- A screen that is switched off and on again within a picture, and is scrolled
within the next. -/
def restarted : List ScreenOp :=
  [.advance 9000, .writeRegister 0xFF40 0x11, .advance 7, .writeRegister 0xFF40 0x91,
    .advance 100, .writeRegister 0xFF43 5, .advance 16400]

/-- The screen that was restarted, and the machine that waits, show the lines of one
frame.  No sprite covers the first line after boot. -/
theorem pictures_of_restarted :
    (∀ x : Fin 160, ((Screen.postBoot.lineFor 0).get x).color =
      PlainScreen.colors.getD ((Screen.postBoot.plainLine 0).pixel x.val) 0) ∧
    ((Screen.postBoot.run restarted).mode = .vblank ∧
      0 < (Screen.postBoot.run restarted).frameCount ∧
      (∃ before since frames, restarted = before ++ since ∧
        Screen.DrawsOwnLines .postBoot before since frames) ∧
      ∃ earlier cycles all, Screen.Completes .postBoot restarted earlier cycles all 1) ∧
    ∃ shown, (waiting.runFrame (scriptSource true) []).presented = some shown ∧
      ∃ before since frames, Screen.DrawsOwnLines .postBoot before since frames ∧
        shown.picture = (Screen.postBoot.run (before ++ since)).picture := by
  obtain ⟨hscreen, hmachine⟩ := pictures_of_own_lines
  refine ⟨(hscreen .postBoot (Or.inr rfl) []).2.1 0 (by decide +kernel), ?_, ?_⟩
  · have hfirst : (Screen.postBoot.apply (.advance 9000)).enabled = true :=
      (Screen.sameSettings_advance _ _).enabled
    have hoff := (Screen.apply_switchOff 0x11 hfirst (by decide)).1
    have hwait := (Screen.sameSettings_advance _ 7).enabled.trans hoff
    obtain ⟨hon, hcourse⟩ := Screen.apply_switchOn 0x91 hwait (by decide)
    have hscroll : ∀ op ∈ [ScreenOp.advance 100, .writeRegister 0xFF43 5, .advance 16400],
        op.switchesOff = false := by decide
    have hend := (hcourse.run hon hscroll).2
    have hmode : (Screen.postBoot.run restarted).mode = .vblank :=
      congrArg Screen.Position.mode hend.phase.position
    have hcount : 0 < (Screen.postBoot.run restarted).frameCount := by
      have hframes : (Screen.postBoot.run restarted).frameCount = _ := hend.frameCount
      rw [hframes]
      exact Nat.add_pos_right _ (by decide)
    obtain ⟨-, -, hblank, hnumber⟩ := hscreen .postBoot (Or.inr rfl) restarted
    obtain ⟨earlier, cycles, all, hcompletes, -⟩ := hnumber 1 (by decide) hcount
    exact ⟨hmode, hcount, hblank hmode, earlier, cycles, all, hcompletes⟩
  · have hreach : waiting.Reachable := (Reachable.postBoot.insert (.filled 0x76)).step
    have hon : waiting.bus.screen.enabled = true := by
      rw [asleep_waiting.2]
      exact (Screen.sameSettings_advance _ 1).enabled
    obtain ⟨n, -, -, -, -, -, -, hstays⟩ :=
      exists_outcome hreach.screen frameReady_waiting (scriptSource true) []
    have hshows := (hstays (asleep_waiting.1.staysOn hon _ _ n)).1
    obtain ⟨shown, hshown⟩ := hshows.exists_presented
    obtain ⟨more, before, since, frames, hcut, hlines, -, -, hpicture⟩ :=
      hmachine (scriptSource true) [] waiting shown frameReady_waiting hshown .postBoot [.advance 1]
        (Or.inr rfl) asleep_waiting.2
    rw [hcut] at hpicture
    exact ⟨shown, hshown, before, since, frames, hlines, congrArg Presented.picture hpicture⟩

end Machine
end Handheld
