import Handheld.Proofs.Screen.Operation

/-!
# What the steps of the screen do

The whole screen after each step of the model, as an update of the screen
before it, with the interrupts that the step requests.  The modules on the
course of a frame, on its interrupts and on its picture start from these
equations and do not unfold the model again.

There are four groups.

* A change of mode, one equation for each mode.
* Dots that pass, one equation for the vertical blank and one for the other
  modes.
* What time leaves alone.  `SameSettings` says that two screens differ in the
  course of the frame and in the picture only.
* What a write leaves alone.  `SameCourse` says the opposite, and
  `apply_sameCourse` that it holds of every operation besides time and the
  switch.
-/

namespace Handheld.Screen

/-! ## A change of mode -/

/-- A row of the picture after drawing: the line that was drawn, or what was
there. -/
theorem picture_drawLine (s : Screen) (row : Fin 144) :
    s.drawLine.picture.get row =
      if s.line.toNat = row.val then s.drawnLine else s.picture.get row := by
  by_cases hline : s.line.toNat < 144
  · rw [drawLine, dif_pos hline]
    exact Vector.getElem_set hline row.isLt
  · rw [drawLine, dif_neg hline, if_neg (by omega)]

theorem changeMode_oamScan {s : Screen} (h : s.mode = .oamScan) :
    s.changeMode = ({ s with mode := .draw, dotsLeft := 230 }, 0) := by
  simp only [changeMode, h]
  rfl

theorem changeMode_draw {s : Screen} (h : s.mode = .draw) :
    s.changeMode =
      ({ s with mode := .hblank, dotsLeft := 145, picture := s.drawLine.picture },
        s.modeRequest .hblank) := by
  simp only [changeMode, h, enter]
  unfold drawLine
  split <;> rfl

theorem changeMode_hblank {s : Screen} (h : s.mode = .hblank) :
    s.changeMode =
      if 144 ≤ s.line + 1 then
        ({ (s.goToLine (s.line + 1)).1 with
            mode := .vblank, dotsLeft := 4560, vblankDots := 0
            frameCount := s.frameCount + 1, frameReady := true },
          (s.goToLine (s.line + 1)).2 ||| s.modeRequest .vblank ||| Interrupt.vblank.mask)
      else
        ({ (s.goToLine (s.line + 1)).1 with mode := .oamScan, dotsLeft := 80 },
          (s.goToLine (s.line + 1)).2 ||| s.modeRequest .oamScan) := by
  simp only [changeMode, h]
  rfl

theorem changeMode_vblank {s : Screen} (h : s.mode = .vblank) :
    s.changeMode =
      ({ (s.goToLine 0).1 with mode := .oamScan, dotsLeft := 80, vblankDots := 0 },
        (s.goToLine 0).2 ||| s.modeRequest .oamScan) := by
  simp only [changeMode, h]
  rfl

/-- A mode is entered for its whole length, whatever was left of the one before. -/
theorem changeMode_update (s : Screen) (dotsLeft : Nat) :
    { s with dotsLeft }.changeMode = s.changeMode := by
  cases hm : s.mode with
  | draw => simp only [changeMode, hm, enter]
  | oamScan | hblank | vblank => simp only [changeMode, hm]; rfl

/-! ## Dots that pass -/

/-- Lines of the vertical blank end by moving to another line. -/
theorem passVblankLines_fst (count : Nat) (s : Screen) :
    ∃ line coincidence, (passVblankLines count s).1 = { s with line, coincidence } := by
  induction count generalizing s with
  | zero => exact ⟨s.line, s.coincidence, rfl⟩
  | succ count ih =>
    rw [passVblankLines]
    by_cases hlast : s.line < lastLine
    · obtain ⟨line, coincidence, heq⟩ := ih (s.goToLine (s.line + 1)).1
      exact ⟨line, coincidence, by simp only [if_pos hlast, heq]; rfl⟩
    · obtain ⟨line, coincidence, heq⟩ := ih s
      exact ⟨line, coincidence, by simp only [if_neg hlast, heq]⟩

/-- The lines of the vertical blank end whatever the counts of dots are. -/
theorem passVblankLines_update (count : Nat) (s : Screen) (dotsLeft vblankDots : Nat) :
    passVblankLines count { s with dotsLeft, vblankDots } =
      ({ (passVblankLines count s).1 with dotsLeft, vblankDots }, (passVblankLines count s).2) := by
  induction count generalizing s with
  | zero => rfl
  | succ count ih =>
    rw [passVblankLines, passVblankLines]
    by_cases hlast : s.line < lastLine
    · have hgo : goToLine { s with dotsLeft, vblankDots } (s.line + 1) =
          ({ (s.goToLine (s.line + 1)).1 with dotsLeft, vblankDots },
            (s.goToLine (s.line + 1)).2) := rfl
      simp only [if_pos hlast, hgo, ih]
    · simp only [if_neg hlast, ih]

theorem passDots_of_ne {s : Screen} (h : s.mode ≠ .vblank) (dots : Nat) :
    s.passDots dots = ({ s with dotsLeft := s.dotsLeft - dots }, 0) := by
  simp only [passDots, h, if_false]

theorem passDots_of_vblank {s : Screen} (h : s.mode = .vblank) (dots : Nat) :
    s.passDots dots =
      ({ (passVblankLines ((s.vblankDots + dots) / 456) s).1 with
          dotsLeft := s.dotsLeft - dots
          vblankDots := (s.vblankDots + dots) % 456 },
        (passVblankLines ((s.vblankDots + dots) / 456) s).2) := by
  unfold passDots
  dsimp only
  rw [if_pos h]
  exact passVblankLines_update _ s _ _

/-- In whatever mode dots pass, they move the line and the two counts of dots. -/
theorem passDots_fst (s : Screen) (dots : Nat) :
    ∃ line coincidence vblankDots, (s.passDots dots).1 =
      { s with line, coincidence, vblankDots, dotsLeft := s.dotsLeft - dots } := by
  by_cases hm : s.mode = .vblank
  · obtain ⟨line, coincidence, heq⟩ := passVblankLines_fst ((s.vblankDots + dots) / 456) s
    refine ⟨line, coincidence, (s.vblankDots + dots) % 456, ?_⟩
    rw [passDots_of_vblank hm, heq]
  · refine ⟨s.line, s.coincidence, s.vblankDots, ?_⟩
    rw [passDots_of_ne hm]

theorem mode_passDots (s : Screen) (dots : Nat) : (s.passDots dots).1.mode = s.mode := by
  obtain ⟨_, _, _, heq⟩ := s.passDots_fst dots
  rw [heq]

theorem dotsLeft_passDots (s : Screen) (dots : Nat) :
    (s.passDots dots).1.dotsLeft = s.dotsLeft - dots := by
  obtain ⟨_, _, _, heq⟩ := s.passDots_fst dots
  rw [heq]

theorem passWithin_fst (s : Screen) (dots : Nat) :
    (s.passWithin dots).1 =
      if (s.passDots dots).1.dotsLeft = 0 then (s.passDots dots).1.changeMode.1
      else (s.passDots dots).1 := by
  simp only [passWithin]
  split <;> rfl

/-! ## What time leaves alone -/

/-- Two screens that differ in the course of the frame and in the picture
only: memories and registers are the same. -/
def SameSettings (s t : Screen) : Prop :=
  t = { s with
    coincidence := t.coincidence
    line := t.line
    mode := t.mode
    dotsLeft := t.dotsLeft
    vblankDots := t.vblankDots
    picture := t.picture
    frameReady := t.frameReady
    frameCount := t.frameCount }

theorem SameSettings.trans {s t u : Screen} (h : s.SameSettings t) (h' : t.SameSettings u) :
    s.SameSettings u := by
  unfold SameSettings at *
  rw [h', h]

theorem SameSettings.enabled {s t : Screen} (h : s.SameSettings t) : t.enabled = s.enabled := by
  rw [h]
  rfl

theorem SameSettings.sprites {s t : Screen} (h : s.SameSettings t) : t.sprites = s.sprites := by
  rw [h]

theorem sameSettings_changeMode (s : Screen) : s.SameSettings s.changeMode.1 := by
  cases hm : s.mode with
  | oamScan => rw [changeMode_oamScan hm]; rfl
  | draw => rw [changeMode_draw hm]; rfl
  | hblank => rw [changeMode_hblank hm]; split <;> rfl
  | vblank => rw [changeMode_vblank hm]; rfl

theorem sameSettings_passDots (s : Screen) (dots : Nat) :
    s.SameSettings (s.passDots dots).1 := by
  obtain ⟨_, _, _, heq⟩ := s.passDots_fst dots
  rw [heq]
  rfl

theorem sameSettings_passWithin (s : Screen) (dots : Nat) :
    s.SameSettings (s.passWithin dots).1 := by
  rw [passWithin_fst]
  split
  · exact (sameSettings_passDots s dots).trans (sameSettings_changeMode _)
  · exact sameSettings_passDots s dots

theorem sameSettings_advance (s : Screen) (cycles : Nat) :
    s.SameSettings (s.advance cycles).1 := by
  rw [advance]
  split
  · exact passAll_induction (P := fun _ t => s.SameSettings t)
      (fun _ dots t _ _ ht => ht.trans (sameSettings_passWithin t dots)) _ 0 s 0 rfl
  · rfl

/-- Two screens of which the second is the first after some time: a picture
is ready exactly if one was ready before or one was completed since. -/
structure LaterFrames (s t : Screen) : Prop where
  frameCount_le : s.frameCount ≤ t.frameCount
  frameReady : t.frameReady = (s.frameReady || decide (s.frameCount < t.frameCount))

theorem LaterFrames.of_eq {s t : Screen} (hcount : t.frameCount = s.frameCount)
    (hready : t.frameReady = s.frameReady) : s.LaterFrames t :=
  ⟨by omega, by simp [hcount, hready]⟩

theorem LaterFrames.trans {s t u : Screen} (h : s.LaterFrames t) (h' : t.LaterFrames u) :
    s.LaterFrames u := by
  have hle := h.frameCount_le
  have hle' := h'.frameCount_le
  refine ⟨by omega, ?_⟩
  rw [h'.frameReady, h.frameReady, Bool.or_assoc, ← Bool.decide_or]
  congr 2
  simp only [eq_iff_iff]
  omega

theorem laterFrames_changeMode (s : Screen) : s.LaterFrames s.changeMode.1 := by
  cases hm : s.mode with
  | oamScan => rw [changeMode_oamScan hm]; exact .of_eq rfl rfl
  | draw => rw [changeMode_draw hm]; exact .of_eq rfl rfl
  | hblank =>
    rw [changeMode_hblank hm]
    split
    · exact ⟨Nat.le_succ _, by simp⟩
    · exact .of_eq rfl rfl
  | vblank => rw [changeMode_vblank hm]; exact .of_eq rfl rfl

theorem laterFrames_passWithin (s : Screen) (dots : Nat) :
    s.LaterFrames (s.passWithin dots).1 := by
  have hdots : s.LaterFrames (s.passDots dots).1 := by
    obtain ⟨_, _, _, heq⟩ := s.passDots_fst dots
    rw [heq]
    exact .of_eq rfl rfl
  rw [passWithin_fst]
  split
  · exact hdots.trans (laterFrames_changeMode _)
  · exact hdots

theorem laterFrames_advance (s : Screen) (cycles : Nat) :
    s.LaterFrames (s.advance cycles).1 := by
  rw [advance]
  split
  · exact passAll_induction (P := fun _ t => s.LaterFrames t)
      (fun _ dots t _ _ ht => ht.trans (laterFrames_passWithin t dots)) _ 0 s 0 (.of_eq rfl rfl)
  · exact .of_eq rfl rfl

/-! ## What a write leaves alone -/

/-- Where a screen stands in the frame. -/
structure Position where
  mode : Mode
  line : Nat
  /-- Dots up to the next change of mode. -/
  dotsLeft : Nat
  deriving DecidableEq, Repr

/-- Where the screen stands in the frame. -/
def position (s : Screen) : Position :=
  { mode := s.mode, line := s.line.toNat, dotsLeft := s.dotsLeft }

/-- Two screens that stand at the same place of the course of the frame. -/
structure SameCourse (s t : Screen) : Prop where
  enabled : t.enabled = s.enabled
  position : t.position = s.position
  vblankDots : t.vblankDots = s.vblankDots
  frameCount : t.frameCount = s.frameCount

theorem toggles_eq_true_iff {s : Screen} {value : UInt8} :
    s.toggles value = true ↔
      s.enabled = false ∧ value &&& 0x80 ≠ 0 ∨ s.enabled = true ∧ value &&& 0x80 = 0 := by
  cases hs : s.enabled <;> simp [toggles, hs]

theorem writeControl_of_toggles_eq_false {s : Screen} {value : UInt8}
    (h : s.toggles value = false) : s.writeControl value = ({ s with control := value }, 0) := by
  simp [writeControl, h]

/-- Switching the screen on starts a frame. -/
theorem writeControl_on {s : Screen} {value : UInt8} (hoff : s.enabled = false)
    (hbit : value &&& 0x80 ≠ 0) :
    s.writeControl value = { s with control := value }.startFrame.compareLine := by
  have htoggles : s.toggles value = true := by simp [toggles, hoff, hbit]
  have hon : ({ s with control := value } : Screen).enabled = true := by simp [enabled, hbit]
  simp only [writeControl, htoggles, if_true, hon]

/-- Switching the screen off stops it. -/
theorem writeControl_off {s : Screen} {value : UInt8} (hon : s.enabled = true)
    (hbit : value &&& 0x80 = 0) :
    s.writeControl value = { s with control := value }.stop.compareLine := by
  have htoggles : s.toggles value = true := by simp [toggles, hon, hbit]
  have hoff : ({ s with control := value } : Screen).enabled = false := by simp [enabled, hbit]
  simp [writeControl, htoggles, hoff]

/-- Besides itself, the control register moves the position in the frame. -/
theorem writeControl_fst (s : Screen) (value : UInt8) :
    ∃ coincidence line mode dotsLeft vblankDots, (s.writeControl value).1 =
      { s with control := value, coincidence, line, mode, dotsLeft, vblankDots } := by
  unfold writeControl
  dsimp only
  split
  · split <;> exact ⟨_, _, _, _, _, rfl⟩
  · exact ⟨_, _, _, _, _, rfl⟩

/-- Only the control register has a say in the course of the frame, and only
through its switch. -/
theorem write_sameCourse {s : Screen} {value : UInt8} {r : ScreenRegister}
    (h : r = .control → s.toggles value = false) : s.SameCourse (s.write value r).1 := by
  cases r with
  | control =>
    have htoggles := h rfl
    simp only [write, writeControl_of_toggles_eq_false htoggles]
    refine ⟨?_, rfl, rfl, rfl⟩
    simp only [toggles, bne_eq_false_iff_eq] at htoggles
    exact htoggles.symm
  | _ => exact ⟨rfl, rfl, rfl, rfl⟩

theorem writeAt_sameCourse {s : Screen} {address : UInt16} {value : UInt8}
    (h : address = 0xFF40 → s.toggles value = false) :
    s.SameCourse (s.writeAt address value).1 := by
  rw [writeAt]
  split
  · rename_i r hr
    refine write_sameCourse ?_
    rintro rfl
    exact h (ScreenRegister.address_of_ofAddress? hr).symm
  · exact ⟨rfl, rfl, rfl, rfl⟩

/-- No operation besides time and the switch has a say in the course of the
frame. -/
theorem apply_sameCourse {s : Screen} {op : ScreenOp}
    (htime : ∀ cycles, op ≠ .advance cycles)
    (hswitch : ∀ value, op = .writeRegister 0xFF40 value → s.toggles value = false) :
    s.SameCourse (s.apply op) := by
  cases op with
  | advance cycles => exact absurd rfl (htime cycles)
  | writeRegister address value =>
    refine writeAt_sameCourse ?_
    rintro rfl
    exact hswitch value rfl
  | writeOam address value =>
    simp only [apply, perform, writeOam]
    split <;> exact ⟨rfl, rfl, rfl, rfl⟩
  | _ => exact ⟨rfl, rfl, rfl, rfl⟩

/-- What an operation can be: time, the switch, or nothing to the course of
the frame. -/
theorem apply_cases (s : Screen) (op : ScreenOp) :
    (∃ cycles, op = .advance cycles) ∨
      (∃ value, op = .writeRegister 0xFF40 value ∧ s.toggles value = true) ∨
      op.cycles = 0 ∧ s.SameCourse (s.apply op) := by
  by_cases htime : ∃ cycles, op = .advance cycles
  · exact Or.inl htime
  by_cases hswitch : ∃ value, op = .writeRegister 0xFF40 value ∧ s.toggles value = true
  · exact Or.inr (Or.inl hswitch)
  refine Or.inr (Or.inr ⟨?_, apply_sameCourse ?_ ?_⟩)
  · cases op with
    | advance cycles => exact absurd ⟨cycles, rfl⟩ htime
    | _ => rfl
  · rintro cycles rfl
    exact htime ⟨cycles, rfl⟩
  · rintro value rfl
    exact Bool.eq_false_iff.2 fun htoggles => hswitch ⟨value, rfl, htoggles⟩

theorem apply_writeControl (s : Screen) (value : UInt8) :
    s.apply (.writeRegister 0xFF40 value) = (s.writeControl value).1 := by
  have hcontrol : ScreenRegister.ofAddress? 0xFF40 = some .control :=
    ScreenRegister.ofAddress?_address .control
  simp only [apply, perform, writeAt, hcontrol, write]

/-- A write neither completes a picture nor takes one, not even a write that
switches the screen. -/
theorem frames_apply_of_isWrite {s : Screen} {op : ScreenOp} (h : op.isWrite = true) :
    (s.apply op).frameCount = s.frameCount ∧ (s.apply op).frameReady = s.frameReady := by
  cases op with
  | writeRegister address value =>
    simp only [apply, perform, writeAt]
    split
    · rename_i r _
      cases r with
      | control =>
        simp only [write, writeControl]
        split
        · split <;> exact ⟨rfl, rfl⟩
        · exact ⟨rfl, rfl⟩
      | _ => exact ⟨rfl, rfl⟩
    · exact ⟨rfl, rfl⟩
  | writeOam address value =>
    simp only [apply, perform, writeOam]
    split <;> exact ⟨rfl, rfl⟩
  | writeVram address value => exact ⟨rfl, rfl⟩
  | _ => simp [ScreenOp.isWrite] at h

end Handheld.Screen
