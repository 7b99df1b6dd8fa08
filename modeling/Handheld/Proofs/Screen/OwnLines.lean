import Handheld.Proofs.Screen.FrameClock
import Handheld.Proofs.Screen.PlainPicture

/-!
# The lines of a picture

A picture is drawn line by line.  Each line is drawn at the end of its drawing
mode, from the settings of the screen at that moment, and nothing else changes
its row.  So the picture that is complete when a vertical blank begins consists
of the lines of its own frame, whatever was written in between and however time
was cut.

There are five groups.

* The lines that are drawn.  `linesWithin` gives them from the places of the
  frame that the screen comes to, and `linesWithin_vblank` lists them up to a
  vertical blank.
* Rows.  `lineFor` is the row that the settings of a screen give, `lineFor_plain`
  compares it with the plain renderer, and `OnCourse.picture` says what passing dots
  do to a row.
* Operations.  `picture_apply` says the same of any operation.
* A screen that stays on.  `OnCourse.stay` carries the lines through a history.
* Pictures.  `DrawsOwnLines` says of which lines a picture consists, and
  `exists_drawsOwnLines` that every picture does.
-/

namespace Handheld.Screen

/-! ## The lines that are drawn -/

/-- The lines whose drawing ends with one of the changes of mode. -/
def linesDrawn (changes : List ModeChange) : List Nat :=
  (changes.filter (·.source == .draw)).map (·.line.toNat)

/-- The line whose drawing ends at a place of the frame, if there is one. -/
def linesAt (place : Nat) : List Nat :=
  if place < visibleDots ∧ place % lineDots = 310 then [place / lineDots] else []

/-- The lines whose drawing ends at one of the `dots` places after a place of the
frame, in order. -/
def linesWithin (place dots : Nat) : List Nat :=
  (List.range' (place + 1) dots).flatMap fun t => linesAt (t % frameDots)

theorem mem_linesAt {place line : Nat} :
    line ∈ linesAt place ↔ line < 144 ∧ place = 455 * line + 310 := by
  have hV : visibleDots = 65520 := rfl
  rw [linesAt, hV, lineDots]
  split
  · rw [List.mem_singleton]
    omega
  · simp only [List.not_mem_nil, false_iff]
    omega

theorem linesAt_drawn {line : Nat} (h : line < 144) : linesAt (455 * line + 310) = [line] := by
  have hV : visibleDots = 65520 := rfl
  have hplace : (455 * line + 310) / lineDots = line := by
    rw [lineDots]
    omega
  rw [linesAt, if_pos (by rw [lineDots]; omega), hplace]

theorem linesAt_eq_nil {place : Nat} (h : ∀ line < 144, place ≠ 455 * line + 310) :
    linesAt place = [] := by
  rw [List.eq_nil_iff_forall_not_mem]
  intro line hmem
  obtain ⟨hline, hplace⟩ := mem_linesAt.1 hmem
  exact h line hline hplace

theorem mem_linesWithin {place dots line : Nat} :
    line ∈ linesWithin place dots ↔
      line < 144 ∧ ∃ t, place < t ∧ t ≤ place + dots ∧ t % 70080 = 455 * line + 310 := by
  have hF : frameDots = 70080 := rfl
  simp only [linesWithin, List.mem_flatMap, List.mem_range'_1, mem_linesAt, hF]
  constructor
  · rintro ⟨t, hrange, hline, ht⟩
    exact ⟨hline, t, by omega, by omega, ht⟩
  · rintro ⟨hline, t, hlt, hle, ht⟩
    exact ⟨t, by omega, hline, ht⟩

theorem linesWithin_succ (place dots : Nat) :
    linesWithin place (dots + 1) =
      linesAt ((place + 1) % frameDots) ++ linesWithin (place + 1) dots := by
  rw [linesWithin, List.range'_succ, List.flatMap_cons]
  rfl

theorem linesWithin_add (place m n : Nat) :
    linesWithin place (m + n) = linesWithin place m ++ linesWithin (place + m) n := by
  unfold linesWithin
  rw [← List.range'_append_1, List.flatMap_append, Nat.add_right_comm]

/-- Every frame draws the same lines. -/
theorem linesWithin_frame (place dots : Nat) :
    linesWithin (frameDots + place) dots = linesWithin place dots := by
  unfold linesWithin
  rw [Nat.add_assoc, ← List.map_add_range', List.flatMap_map]
  simp only [Nat.add_mod_left]

/-- Within a frame only the places where a drawing ends have a line. -/
theorem linesWithin_eq_nil {place dots : Nat} (hend : place + dots ≤ 70080)
    (h : ∀ line < 144, 455 * line + 310 ≤ place ∨ place + dots < 455 * line + 310) :
    linesWithin place dots = [] := by
  rw [List.eq_nil_iff_forall_not_mem]
  intro line hmem
  obtain ⟨hline, t, hlt, hle, ht⟩ := mem_linesWithin.1 hmem
  have houtside := h line hline
  rcases Nat.lt_or_eq_of_le (Nat.le_trans hle hend) with hinside | rfl
  · rw [Nat.mod_eq_of_lt hinside] at ht
    omega
  · omega

/-- A line is drawn once while the screen goes through it. -/
theorem linesWithin_line {line : Nat} (h : line < 144) : linesWithin (455 * line) 455 = [line] := by
  have hbefore : linesWithin (455 * line) 309 = [] :=
    linesWithin_eq_nil (by omega) (by omega)
  have hafter : linesWithin (455 * line + 309 + 1) 145 = [] :=
    linesWithin_eq_nil (by omega) (by omega)
  have hplace : (455 * line + 309 + 1) % frameDots = 455 * line + 310 := by
    have hF : frameDots = 70080 := rfl
    exact Nat.mod_eq_of_lt (by omega)
  calc linesWithin (455 * line) 455
      = linesWithin (455 * line) 309 ++ linesWithin (455 * line + 309) (145 + 1) :=
        linesWithin_add _ 309 146
    _ = [line] := by
        rw [hbefore, linesWithin_succ, hplace, linesAt_drawn h, hafter]
        rfl

theorem linesWithin_lines {count : Nat} (h : count ≤ 144) :
    linesWithin 0 (455 * count) = List.range count := by
  induction count with
  | zero => rfl
  | succ count ih =>
    rw [Nat.mul_succ, linesWithin_add, ih (by omega), Nat.zero_add, linesWithin_line (by omega),
      List.range_succ]

/-- Up to a place of its vertical blank a frame draws every line once, in order. -/
theorem linesWithin_picture {v : Nat} (h : v ≤ 4560) :
    linesWithin 0 (visibleDots + v) = List.range 144 := by
  have hV : visibleDots = 455 * 144 := rfl
  have hnone : linesWithin (455 * 144) v = [] := linesWithin_eq_nil (by omega) (by omega)
  rw [hV, linesWithin_add, Nat.zero_add, hnone, List.append_nil]
  exact linesWithin_lines (Nat.le_refl 144)

theorem linesWithin_vblank (frames : Nat) {v : Nat} (h : v ≤ 4560) :
    linesWithin 0 (frameDots * frames + (visibleDots + v)) =
      (List.replicate (frames + 1) (List.range 144)).flatten := by
  induction frames with
  | zero =>
    rw [Nat.mul_zero, Nat.zero_add, linesWithin_picture h, List.replicate_one,
      List.flatten_singleton]
  | succ frames ih =>
    have hfirst : linesWithin 0 frameDots = List.range 144 := linesWithin_picture (Nat.le_refl 4560)
    have hrest := linesWithin_frame 0 (frameDots * frames + (visibleDots + v))
    rw [Nat.add_zero] at hrest
    rw [Nat.mul_succ, Nat.add_comm _ frameDots, Nat.add_assoc, linesWithin_add, Nat.zero_add,
      hfirst, hrest, ih, ← List.flatten_cons, ← List.replicate_succ]

/-! ## Rows -/

/-- The line that the settings of the screen give for a row. -/
def lineFor (s : Screen) (row : Fin 144) : PictureLine :=
  { s with line := row.val.toUInt8 }.drawnLine

theorem SameSettings.lineFor {s t : Screen} (h : s.SameSettings t) (row : Fin 144) :
    t.lineFor row = s.lineFor row := by
  rw [h]
  rfl

/-- On its own line a screen draws what its settings give. -/
theorem drawnLine_eq_lineFor {s : Screen} {row : Fin 144} (h : s.line.toNat = row.val) :
    s.drawnLine = s.lineFor row := by
  have hline : row.val.toUInt8 = s.line := by
    rw [← UInt8.toNat_inj, ← h]
    exact UInt8.toNat_ofNat_of_lt s.line.toNat_lt
  rw [lineFor, hline]

/-- What the plain renderer draws a row from. -/
def plainLine (s : Screen) (row : Fin 144) : PlainScreen :=
  { s.plain with line := row.val.toUInt8 }

/-- A row that at most ten sprites cover is as the plain renderer draws it. -/
theorem lineFor_plain {s : Screen} (h : s.sprites.Filed) {row : Fin 144}
    (hfew : (s.plainLine row).coveringCount ≤ 10) (x : Fin 160) :
    ((s.lineFor row).get x).color =
      PlainScreen.colors.getD ((s.plainLine row).pixel x.val) 0 := by
  let t : Screen := { s with line := row.val.toUInt8 }
  have hplain : t.plain = s.plainLine row := rfl
  have hget : (s.lineFor row).get x = t.pixel t.lineSprites x := Vector.getElem_ofFn x.isLt
  rw [hget, color_plain, pixel_plain (s := t) h hfew, hplain]

theorem DotStep.linesDrawn {s : Screen} {place : Nat} {changes : List ModeChange}
    {after : Screen × UInt8} (h : DotStep s place changes after) :
    linesDrawn changes = linesAt ((place + 1) % frameDots) := by
  have hF : frameDots = 70080 := rfl
  have hV : visibleDots = 65520 := rfl
  rw [hF]
  cases h with
  | lineDrawn hline hplace =>
    have hnext : (place + 1) % 70080 = 455 * s.line.toNat + 310 := by omega
    rw [hnext, linesAt_drawn hline]
    rfl
  | quiet _ hquiet =>
    rcases hquiet with ⟨other, q, hother, _, hq, _, h310, hnext⟩ | ⟨v, _, hrest, hnext⟩
    · rw [Nat.mod_eq_of_lt (by omega)]
      exact (linesAt_eq_nil (by omega)).symm
    · rw [Nat.mod_eq_of_lt (by omega)]
      exact (linesAt_eq_nil (by omega)).symm
  | drawBegins hline hplace | lineBegins hline hplace | vblankBegins hline hplace
  | frameBegins hline hplace => exact (linesAt_eq_nil (by omega)).symm
  | vblankLine hline hlast hplace => exact (linesAt_eq_nil (by omega)).symm

/-- A dot changes a row only if it ends the drawing of its line. -/
theorem DotStep.picture {s : Screen} {place : Nat} {changes : List ModeChange}
    {after : Screen × UInt8} (h : DotStep s place changes after) (row : Fin 144) :
    after.1.picture.get row =
      if row.val ∈ Screen.linesDrawn changes then s.lineFor row else s.picture.get row := by
  cases h with
  | lineDrawn hline hplace =>
    have hdrawn : row.val ∈ Screen.linesDrawn [⟨.draw, .hblank, s.line⟩] ↔
        s.line.toNat = row.val := by
      rw [eq_comm]
      exact List.mem_singleton
    rw [picture_drawLine]
    by_cases hrow : s.line.toNat = row.val
    · rw [if_pos hrow, if_pos (hdrawn.2 hrow), drawnLine_eq_lineFor hrow]
    · rw [if_neg hrow, if_neg (hrow ∘ hdrawn.1)]
  | quiet | drawBegins | lineBegins | vblankBegins | vblankLine | frameBegins => rfl

theorem linesDrawn_append (changes more : List ModeChange) :
    linesDrawn (changes ++ more) = linesDrawn changes ++ linesDrawn more := by
  unfold linesDrawn
  rw [List.filter_append, List.map_append]

theorem OnCourse.linesDrawn (dots : Nat) {s : Screen} {before since : Nat}
    (h : s.OnCourse before since) :
    linesDrawn (s.changesWithin dots) = linesWithin since dots := by
  induction dots generalizing s since with
  | zero =>
    rw [changesWithin_zero]
    rfl
  | succ dots ih =>
    rw [changesWithin_succ, linesDrawn_append, h.dotStep.linesDrawn, Nat.mod_add_mod, ih h.dot,
      linesWithin_succ]

/-- While time passes a row changes only if its line is drawn. -/
theorem OnCourse.picture (dots : Nat) {s : Screen} {before since : Nat}
    (h : s.OnCourse before since) (raised : UInt8) (row : Fin 144) :
    (s.passAll dots raised).1.picture.get row =
      if row.val ∈ Screen.linesDrawn (s.changesWithin dots) then s.lineFor row
      else s.picture.get row := by
  induction dots generalizing s since raised with
  | zero =>
    rw [passAll_zero, changesWithin_zero]
    rfl
  | succ dots ih =>
    rw [passAll_succ, changesWithin_succ, linesDrawn_append, ih h.dot,
      s.sameSettings_dot.lineFor, h.dotStep.picture]
    by_cases hnow : row.val ∈ Screen.linesDrawn s.changesOfDot
    · rw [if_pos hnow, ite_self, if_pos (List.mem_append_left _ hnow)]
    · rw [if_neg hnow]
      simp only [List.mem_append, hnow, false_or]

/-! ## Operations -/

/-- The lines that an operation draws. -/
def linesDrawnBy (s : Screen) : ScreenOp → List Nat
  | .advance cycles => linesDrawn (s.changesIn cycles)
  | _ => []

/-- The lines that a history draws, in order. -/
def linesDrawnIn (s : Screen) : List ScreenOp → List Nat
  | [] => []
  | op :: ops => s.linesDrawnBy op ++ (s.apply op).linesDrawnIn ops

theorem linesDrawnBy_of_ne {s : Screen} {op : ScreenOp} (h : ∀ cycles, op ≠ .advance cycles) :
    s.linesDrawnBy op = [] := by
  cases op with
  | advance cycles => exact absurd rfl (h cycles)
  | _ => rfl

/-- Nothing but time draws.  Switching the screen leaves the picture as well. -/
theorem picture_apply_of_ne {s : Screen} {op : ScreenOp} (h : ∀ cycles, op ≠ .advance cycles) :
    (s.apply op).picture = s.picture := by
  cases op with
  | advance cycles => exact absurd rfl (h cycles)
  | writeRegister address value =>
    simp only [apply, perform, writeAt]
    split
    · rename_i r _
      cases r with
      | control =>
        simp only [write, writeControl]
        split
        · split <;> rfl
        · rfl
      | _ => rfl
    · rfl
  | writeOam address value =>
    simp only [apply, perform, writeOam]
    split <;> rfl
  | _ => rfl

/-- What one operation does to the picture: the rows of the lines that it draws are
drawn from the settings that it finds, and the others stay. -/
theorem picture_apply {s : Screen} (h : s.Reachable) (op : ScreenOp) (row : Fin 144) :
    (s.apply op).picture.get row =
      if row.val ∈ s.linesDrawnBy op then s.lineFor row else s.picture.get row := by
  by_cases htime : ∃ cycles, op = .advance cycles
  · obtain ⟨cycles, rfl⟩ := htime
    by_cases hon : s.enabled = true
    · obtain ⟨before, since, hcourse⟩ := h.onCourse hon
      have hlines : s.linesDrawnBy (.advance cycles) =
          linesDrawn (s.changesWithin (cycles * dotsPerCycle)) := by
        rw [linesDrawnBy, changesIn, if_pos hon]
      rw [hlines, ← hcourse.picture _ 0]
      simp only [apply, perform, advance, if_pos hon]
    · have hlines : s.linesDrawnBy (.advance cycles) = [] := by
        rw [linesDrawnBy, changesIn, if_neg hon]
        rfl
      rw [hlines, if_neg List.not_mem_nil]
      simp only [apply, perform, advance, if_neg hon]
  · have hother : ∀ cycles, op ≠ .advance cycles := fun cycles heq => htime ⟨cycles, heq⟩
    rw [picture_apply_of_ne hother, linesDrawnBy_of_ne hother, if_neg List.not_mem_nil]

/-- A row whose line is not drawn stays. -/
theorem picture_run_of_not_mem {s : Screen} (h : s.Reachable) {ops : List ScreenOp}
    {row : Fin 144} (hnone : row.val ∉ s.linesDrawnIn ops) :
    (s.run ops).picture.get row = s.picture.get row := by
  induction ops generalizing s with
  | nil => rfl
  | cons op ops ih =>
    rw [linesDrawnIn, List.mem_append, not_or] at hnone
    rw [run_cons, ih (h.apply op) hnone.2, picture_apply h, if_neg hnone.1]

/-! ## A screen that stays on -/

/-- The screen is on, and stays on during a history. -/
def StaysOn (s : Screen) (ops : List ScreenOp) : Prop :=
  ∀ part, part <+: ops → (s.run part).enabled = true

theorem StaysOn.enabled {s : Screen} {ops : List ScreenOp} (h : s.StaysOn ops) :
    s.enabled = true :=
  h [] (List.nil_prefix)

theorem StaysOn.left {s : Screen} {ops more : List ScreenOp} (h : s.StaysOn (ops ++ more)) :
    s.StaysOn ops :=
  fun part hpart => h part (hpart.trans (List.prefix_append ops more))

theorem StaysOn.right {s : Screen} {ops more : List ScreenOp} (h : s.StaysOn (ops ++ more)) :
    (s.run ops).StaysOn more := by
  intro part hpart
  rw [← run_append]
  exact h _ ((List.prefix_append_right_inj ops).2 hpart)

theorem OnSince.staysOn_run {start : Screen} {before since : List ScreenOp}
    (h : OnSince start before since) : (start.run before).StaysOn since := by
  intro part hpart
  rw [← run_append]
  exact h.staysOn part hpart

variable {s : Screen} {before dots : Nat}

/-- An operation that leaves the screen on moves it on its course by its time. -/
theorem OnCourse.apply (h : s.OnCourse before dots) {op : ScreenOp} (hstays : s.StaysOn [op]) :
    (s.apply op).OnCourse before (dots + 4 * op.cycles) := by
  have hon := hstays.enabled
  have hstill : (s.apply op).enabled = true := hstays [op] List.prefix_rfl
  rcases s.apply_cases op with ⟨cycles, rfl⟩ | ⟨value, rfl, htoggles⟩ | ⟨hcycles, hsame⟩
  · exact h.advance hon cycles
  · rcases toggles_eq_true_iff.1 htoggles with ⟨hoff, -⟩ | ⟨-, hbit⟩
    · rw [hon] at hoff
      contradiction
    · rw [(apply_switchOff value hon hbit).1] at hstill
      contradiction
  · rw [hcycles]
    exact h.of_sameCourse hsame

theorem OnCourse.linesDrawnBy (h : s.OnCourse before dots) (hon : s.enabled = true)
    (op : ScreenOp) : s.linesDrawnBy op = linesWithin dots (4 * op.cycles) := by
  cases op with
  | advance cycles =>
    rw [Screen.linesDrawnBy, changesIn, if_pos hon, h.linesDrawn, Nat.mul_comm cycles]
    rfl
  | _ => rfl

/-- While the screen stays on, time alone decides which lines are drawn. -/
theorem OnCourse.stay (h : s.OnCourse before dots) {ops : List ScreenOp}
    (hstays : s.StaysOn ops) :
    (s.run ops).OnCourse before (dots + 4 * cyclesOf ops) ∧
      s.linesDrawnIn ops = linesWithin dots (4 * cyclesOf ops) := by
  induction ops generalizing s dots with
  | nil => exact ⟨h, rfl⟩
  | cons op ops ih =>
    have hnow : s.StaysOn ([op] ++ ops) := hstays
    obtain ⟨hcourse, hlines⟩ := ih (h.apply hnow.left) hnow.right
    rw [run_cons, linesDrawnIn, cyclesOf_cons, Nat.mul_add, linesWithin_add,
      h.linesDrawnBy hstays.enabled, hlines, ← Nat.add_assoc]
    exact ⟨hcourse, rfl⟩

/-- An operation that switches the screen on starts a frame. -/
theorem onCourse_of_comesOn {op : ScreenOp} (hoff : s.enabled = false)
    (hon : (s.apply op).enabled = true) : (s.apply op).OnCourse (s.apply op).frameCount 0 := by
  rcases s.apply_cases op with ⟨cycles, rfl⟩ | ⟨value, rfl, htoggles⟩ | ⟨-, hsame⟩
  · rw [(sameSettings_advance s cycles).enabled.symm.trans hon] at hoff
    contradiction
  · rcases toggles_eq_true_iff.1 htoggles with ⟨-, hbit⟩ | ⟨hwas, -⟩
    · have hcourse := (apply_switchOn value hoff hbit).2
      rw [hcourse.frameCount]
      exact hcourse
    · rw [hoff] at hwas
      contradiction
  · rw [hsame.enabled.symm.trans hon] at hoff
    contradiction

theorem reachable_of_initial {start : Screen} (hstart : start = .powerOn ∨ start = .postBoot)
    (ops : List ScreenOp) : (start.run ops).Reachable := by
  rcases hstart with rfl | rfl
  · exact Reachable.powerOn.run ops
  · exact Reachable.postBoot.run ops

/-- Where the history is cut a frame starts. -/
theorem OnSince.onCourse {start : Screen} (hstart : start = .powerOn ∨ start = .postBoot)
    {before since : List ScreenOp} (h : OnSince start before since) :
    (start.run before).OnCourse (start.run before).frameCount 0 := by
  have hon := h.staysOn_run.enabled
  rcases h.comesOn with rfl | ⟨earlier, op, rfl, hoff⟩
  · rcases hstart with rfl | rfl
    · contradiction
    · exact ⟨atPhase_zero rfl, rfl⟩
  · rw [run_append] at hon ⊢
    exact onCourse_of_comesOn hoff hon

/-! ## Pictures -/

/-- The advance of a history in which a dot passes. -/
theorem exists_advance_through {ops : List ScreenOp} {dot : Nat} (hpos : 0 < dot)
    (hle : dot ≤ 4 * cyclesOf ops) :
    ∃ earlier cycles later, ops = earlier ++ .advance cycles :: later ∧
      4 * cyclesOf earlier < dot ∧ dot ≤ 4 * (cyclesOf earlier + cycles) := by
  induction ops generalizing dot with
  | nil =>
    rw [cyclesOf_nil] at hle
    omega
  | cons op ops ih =>
    rw [cyclesOf_cons] at hle
    by_cases hnow : dot ≤ 4 * op.cycles
    · cases op with
      | advance cycles =>
        refine ⟨[], cycles, ops, rfl, hpos, ?_⟩
        rw [cyclesOf_nil, Nat.zero_add]
        exact hnow
      | _ => exact absurd hnow (Nat.not_le_of_lt hpos)
    · obtain ⟨earlier, cycles, later, rfl, hlt, hthrough⟩ :=
        @ih (dot - 4 * op.cycles) (by omega) (by omega)
      refine ⟨op :: earlier, cycles, later, rfl, ?_, ?_⟩ <;> rw [cyclesOf_cons] <;> omega

/-- The advance of a history in which a line of a frame is drawn. -/
theorem exists_drawing {ops : List ScreenOp} {frames : Nat}
    (h : 70080 * frames + 65520 ≤ 4 * cyclesOf ops) (row : Fin 144) :
    ∃ earlier cycles later, ops = earlier ++ .advance cycles :: later ∧
      4 * cyclesOf earlier < 70080 * frames + (455 * row.val + 310) ∧
      70080 * frames + (455 * row.val + 310) ≤ 4 * (cyclesOf earlier + cycles) := by
  have hline : 455 * row.val + 310 ≤ 65520 := by omega
  exact exists_advance_through (by omega) (Nat.le_trans (Nat.add_le_add_left hline _) h)

/-- The picture after the history `before ++ since` consists of the lines of its own
frame: of frame number `frames` since the screen came on with the end of `before`. -/
structure DrawsOwnLines (start : Screen) (before since : List ScreenOp) (frames : Nat) :
    Prop where
  onSince : OnSince start before since
  /-- The vertical blank of that frame has begun, and the next frame has not. -/
  inVblank : 70080 * frames + 65520 ≤ 4 * cyclesOf since ∧
    4 * cyclesOf since < 70080 * (frames + 1)
  frameCount : (start.run (before ++ since)).frameCount =
    (start.run before).frameCount + (frames + 1)
  /-- Each frame drew each line once, from the first to the last. -/
  order : (start.run before).linesDrawnIn since =
    (List.replicate (frames + 1) (List.range 144)).flatten
  /-- Each row is as the settings gave it that were in force during the advance in
  which its drawing ended. -/
  rows : ∀ row : Fin 144, ∃ earlier cycles later,
    since = earlier ++ .advance cycles :: later ∧
    4 * cyclesOf earlier < 70080 * frames + (455 * row.val + 310) ∧
    70080 * frames + (455 * row.val + 310) ≤ 4 * (cyclesOf earlier + cycles) ∧
    (start.run (before ++ since)).picture.get row = (start.run (before ++ earlier)).lineFor row

/-- The last drawing of a row is the one that shows. -/
theorem picture_of_drawn {frames : Nat} {earlier later : List ScreenOp} {cycles : Nat}
    (hreach : s.Reachable) (h : s.OnCourse before 0)
    (hstays : s.StaysOn (earlier ++ .advance cycles :: later)) (row : Fin 144)
    (hlt : 4 * cyclesOf earlier < 70080 * frames + (455 * row.val + 310))
    (hle : 70080 * frames + (455 * row.val + 310) ≤ 4 * (cyclesOf earlier + cycles))
    (hend : 4 * cyclesOf (earlier ++ .advance cycles :: later) < 70080 * (frames + 1)) :
    (s.run (earlier ++ .advance cycles :: later)).picture.get row =
      (s.run earlier).lineFor row := by
  have hrow := row.isLt
  obtain ⟨hcourse, -⟩ := h.stay hstays.left
  rw [Nat.zero_add] at hcourse
  have hthrough : (s.run earlier).StaysOn ([.advance cycles] ++ later) := hstays.right
  -- the advance comes to the end of the drawing, and nothing behind it does so again
  have hdrawn : row.val ∈ (s.run earlier).linesDrawnBy (.advance cycles) := by
    rw [hcourse.linesDrawnBy hstays.right.enabled, mem_linesWithin]
    refine ⟨hrow, 70080 * frames + (455 * row.val + 310), hlt, ?_, by omega⟩
    rw [← Nat.mul_add]
    exact hle
  have hnotAgain :
      row.val ∉ ((s.run earlier).apply (.advance cycles)).linesDrawnIn later := by
    rw [((hcourse.apply hthrough.left).stay hthrough.right).2, mem_linesWithin]
    rintro ⟨-, t, hafter, hbefore, ht⟩
    rw [cyclesOf_append, cyclesOf_cons] at hend
    simp only [ScreenOp.cycles] at hend hafter hbefore
    have hframe : t / 70080 = frames := by omega
    omega
  rw [run_append, run_cons, picture_run_of_not_mem ((hreach.run earlier).apply _) hnotAgain,
    picture_apply (hreach.run earlier), if_pos hdrawn]

/-- In every vertical blank the picture consists of the lines of its own frame. -/
theorem OnSince.drawsOwnLines {start : Screen} (hstart : start = .powerOn ∨ start = .postBoot)
    {before since : List ScreenOp} (h : OnSince start before since)
    (hm : (start.run (before ++ since)).mode = .vblank) :
    DrawsOwnLines start before since (4 * cyclesOf since / 70080) := by
  have hzero := h.onCourse hstart
  obtain ⟨hcourse, hlines⟩ := hzero.stay h.staysOn_run
  rw [Nat.zero_add, ← run_append] at hcourse
  have hblank : 65520 ≤ 4 * cyclesOf since % 70080 := hcourse.phase.visibleDots_le hm
  generalize hframes : 4 * cyclesOf since / 70080 = frames
  have htime : 70080 * frames + 65520 ≤ 4 * cyclesOf since ∧
      4 * cyclesOf since < 70080 * (frames + 1) := by omega
  refine ⟨h, htime, ?_, ?_, ?_⟩
  · have hpictures : picturesIn (4 * cyclesOf since) = (4 * cyclesOf since + 4560) / 70080 := rfl
    rw [hcourse.frameCount, hpictures]
    omega
  · obtain ⟨v, hv⟩ := Nat.exists_eq_add_of_le htime.1
    have hdots : 4 * cyclesOf since = frameDots * frames + (visibleDots + v) :=
      hv.trans (Nat.add_assoc _ _ _)
    rw [hlines, hdots]
    exact linesWithin_vblank frames (by omega)
  · intro row
    obtain ⟨earlier, cycles, later, rfl, hlt, hle⟩ := exists_drawing htime.1 row
    refine ⟨earlier, cycles, later, rfl, hlt, hle, ?_⟩
    rw [run_append start, run_append start]
    exact picture_of_drawn (reachable_of_initial hstart before) hzero h.staysOn_run row hlt hle
      htime.2

theorem exists_drawsOwnLines {start : Screen} (hstart : start = .powerOn ∨ start = .postBoot)
    {ops : List ScreenOp} (hm : (start.run ops).mode = .vblank) :
    ∃ before since frames, ops = before ++ since ∧ DrawsOwnLines start before since frames := by
  have htracks := tracks_of_initial hstart ops
  cases hon : (start.run ops).enabled with
  | false =>
    have hmode : (start.run ops).mode = .hblank := congrArg Position.mode (htracks.off hon)
    rw [hm] at hmode
    contradiction
  | true =>
    obtain ⟨before, since, rfl, hsince, -⟩ := htracks.on hon
    exact ⟨before, since, _, rfl, hsince.drawsOwnLines hstart hm⟩

/-- The moment of a history at which picture number `number` is complete: `cycles`
into an advance of `all` cycles, as its vertical blank begins. -/
structure Completes (start : Screen) (ops earlier : List ScreenOp) (cycles all number : Nat) :
    Prop where
  cut : ∃ later, ops = earlier ++ .advance all :: later
  cycles_le : cycles ≤ all
  position : (start.run (earlier ++ [.advance cycles])).position = positionAt 65520
  frameCount : (start.run (earlier ++ [.advance cycles])).frameCount = number
  /-- The rest of the advance takes the screen on to where the whole takes it. -/
  rest : start.run (earlier ++ [.advance cycles, .advance (all - cycles)]) =
    start.run (earlier ++ [.advance all])

theorem Completes.append {start : Screen} {ops earlier : List ScreenOp} {cycles all number : Nat}
    (h : Completes start ops earlier cycles all number) (more : List ScreenOp) :
    Completes start (ops ++ more) earlier cycles all number := by
  obtain ⟨later, rfl⟩ := h.cut
  exact ⟨⟨later ++ more, List.append_assoc ..⟩, h.cycles_le, h.position, h.frameCount,
    h.rest⟩

theorem apply_advance_add (s : Screen) (m n : Nat) :
    (s.apply (.advance m)).apply (.advance n) = s.apply (.advance (m + n)) :=
  (congrArg Prod.fst (s.advance_add m n)).symm

/-- An advance that completes pictures passes the moment of each. -/
theorem completes_of_advance {start : Screen} (hstart : start = .powerOn ∨ start = .postBoot)
    {ops : List ScreenOp} {all number : Nat} (hlt : (start.run ops).frameCount < number)
    (hle : number ≤ (start.run (ops ++ [.advance all])).frameCount) :
    ∃ cycles, Completes start (ops ++ [.advance all]) ops cycles all number := by
  have hrun : ∀ cycles, start.run (ops ++ [.advance cycles]) =
      ((start.run ops).advance cycles).1 := fun cycles => run_append start ops [.advance cycles]
  cases hon : (start.run ops).enabled with
  | false =>
    rw [hrun, advance_of_off hon] at hle
    exact absurd hlt (Nat.not_lt_of_le hle)
  | true =>
    obtain ⟨before, since, _, _, hcourse⟩ := (tracks_of_initial hstart ops).on hon
    generalize (start.run before).frameCount = already at hcourse
    have hpictures : ∀ dots, picturesIn dots = (dots + 4560) / 70080 := fun _ => rfl
    have hafter := hcourse.advance hon
    have hcount := hcourse.frameCount
    have hcountAfter := (hafter all).frameCount
    rw [← hrun] at hcountAfter
    rw [hcount, hpictures] at hlt
    rw [hcountAfter, hpictures] at hle
    -- the picture is complete 1140 cycles before the end of its frame
    obtain ⟨cycles, hcycles⟩ : ∃ cycles,
        cyclesOf since + cycles + 1140 = 17520 * (number - already) :=
      ⟨17520 * (number - already) - 1140 - cyclesOf since, by omega⟩
    have hwithin : cycles ≤ all := by omega
    refine ⟨cycles, ⟨[], rfl⟩, hwithin, ?_, ?_, ?_⟩
    · have hplace : (4 * cyclesOf since + 4 * cycles) % frameDots = 65520 := by
        show (4 * cyclesOf since + 4 * cycles) % 70080 = 65520
        omega
      rw [hrun, (hafter cycles).phase.position, hplace]
    · rw [hrun, (hafter cycles).frameCount, hpictures]
      omega
    · rw [run_append, run_append, run_cons, run_cons, run_cons, apply_advance_add,
        Nat.add_sub_of_le hwithin]

/-- Every completed picture of a history was complete at some moment of it. -/
theorem exists_completes {start : Screen} (hstart : start = .powerOn ∨ start = .postBoot)
    {ops : List ScreenOp} {number : Nat} (hpos : 0 < number)
    (hle : number ≤ (start.run ops).frameCount) :
    ∃ earlier cycles all, Completes start ops earlier cycles all number := by
  induction ops using List.reverseRecOn with
  | nil =>
    have hnone : (start.run []).frameCount = 0 := by rcases hstart with rfl | rfl <;> rfl
    omega
  | append_singleton ops op ih =>
    by_cases hbefore : number ≤ (start.run ops).frameCount
    · obtain ⟨earlier, cycles, all, h⟩ := ih hbefore
      exact ⟨earlier, cycles, all, h.append [op]⟩
    have hrun : start.run (ops ++ [op]) = (start.run ops).apply op := run_append start ops [op]
    rcases (start.run ops).apply_cases op with ⟨all, rfl⟩ | ⟨value, rfl, -⟩ | ⟨-, hsame⟩
    · obtain ⟨cycles, h⟩ := completes_of_advance hstart (by omega) hle
      exact ⟨ops, cycles, all, h⟩
    · rw [hrun, (frames_apply_of_isWrite rfl).1] at hle
      exact absurd hle hbefore
    · rw [hrun, hsame.frameCount] at hle
      exact absurd hle hbefore

end Handheld.Screen
