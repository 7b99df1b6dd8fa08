import Handheld.Proofs.Cartridge.Loading
import Handheld.Proofs.Machine.Reachable
import Handheld.Proofs.Screen.FrameClock

/-!
# The frame loop

Running a frame ends, and hands out the picture that was completed meanwhile.
No picture is lost, none is handed out twice, and none is skipped, whatever the
program does to the screen.

There are five groups.

* What a step does to the pictures.  A step completes at most one.
* The invariant of the loop.  `Underway` is kept by every step.  `StaysOn` adds
  that the screen is never switched off, and ties the pictures to the cycles.
* One frame.  A frame either shows a picture or gives up, and `Shows` and
  `GivesUp` say what the sink and the pace maker are told.
* A machine that waits.  It leaves its screen on forever.
* Frame after frame.  `Series` runs frames one after another.
-/

namespace Handheld

/-! ## What a step does to the pictures -/

namespace Screen

theorem picturesIn_add_le (dots more : Nat) (h : more ≤ frameDots) :
    picturesIn (dots + more) ≤ picturesIn dots + 1 := by
  have hF : frameDots = 70080 := rfl
  simp only [picturesIn, vblankLineDots, hF]
  omega

theorem picturesIn_add_frame (dots : Nat) :
    picturesIn (dots + frameDots) = picturesIn dots + 1 := by
  have hF : frameDots = 70080 := rfl
  simp only [picturesIn, vblankLineDots, hF]
  omega

theorem picturesIn_mono {dots more : Nat} (h : dots ≤ more) :
    picturesIn dots ≤ picturesIn more :=
  Nat.div_le_div_right (by omega)

/-- Writes complete no picture and take none. -/
theorem laterFrames_run_of_writesOf {writes : List (UInt16 × UInt8)} {ops : List ScreenOp}
    (h : WritesOf writes ops) (s : Screen) :
    (s.run ops).frameCount = s.frameCount ∧ (s.run ops).frameReady = s.frameReady := by
  induction ops generalizing s with
  | nil => exact ⟨rfl, rfl⟩
  | cons op ops ih =>
    obtain ⟨hcount, hready⟩ := frames_apply_of_isWrite (s := s) (h op (by simp)).1
    obtain ⟨hcount', hready'⟩ := ih (fun o ho => h o (by simp [ho])) (s.apply op)
    rw [run_cons, hcount', hready', hcount, hready]
    exact ⟨rfl, rfl⟩

/-- In the time of a frame at most one picture is completed. -/
theorem frameCount_advance_le {s : Screen} (h : s.Reachable) {cycles : Nat}
    (hcycles : 4 * cycles ≤ frameDots) :
    (s.advance cycles).1.frameCount ≤ s.frameCount + 1 := by
  cases hon : s.enabled with
  | false =>
    rw [advance_of_off hon]
    exact Nat.le_succ _
  | true =>
    obtain ⟨before, dots, hcourse⟩ := h.onCourse hon
    rw [hcourse.frameCount, (hcourse.advance hon cycles).frameCount]
    have hpictures := picturesIn_add_le dots _ hcycles
    omega

end Screen

namespace Machine

theorem laterFrames_step (m : Machine) :
    m.bus.screen.LaterFrames m.step.1.bus.screen := by
  obtain ⟨ops, heq, hops⟩ := m.exists_ops_step
  obtain ⟨hcount, hready⟩ := Screen.laterFrames_run_of_writesOf hops m.bus.screen
  rw [heq]
  exact (Screen.LaterFrames.of_eq hcount hready).trans (Screen.laterFrames_advance _ _)

/-- A step completes at most one picture. -/
theorem frameCount_step_le {m : Machine} (h : m.bus.screen.Reachable) :
    m.step.1.frameCount ≤ m.frameCount + 1 := by
  obtain ⟨ops, heq, hops⟩ := m.exists_ops_step
  obtain ⟨hcount, _⟩ := Screen.laterFrames_run_of_writesOf hops m.bus.screen
  have hF : Screen.frameDots = 70080 := rfl
  have hcycles := m.step_cycles
  have htime : 4 * m.step.2 ≤ Screen.frameDots := by omega
  have hle := Screen.frameCount_advance_le (h.run ops) htime
  rw [← heq, hcount] at hle
  exact hle

/-- No byte that the step writes switches the screen off. -/
def StepKeepsOn (m : Machine) : Prop :=
  ∀ w ∈ m.stepWrites, ¬ SwitchesScreenOff w

/-- A step that keeps the screen on moves it on its course by its cycles. -/
theorem StepKeepsOn.onCourse {m : Machine} (h : m.StepKeepsOn) {before dots : Nat}
    (hon : m.bus.screen.enabled = true) (hcourse : m.bus.screen.OnCourse before dots) :
    m.step.1.bus.screen.enabled = true ∧
      m.step.1.bus.screen.OnCourse before (dots + 4 * m.step.2) := by
  obtain ⟨ops, heq, hops⟩ := m.exists_ops_step
  have hkeep : ∀ op ∈ ops, op.switchesOff = false := by
    intro op hop
    rw [Bool.eq_false_iff]
    intro hoff
    obtain ⟨w, hw, hswitch⟩ := (hops op hop).2 hoff
    exact h w hw hswitch
  obtain ⟨honNow, hnow⟩ := hcourse.run hon hkeep
  rw [hops.cyclesOf_eq_zero, Nat.mul_zero, Nat.add_zero] at hnow
  rw [heq]
  exact ⟨(Screen.sameSettings_advance _ _).enabled.trans honNow, hnow.advance honNow _⟩

/-! ## The invariant of the loop -/

namespace FrameRun

variable {σ : Type}

/-- The run `r` has made `n` steps since a frame was begun at the screen
`start`. -/
structure Underway (start : Screen) (n : Nat) (r : FrameRun σ) : Prop where
  reachable : r.machine.bus.screen.Reachable
  /-- Every step took time. -/
  steps_le : n ≤ r.cycles
  laterFrames : start.LaterFrames r.machine.bus.screen

theorem underway_zero {m : Machine} (input : σ) (h : m.bus.screen.Reachable) :
    Underway m.bus.screen 0 { machine := m, input } :=
  ⟨h, Nat.zero_le _, .of_eq rfl rfl⟩

theorem next_machine (source : InputSource σ) (r : FrameRun σ) :
    (r.next source).machine = (r.pumped source).step.1 := rfl

theorem next_cycles (source : InputSource σ) (r : FrameRun σ) :
    (r.next source).cycles = r.cycles + (r.pumped source).step.2 := rfl

theorem pumped_screen (source : InputSource σ) (r : FrameRun σ) :
    (r.pumped source).bus.screen = r.machine.bus.screen :=
  pump_screen source r.machine r.input

theorem Underway.next {start : Screen} {n : Nat} {r : FrameRun σ} (h : Underway start n r)
    (source : InputSource σ) : Underway start (n + 1) (r.next source) := by
  have hscreen := r.pumped_screen source
  have hcycles := (r.pumped source).step_cycles
  have hsteps := h.steps_le
  refine ⟨?_, ?_, ?_⟩
  · rw [next_machine]
    apply screen_reachable_step
    rw [hscreen]
    exact h.reachable
  · rw [next_cycles]
    omega
  · have hstep := (r.pumped source).laterFrames_step
    rw [hscreen] at hstep
    exact h.laterFrames.trans hstep

theorem Underway.after {start : Screen} {r : FrameRun σ} (h : Underway start 0 r)
    (source : InputSource σ) (n : Nat) : Underway start n (r.after source n) := by
  induction n with
  | zero => exact h
  | succ n ih =>
    rw [after_succ]
    exact ih.next source

/-- While the run is not over no picture has been completed. -/
theorem Underway.frameCount_eq {start : Screen} {n : Nat} {r : FrameRun σ}
    (h : Underway start n r) (hstart : start.frameReady = false) (hgoing : r.finished = false) :
    r.machine.frameCount = start.frameCount ∧ r.cycles < frameBudget := by
  have hle := h.laterFrames.frameCount_le
  have hready := h.laterFrames.frameReady
  simp only [finished, Bool.or_eq_false_iff, decide_eq_false_iff_not] at hgoing
  rw [hgoing.1, hstart, Bool.false_or] at hready
  have hno := of_decide_eq_false hready.symm
  exact ⟨Nat.le_antisymm (Nat.le_of_not_lt hno) hle, by omega⟩

/-- The last step completes at most one picture, and does not go far beyond
the budget. -/
theorem Underway.last {start : Screen} {n : Nat} {r : FrameRun σ} (h : Underway start n r)
    (hstart : start.frameReady = false) (hgoing : r.finished = false)
    (source : InputSource σ) :
    (r.next source).machine.frameCount ≤ start.frameCount + 1 ∧
      (r.next source).cycles ≤ 35050 := by
  obtain ⟨hcount, htime⟩ := h.frameCount_eq hstart hgoing
  have hbudget : frameBudget = 35040 := rfl
  have hcycles := (r.pumped source).step_cycles
  have hreach : (r.pumped source).bus.screen.Reachable := by
    rw [pumped_screen]
    exact h.reachable
  have hpictures := frameCount_step_le hreach
  have hsame : (r.pumped source).frameCount = r.machine.frameCount :=
    congrArg Screen.frameCount (r.pumped_screen source)
  rw [next_machine, next_cycles]
  exact ⟨by omega, by omega⟩

/-- The screen stays on during the first `n` steps. -/
def StaysOn (source : InputSource σ) (n : Nat) (r : FrameRun σ) : Prop :=
  r.machine.bus.screen.enabled = true ∧
    ∀ k < n, ((r.after source k).pumped source).StepKeepsOn

/-- A screen that stays on is carried along its course by the cycles of the
run. -/
theorem StaysOn.onCourse {source : InputSource σ} {n : Nat} {r : FrameRun σ}
    (h : r.StaysOn source n) {before dots : Nat} (hzero : r.cycles = 0)
    (hcourse : r.machine.bus.screen.OnCourse before dots) :
    (r.after source n).machine.bus.screen.enabled = true ∧
      (r.after source n).machine.bus.screen.OnCourse before
        (dots + 4 * (r.after source n).cycles) := by
  induction n with
  | zero =>
    refine ⟨h.1, ?_⟩
    show r.machine.bus.screen.OnCourse before (dots + 4 * r.cycles)
    rw [hzero]
    exact hcourse
  | succ n ih =>
    obtain ⟨hon, hnow⟩ := ih ⟨h.1, fun k hk => h.2 k (by omega)⟩
    have hkeep := h.2 n (by omega)
    rw [← pumped_screen source] at hon hnow
    obtain ⟨honNext, hnext⟩ := hkeep.onCourse hon hnow
    rw [after_succ, next_machine, next_cycles, Nat.mul_add, ← Nat.add_assoc]
    exact ⟨honNext, hnext⟩

/-- A screen that stays on completes a picture in the time of a frame. -/
theorem StaysOn.frameCount {source : InputSource σ} {n : Nat} {r : FrameRun σ}
    (h : r.StaysOn source n) (hreach : r.machine.bus.screen.Reachable) (hzero : r.cycles = 0)
    (htime : frameCycles ≤ (r.after source n).cycles) :
    r.machine.frameCount < (r.after source n).machine.frameCount := by
  obtain ⟨before, dots, hcourse⟩ := hreach.onCourse h.1
  obtain ⟨_, hend⟩ := h.onCourse hzero hcourse
  have hF : Screen.frameDots = 4 * frameCycles := rfl
  have hdots : dots + Screen.frameDots ≤ dots + 4 * (r.after source n).cycles := by omega
  have hmono := Screen.picturesIn_mono hdots
  rw [Screen.picturesIn_add_frame] at hmono
  have hcount := hcourse.frameCount
  have hcountEnd := hend.frameCount
  simp only [Machine.frameCount]
  omega

end FrameRun

/-! ## One frame -/

variable {σ : Type}

/-- The frame shows a picture: the next one, and the sink and the pace maker
are each told of it once. -/
structure Shows (m : Machine) (r : FrameResult σ) : Prop where
  frameCount : r.machine.frameCount = m.frameCount + 1
  sink : ∀ {τ : Type} (sink : PictureSink τ) (state : τ),
    r.tellSink sink state =
      sink.present r.machine.bus.screen.picture (m.frameCount + 1) state
  paceMaker : ∀ {τ : Type} (pace : PaceMaker τ) (state : τ),
    r.tellPaceMaker pace state = pace.completed (m.frameCount + 1) state

/-- The frame gives up: no picture was completed in the time of two frames, and
nobody is told of any. -/
structure GivesUp (m : Machine) (r : FrameResult σ) : Prop where
  frameCount : r.machine.frameCount = m.frameCount
  sink : ∀ {τ : Type} (sink : PictureSink τ) (state : τ), r.tellSink sink state = state
  paceMaker : ∀ {τ : Type} (pace : PaceMaker τ) (state : τ), r.tellPaceMaker pace state = state
  cycles : frameBudget ≤ r.cycles

theorem Shows.not_givesUp {m : Machine} {r : FrameResult σ} (h : Shows m r) :
    ¬ GivesUp m r := by
  intro hgives
  have hnext := h.frameCount
  rw [hgives.frameCount] at hnext
  omega

theorem FrameRun.present_of_ready {r : FrameRun σ}
    (h : r.machine.bus.screen.frameReady = true) :
    r.present =
      { machine := { r.machine with bus.screen := r.machine.bus.screen.takeFrame }
        input := r.input
        cycles := r.cycles
        presented := some ⟨r.machine.frameCount, r.machine.bus.screen.picture⟩ } := by
  rw [FrameRun.present]
  simp only
  rw [if_pos h]
  rfl

theorem FrameRun.present_of_not_ready {r : FrameRun σ}
    (h : r.machine.bus.screen.frameReady = false) :
    r.present =
      { machine := r.machine, input := r.input, cycles := r.cycles, presented := none } := by
  rw [FrameRun.present]
  simp only
  rw [if_neg (by simp [h])]

theorem FrameRun.present_cycles (r : FrameRun σ) : r.present.cycles = r.cycles := by
  cases h : r.machine.bus.screen.frameReady with
  | true => rw [present_of_ready h]
  | false => rw [present_of_not_ready h]

/-- Afterwards no picture is waiting. -/
theorem FrameRun.frameReady_present (r : FrameRun σ) :
    r.present.machine.bus.screen.frameReady = false := by
  cases h : r.machine.bus.screen.frameReady with
  | true =>
    rw [present_of_ready h]
    rfl
  | false =>
    rw [present_of_not_ready h]
    exact h

theorem FrameRun.shows_present {m : Machine} {r : FrameRun σ}
    (h : r.machine.bus.screen.frameReady = true)
    (hcount : r.machine.frameCount = m.frameCount + 1) : Shows m r.present := by
  rw [present_of_ready h, hcount]
  exact ⟨hcount, fun _ _ => rfl, fun _ _ => rfl⟩

theorem FrameRun.givesUp_present {m : Machine} {r : FrameRun σ}
    (h : r.machine.bus.screen.frameReady = false)
    (hcount : r.machine.frameCount = m.frameCount) (hcycles : frameBudget ≤ r.cycles) :
    GivesUp m r.present := by
  rw [present_of_not_ready h]
  exact ⟨hcount, fun _ _ => rfl, fun _ _ => rfl, hcycles⟩

/-- The loop of a frame stops because the run is over, and not because the fuel
is used up. -/
theorem exists_last_step {m : Machine} (h : m.bus.screen.Reachable)
    (hready : m.bus.screen.frameReady = false) (source : InputSource σ) (input : σ) :
    ∃ n < frameBudget,
      (∀ k ≤ n, (FrameRun.after source k { machine := m, input }).finished = false) ∧
      (FrameRun.after source (n + 1) { machine := m, input }).finished = true ∧
      m.runFrame source input =
        (FrameRun.after source (n + 1) { machine := m, input }).present := by
  obtain ⟨n, hn, hrun, hbefore, hend⟩ :=
    FrameRun.run_eq_after source frameBudget { machine := m, input }
  have hunder := (FrameRun.underway_zero input h).after source n
  have hover : (FrameRun.after source n { machine := m, input }).finished = true := by
    rcases hend with hend | hend
    · exact hend
    · have hsteps := hunder.steps_le
      rw [FrameRun.finished, Bool.or_eq_true, decide_eq_true_iff]
      omega
  cases n with
  | zero =>
    have hbegin : FrameRun.finished { machine := m, input } = false := by
      simp [FrameRun.finished, hready, frameBudget, frameCycles]
    rw [FrameRun.after, hbegin] at hover
    contradiction
  | succ n =>
    refine ⟨n, hn, fun k hk => hbefore k (by omega), hover, ?_⟩
    rw [runFrame, hrun]

/-- A frame ends in one of two ways. -/
theorem FrameRun.shows_or_givesUp {m : Machine} {n : Nat} {r : FrameRun σ}
    (h : Underway m.bus.screen n r) (hready : m.bus.screen.frameReady = false)
    (hcount : r.machine.frameCount ≤ m.frameCount + 1) (hover : r.finished = true) :
    Shows m r.present ∨ GivesUp m r.present := by
  have hle := h.laterFrames.frameCount_le
  have hflag := h.laterFrames.frameReady
  rw [hready, Bool.false_or] at hflag
  cases hr : r.machine.bus.screen.frameReady with
  | true =>
    rw [hr] at hflag
    have hlt := of_decide_eq_true hflag.symm
    exact Or.inl (shows_present hr (Nat.le_antisymm hcount hlt))
  | false =>
    rw [hr] at hflag
    have hno := of_decide_eq_false hflag.symm
    rw [finished, hr, Bool.false_or, decide_eq_true_iff] at hover
    exact Or.inr (givesUp_present hr (Nat.le_antisymm (Nat.le_of_not_lt hno) hle) hover)

/-- What running a frame comes to, with the number of steps that it takes. -/
theorem exists_outcome {m : Machine} (h : m.bus.screen.Reachable)
    (hready : m.bus.screen.frameReady = false) (source : InputSource σ) (input : σ) :
    ∃ n ≤ frameBudget,
      (∀ k < n, (FrameRun.after source k { machine := m, input }).finished = false) ∧
      (FrameRun.after source n { machine := m, input }).finished = true ∧
      m.runFrame source input = (FrameRun.after source n { machine := m, input }).present ∧
      (m.runFrame source input).cycles ≤ 35050 ∧
      (Shows m (m.runFrame source input) ∨ GivesUp m (m.runFrame source input)) ∧
      (FrameRun.StaysOn source n { machine := m, input } →
        Shows m (m.runFrame source input) ∧ (m.runFrame source input).cycles ≤ 17530) := by
  obtain ⟨n, hn, hgoing, hover, hrun⟩ := exists_last_step h hready source input
  have hunder := (FrameRun.underway_zero input h).after source
  have hlast := (hunder n).last hready (hgoing n (Nat.le_refl n)) source
  rw [← FrameRun.after_succ] at hlast
  have houtcome := FrameRun.shows_or_givesUp (hunder (n + 1)) hready hlast.1 hover
  rw [hrun, FrameRun.present_cycles]
  refine ⟨n + 1, hn, fun k hk => hgoing k (by omega), hover, rfl, hlast.2, houtcome, ?_⟩
  intro hstays
  -- the last step began before the time of a frame was over
  have hbegun : (FrameRun.after source n { machine := m, input }).cycles < frameCycles := by
    by_contra hlong
    have hon : FrameRun.StaysOn source n { machine := m, input } :=
      ⟨hstays.1, fun k hk => hstays.2 k (by omega)⟩
    have hmore := hon.frameCount h rfl (by omega)
    have hsame := ((hunder n).frameCount_eq hready (hgoing n (Nat.le_refl n))).1
    exact absurd hmore (by simp only [hsame]; exact Nat.lt_irrefl _)
  have hcycles := ((FrameRun.after source n { machine := m, input }).pumped source).step_cycles
  have hframe : frameCycles = 17520 := rfl
  have hbudget : frameBudget = 35040 := rfl
  have htime : (FrameRun.after source (n + 1) { machine := m, input }).cycles ≤ 17530 := by
    rw [FrameRun.after_succ, FrameRun.next_cycles]
    omega
  refine ⟨?_, htime⟩
  rcases houtcome with hshows | hgives
  · exact hshows
  · have hlong := hgives.cycles
    rw [FrameRun.present_cycles] at hlong
    omega

/-! ## A machine that waits -/

/-- The machine waits for an interrupt, but none is enabled. -/
structure Asleep (m : Machine) : Prop where
  halted : m.cpu.halted = true
  ime : m.cpu.ime = false
  enables : m.bus.enables = 0

theorem nextPending_of_disabled (requests : UInt8) : Interrupt.nextPending requests 0 = none := by
  simp [Interrupt.nextPending, Interrupt.all, Interrupt.isSet]

theorem Asleep.stepWrites {m : Machine} (h : m.Asleep) : m.stepWrites = [] := by
  rw [Machine.stepWrites, instructionWrites, if_pos h.halted, executeOrIdle, if_pos h.halted,
    dispatchWrites, pending]
  have henables : (m.runTimer idleCycles).bus.enables = 0 := h.enables
  simp only [henables, nextPending_of_disabled, ite_self, List.append_nil]

theorem Asleep.step {m : Machine} (h : m.Asleep) : m.step.1.Asleep := by
  have henables : (m.runTimer idleCycles).bus.enables = 0 := h.enables
  have hpending : (m.runTimer idleCycles).pending = none := by
    simp only [pending, henables, nextPending_of_disabled, ite_self]
  rw [Machine.step, stepCpu, executeOrIdle, if_pos h.halted]
  simp only [serveInterrupts, hpending]
  exact ⟨h.halted, h.ime, h.enables⟩

theorem Asleep.press {m : Machine} (h : m.Asleep) (event : ButtonEvent) :
    (m.press event).Asleep :=
  ⟨h.halted, h.ime, h.enables⟩

/-- A machine that waits forever leaves its screen on. -/
theorem Asleep.staysOn {m : Machine} (h : m.Asleep) (hon : m.bus.screen.enabled = true)
    (source : InputSource σ) (input : σ) (n : Nat) :
    FrameRun.StaysOn source n { machine := m, input } := by
  refine ⟨hon, fun k _ w hw => ?_⟩
  have hafter : (FrameRun.after source k { machine := m, input }).machine.Asleep :=
    FrameRun.after_induction (fun _ event h => h.press event) (fun _ h => h.step) source k h
  have hpumped := pump_induction (fun _ event h => h.press event) source
    (FrameRun.after source k { machine := m, input }).input hafter
  rw [FrameRun.pumped, hpumped.stepWrites] at hw
  exact absurd hw List.not_mem_nil

/-- The initial machine with a cartridge that lets the CPU wait, whatever is executed. -/
def beforeWaiting : Machine :=
  { postBoot with bus := postBoot.bus.insert (.filled 0x76) }

/-- The machine with this cartridge, after its first instruction. -/
def waiting : Machine :=
  beforeWaiting.step.1

theorem nextInstruction_beforeWaiting : beforeWaiting.nextInstruction = .halt := by
  have hplace : Place.ofAddress 0x0100 = .cartridge := rfl
  have hcartridge : beforeWaiting.bus.cartridge = some (.filled 0x76) := rfl
  have hread : beforeWaiting.bus.read 0x0100 = 0x76 := by
    simp only [Bus.read, hplace, hcartridge, Cartridge.read_filled]
  have hpc : beforeWaiting.cpu.regs.pc = 0x0100 := rfl
  rw [nextInstruction, Instruction.decode, hpc, hread]
  rfl

/-- One cycle after the start the machine waits. -/
theorem asleep_waiting :
    waiting.Asleep ∧ waiting.bus.screen = (Screen.postBoot.advance 1).1 := by
  have hexecute : beforeWaiting.executeOrIdle =
      ({ beforeWaiting with cpu := { skip .postBoot .halt with halted := true } }, 1) := by
    rw [executeOrIdle, if_neg (by decide), executeNext, nextInstruction_beforeWaiting]
    rfl
  have hpending : (Machine.runTimer { beforeWaiting with
      cpu := { skip .postBoot .halt with halted := true } } 1).pending = none := by
    show (if _ then Interrupt.nextPending _ 0 else none) = none
    rw [nextPending_of_disabled, ite_self]
  rw [waiting, Machine.step, stepCpu, hexecute]
  simp only [serveInterrupts, hpending]
  exact ⟨⟨rfl, rfl, rfl⟩, rfl⟩

theorem frameReady_waiting : waiting.bus.screen.frameReady = false := by
  have hcourse : Screen.postBoot.OnCourse 0 0 := Screen.onCourse_startFrame _
  have hcount := (hcourse.advance rfl 1).frameCount
  have hready := (Screen.laterFrames_advance Screen.postBoot 1).frameReady
  rw [hcount] at hready
  rw [asleep_waiting.2, hready]
  rfl

/-! ## Frame after frame -/

/-- A machine on which nothing has been run. -/
inductive Fresh : Machine → Prop where
  | powerOn : Fresh .powerOn
  | postBoot : Fresh .postBoot
  | insert {m : Machine} (c : Cartridge) : Fresh m → Fresh { m with bus := m.bus.insert c }
  | installBoot {m : Machine} (boot : Array UInt8) :
      Fresh m → Fresh { m with bus := m.bus.installBoot boot }

theorem Fresh.reachable {m : Machine} (h : Fresh m) : m.Reachable := by
  induction h with
  | powerOn => exact .powerOn
  | postBoot => exact .postBoot
  | insert c _ ih => exact ih.insert c
  | installBoot boot _ ih => exact ih.installBoot boot

theorem Fresh.screen {m : Machine} (h : Fresh m) :
    m.frameCount = 0 ∧ m.bus.screen.frameReady = false := by
  induction h with
  | powerOn => exact ⟨rfl, rfl⟩
  | postBoot => exact ⟨rfl, rfl⟩
  | insert c _ ih => exact ih
  | installBoot boot _ ih =>
    rw [frameCount, screen_installBoot]
    exact ih

/-- A sink that notes the numbers of the pictures. -/
def numberSink : PictureSink (List Nat) where
  present := fun _ number seen => seen ++ [number]

/-- A pace maker that notes the numbers of the pictures. -/
def numberPaceMaker : PaceMaker (List Nat) where
  completed := fun number seen => seen ++ [number]

/-- Frames that are run one after another, each with a source of its own: the
machine afterwards, and the numbers that the sink and the pace maker noted. -/
inductive Series (start : Machine) : Machine → List Nat → List Nat → Prop where
  | start : Series start start [] []
  | frame {m : Machine} {shown told : List Nat} {σ : Type} (source : InputSource σ)
      (input : σ) : Series start m shown told →
      Series start (m.runFrame source input).machine
        ((m.runFrame source input).tellSink numberSink shown)
        ((m.runFrame source input).tellPaceMaker numberPaceMaker told)

theorem frameReady_runFrame {m : Machine} (h : m.bus.screen.Reachable)
    (hready : m.bus.screen.frameReady = false) (source : InputSource σ) (input : σ) :
    (m.runFrame source input).machine.bus.screen.frameReady = false := by
  obtain ⟨n, _, _, _, hrun⟩ := exists_last_step h hready source input
  rw [hrun]
  exact FrameRun.frameReady_present _

/-- The numbers noted so far are the numbers of all pictures completed so
far. -/
theorem Series.numbers {start m : Machine} {shown told : List Nat} (hstart : Fresh start)
    (h : Series start m shown told) :
    m.Reachable ∧ m.bus.screen.frameReady = false ∧
      shown = List.range' 1 m.frameCount ∧ told = List.range' 1 m.frameCount := by
  induction h with
  | start =>
    obtain ⟨hcount, hready⟩ := hstart.screen
    rw [hcount]
    exact ⟨hstart.reachable, hready, rfl, rfl⟩
  | @frame m shown told σ source input _ ih =>
    obtain ⟨hreach, hready, hshown, htold⟩ := ih
    refine ⟨hreach.runFrame source input,
      frameReady_runFrame hreach.screen hready source input, ?_⟩
    obtain ⟨_, _, _, _, _, _, houtcome, _⟩ := exists_outcome hreach.screen hready source input
    rcases houtcome with hshows | hgives
    · rw [hshows.sink, hshows.paceMaker, hshows.frameCount, List.range'_1_concat, hshown, htold,
        Nat.add_comm 1 m.frameCount]
      exact ⟨rfl, rfl⟩
    · rw [hgives.sink, hgives.paceMaker, hgives.frameCount]
      exact ⟨hshown, htold⟩

/-- Running a frame ends after at most as many steps as the budget has cycles,
and its last step overshoots the budget by at most ten cycles.  It either shows
one new picture or gives up, and while the screen stays on it shows one, in
little more than the time of a frame.  Over a series of frames from a fresh
machine the sink and the pace maker are told of the pictures 1, 2, 3, and so on,
of each exactly once. -/
theorem runFrame_shows_each_picture_once :
    (∀ {σ : Type} (source : InputSource σ) (input : σ) (m : Machine), m.Reachable →
      m.bus.screen.frameReady = false →
      ∃ n ≤ frameBudget,
        (∀ k < n, (FrameRun.after source k { machine := m, input }).finished = false) ∧
        (FrameRun.after source n { machine := m, input }).finished = true ∧
        m.runFrame source input =
          (FrameRun.after source n { machine := m, input }).present ∧
        (m.runFrame source input).cycles ≤ 35050 ∧
        (m.runFrame source input).machine.bus.screen.frameReady = false ∧
        Xor (Shows m (m.runFrame source input)) (GivesUp m (m.runFrame source input)) ∧
        (FrameRun.StaysOn source n { machine := m, input } →
          Shows m (m.runFrame source input) ∧ (m.runFrame source input).cycles ≤ 17530)) ∧
    ∀ (start m : Machine) (shown told : List Nat), Fresh start → Series start m shown told →
      shown = List.range' 1 m.frameCount ∧ told = List.range' 1 m.frameCount := by
  refine ⟨?_, ?_⟩
  · intro σ source input m hreach hready
    obtain ⟨n, hn, hgoing, hover, hrun, hcycles, houtcome, hstays⟩ :=
      exists_outcome hreach.screen hready source input
    have hafter := frameReady_runFrame hreach.screen hready source input
    refine ⟨n, hn, hgoing, hover, hrun, hcycles, hafter, ?_, hstays⟩
    rcases houtcome with hshows | hgives
    · exact Or.inl ⟨hshows, hshows.not_givesUp⟩
    · exact Or.inr ⟨hgives, fun hshows => hshows.not_givesUp hgives⟩
  · intro start m shown told hstart hseries
    exact (hseries.numbers hstart).2.2

/-- A frame of the waiting machine, and a series of frames of the initial one. -/
theorem runFrame_waiting :
    Cartridge.load (.replicate 0x150 0x76) = .ok (.filled 0x76) ∧
    (waiting.Reachable ∧ waiting.bus.screen.frameReady = false ∧
      Shows waiting (waiting.runFrame (scriptSource true) []) ∧
      (waiting.runFrame (scriptSource true) []).cycles ≤ 17530) ∧
    ∃ m shown told, Fresh postBoot ∧ Series postBoot m shown told ∧
      shown = List.range' 1 m.frameCount ∧ told = List.range' 1 m.frameCount := by
  have hreach : waiting.Reachable := (Reachable.postBoot.insert (.filled 0x76)).step
  have hon : waiting.bus.screen.enabled = true := by
    rw [asleep_waiting.2]
    exact (Screen.sameSettings_advance _ 1).enabled
  obtain ⟨n, _, _, _, _, _, _, _, hstays⟩ :=
    runFrame_shows_each_picture_once.1 (scriptSource true) [] waiting hreach frameReady_waiting
  have hnone : Series postBoot postBoot [] [] := .start
  have hseries := hnone.frame (scriptSource true) []
  refine ⟨Cartridge.load_filled 0x76,
    ⟨hreach, frameReady_waiting, hstays (asleep_waiting.1.staysOn hon _ _ n)⟩, ?_⟩
  exact ⟨_, _, _, .postBoot, hseries.frame (scriptSource false) [some ⟨.a, true⟩],
    runFrame_shows_each_picture_once.2 _ _ _ _ .postBoot (hseries.frame _ _)⟩

end Machine
end Handheld
