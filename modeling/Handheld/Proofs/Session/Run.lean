import Mathlib.Algebra.BigOperators.Group.Finset.Basic
import Mathlib.Order.Nat
import Handheld.Proofs.Input.Handles
import Handheld.Proofs.Input.Replay
import Handheld.Proofs.Machine.Clocks
import Handheld.Proofs.Machine.FrameLoop
import Handheld.Session.Plan
import Handheld.Session.Report

/-!
# Running a session

A session stops behind the first frame at which a limit is reached.  It does stop,
since a frame takes at least one cycle whatever the program does, and what it
reports then is what happened.

* `runFrame_of_drain` says that the events that are there when a frame begins happen
  before its first step, and `cycles_runFrame` that the CPU counts what the frame
  counts.
* `frames` is the session after a number of frames, and `run_of_isLeast` says behind
  which of them the loop stops.
* `Sound` is what every frame keeps.
* `due` are the events with which a frame begins, and `mem_due` says which they are.
* `run_of_start` is the result.
-/

namespace Handheld

namespace Machine

variable {σ τ : Type}

/-! ## Events that are there from the start -/

/-- A source that never has an event. -/
def noInput : InputSource Unit where
  drain := fun _ => ([], ())

def FrameRun.withInput (r : FrameRun σ) (input : τ) : FrameRun τ :=
  { machine := r.machine, input, cycles := r.cycles }

def FrameResult.withInput (r : FrameResult σ) (input : τ) : FrameResult τ :=
  { machine := r.machine, input, cycles := r.cycles, presented := r.presented }

theorem FrameRun.present_withInput (r : FrameRun σ) (input : τ) :
    (r.withInput input).present = r.present.withInput input := by
  cases h : r.machine.bus.screen.frameReady with
  | true =>
    have hwith : (r.withInput input).machine.bus.screen.frameReady = true := h
    rw [present_of_ready h, present_of_ready hwith]
    rfl
  | false =>
    have hwith : (r.withInput input).machine.bus.screen.frameReady = false := h
    rw [present_of_not_ready h, present_of_not_ready hwith]
    rfl

/-- A source that has run dry is no source. -/
theorem FrameRun.run_of_dry {source : InputSource σ} {rest : σ}
    (h : source.drain rest = ([], rest)) (fuel : Nat) (r : FrameRun Unit) :
    (r.withInput rest).run source fuel = (r.run noInput fuel).withInput rest := by
  induction fuel generalizing r with
  | zero => rfl
  | succ fuel ih =>
    have hnext : (r.withInput rest).next source = (r.next noInput).withInput rest := by
      simp only [next, pump, withInput, noInput, h, List.foldl_nil, ite_self]
    have hover : (r.withInput rest).finished = r.finished := rfl
    rw [run, run, hnext, hover, ih]
    split <;> rfl

theorem FrameRun.run_of_going {source : InputSource σ} {r : FrameRun σ} (h : r.finished = false)
    (fuel : Nat) : r.run source (fuel + 1) = (r.next source).run source fuel := by
  rw [run, h]
  rfl

theorem screen_foldl_press (events : List ButtonEvent) (m : Machine) :
    (events.foldl press m).bus.screen = m.bus.screen := by
  induction events generalizing m with
  | nil => rfl
  | cons event events ih => exact ih (m.press event)

/-- A frame whose events are all there at its start is one in which they happen
before it begins. -/
theorem runFrame_of_drain {source : InputSource σ} {input rest : σ} {events : List ButtonEvent}
    (hfocused : source.focused input = true) (hdrain : source.drain input = (events, rest))
    (hdry : source.drain rest = ([], rest)) {m : Machine}
    (hready : m.bus.screen.frameReady = false) :
    m.runFrame source input =
      ((events.foldl press m).runFrame noInput ()).withInput rest := by
  let begun : FrameRun σ := { machine := m, input }
  let pressed : FrameRun Unit := { machine := events.foldl press m, input := () }
  have hbegun : begun.finished = false := by
    simp [begun, FrameRun.finished, hready, frameBudget, frameCycles]
  have hpressed : pressed.finished = false := by
    simp [pressed, FrameRun.finished, screen_foldl_press, hready, frameBudget, frameCycles]
  have hnext : begun.next source = (pressed.next noInput).withInput rest := by
    simp only [begun, pressed, FrameRun.next, pump, FrameRun.withInput, noInput, hdrain, hfocused,
      if_true, List.foldl_nil]
  have hbudget : frameBudget = 35039 + 1 := rfl
  have hrun : begun.run source frameBudget = (pressed.run noInput frameBudget).withInput rest := by
    rw [hbudget, FrameRun.run_of_going hbegun, FrameRun.run_of_going hpressed, hnext,
      FrameRun.run_of_dry hdry]
  rw [runFrame, runFrame, ← FrameRun.present_withInput, ← hrun]

/-! ## The clock of the CPU -/

theorem FrameRun.cycles_after (source : InputSource σ) (n : Nat) (r : FrameRun σ) :
    (r.after source n).machine.cpu.cycles + r.cycles.toUInt64 =
      r.machine.cpu.cycles + (r.after source n).cycles.toUInt64 := by
  induction n with
  | zero => rfl
  | succ n ih =>
    have hpumped : ((r.after source n).pumped source).cpu = (r.after source n).machine.cpu :=
      pump_induction (P := fun m => m.cpu = (r.after source n).machine.cpu) (fun _ _ h => h) source
        _ rfl
    have htotal : ∀ a b : Nat, (a + b).toUInt64 = a.toUInt64 + b.toUInt64 :=
      fun a b => UInt64.ofNat_add a b
    rw [after_succ, next_machine, next_cycles, cycles_step, hpumped, htotal, ← UInt64.add_assoc,
      ← ih]
    ac_rfl

/-- A frame counts its cycles once. -/
theorem cycles_runFrame (source : InputSource σ) (m : Machine) (input : σ) :
    (m.runFrame source input).machine.cpu.cycles =
      m.cpu.cycles + (m.runFrame source input).cycles.toUInt64 := by
  obtain ⟨n, -, hrun, -⟩ := FrameRun.run_eq_after source frameBudget { machine := m, input }
  have hafter := FrameRun.cycles_after source n { machine := m, input }
  have hpresent : ∀ r : FrameRun σ, r.present.machine.cpu = r.machine.cpu := by
    intro r
    cases h : r.machine.bus.screen.frameReady with
    | true => rw [FrameRun.present_of_ready h]
    | false => rw [FrameRun.present_of_not_ready h]
  rw [runFrame, hrun, hpresent, FrameRun.present_cycles, ← hafter]
  exact (UInt64.add_zero _).symm

end Machine

namespace Session

/-! ## Frame after frame -/

/-- The session after `k` frames. -/
def frames (s : Session) : Nat → Session
  | 0 => s
  | k + 1 => (s.frames k).frame

/-- What running the next frame comes to. -/
def result (s : Session) : Machine.FrameResult SessionInput :=
  s.machine.runFrame SessionInput.source s.frameInput

/-- The cycles of the first `k` frames. -/
def cyclesOf (s : Session) (k : Nat) : Nat :=
  ∑ j ∈ Finset.range k, (s.frames j).result.cycles

/-- The pictures that the first `k` frames hand out. -/
def picturesOf (s : Session) (k : Nat) : Nat :=
  (List.range k).countP fun j => (s.frames j).result.presented.isSome

/-- The numbers of pictures with which the first `k` frames begin. -/
def reached (s : Session) (k : Nat) : List Nat :=
  (List.range k).map fun j => (s.frames j).machine.frameCount

theorem frames_frame (s : Session) (k : Nat) : s.frame.frames k = s.frames (k + 1) := by
  induction k with
  | zero => rfl
  | succ k ih => exact congrArg frame ih

theorem run_eq_frames {limits : Limits} {fuel k : Nat} {s : Session} (hfuel : k < fuel)
    (hgoing : ∀ j < k, (s.frames (j + 1)).isOver limits = false)
    (hover : (s.frames (k + 1)).isOver limits = true) :
    s.run limits fuel = s.frames (k + 1) := by
  induction fuel generalizing s k with
  | zero => exact absurd hfuel (Nat.not_lt_zero k)
  | succ fuel ih =>
    rw [run]
    cases k with
    | zero => exact if_pos hover
    | succ k =>
      have hfirst : s.frame.isOver limits = false := hgoing 0 (Nat.succ_pos k)
      rw [hfirst, if_neg Bool.false_ne_true, ← frames_frame]
      refine ih (Nat.lt_of_succ_lt_succ hfuel) ?_ ?_
      · intro j hj
        rw [frames_frame]
        exact hgoing (j + 1) (Nat.succ_lt_succ hj)
      · rw [frames_frame]
        exact hover

/-- The loop stops behind the first frame at which a limit is reached, given as a
least number. -/
theorem run_of_isLeast {limits : Limits} {fuel k : Nat} {s : Session}
    (h : IsLeast {k | 1 ≤ k ∧ (s.frames k).isOver limits = true} k) (hfuel : k ≤ fuel) :
    s.run limits fuel = s.frames k := by
  obtain ⟨⟨hpos, hover⟩, hleast⟩ := h
  obtain ⟨last, rfl⟩ := Nat.exists_eq_add_of_le' hpos
  refine run_eq_frames hfuel (fun j hj => ?_) hover
  rw [← Bool.not_eq_true]
  intro hsooner
  have hle : last + 1 ≤ j + 1 := hleast ⟨Nat.succ_pos j, hsooner⟩
  omega

/-! ## What every frame keeps -/

/-- The clocks and the counters of a session agree. -/
structure Sound (s : Session) : Prop where
  reachable : s.machine.Reachable
  frameReady : s.machine.bus.screen.frameReady = false
  clock : s.machine.cpu.cycles = s.cycles.toUInt64
  presented : s.presented = s.machine.frameCount

/-- A sink that notes that it was told. -/
def noticingSink : Machine.PictureSink Bool where
  present := fun _ _ _ => true

theorem isSome_presented (r : Machine.FrameResult SessionInput) :
    r.presented.isSome = r.tellSink noticingSink false := by
  unfold Machine.FrameResult.tellSink
  cases r.presented <;> rfl

theorem Sound.frame {s : Session} (h : s.Sound) : s.frame.Sound := by
  have hclock := Machine.cycles_runFrame SessionInput.source s.machine s.frameInput
  obtain ⟨_, _, _, _, _, _, houtcome, _⟩ :=
    Machine.exists_outcome h.reachable.screen h.frameReady SessionInput.source s.frameInput
  refine ⟨h.reachable.runFrame _ _,
    Machine.frameReady_runFrame h.reachable.screen h.frameReady _ _, ?_, ?_⟩
  · show s.result.machine.cpu.cycles = (s.cycles + s.result.cycles).toUInt64
    have htotal : (s.cycles + s.result.cycles).toUInt64 =
        s.cycles.toUInt64 + s.result.cycles.toUInt64 := UInt64.ofNat_add _ _
    rw [htotal, ← h.clock]
    exact hclock
  · show ((s.result.tellSink keepLast s.shown).map (·.number)).getD 0 =
      s.result.machine.frameCount
    rcases houtcome with hshows | hgives
    · have htold : s.result.tellSink keepLast s.shown = some _ := hshows.sink keepLast s.shown
      rw [htold]
      exact hshows.frameCount.symm
    · have htold : s.result.tellSink keepLast s.shown = s.shown := hgives.sink keepLast s.shown
      rw [htold]
      exact h.presented.trans hgives.frameCount.symm

/-- A frame takes time, and not much more than its budget. -/
theorem Sound.cycles_result {s : Session} (h : s.Sound) :
    1 ≤ s.result.cycles ∧ s.result.cycles ≤ 35050 := by
  obtain ⟨n, -, -, -, hrun⟩ :=
    Machine.exists_last_step h.reachable.screen h.frameReady SessionInput.source s.frameInput
  obtain ⟨_, _, _, _, _, hcycles, _, _⟩ :=
    Machine.exists_outcome h.reachable.screen h.frameReady SessionInput.source s.frameInput
  refine ⟨?_, hcycles⟩
  have hsteps := ((Machine.FrameRun.underway_zero s.frameInput h.reachable.screen).after
    SessionInput.source (n + 1)).steps_le
  rw [result, hrun, Machine.FrameRun.present_cycles]
  omega

/-- A frame that hands out a picture has completed one, and no other has. -/
theorem Sound.frameCount_frame {s : Session} (h : s.Sound) :
    s.frame.machine.frameCount =
      s.machine.frameCount + if s.result.presented.isSome then 1 else 0 := by
  obtain ⟨_, _, _, _, _, _, houtcome, _⟩ :=
    Machine.exists_outcome h.reachable.screen h.frameReady SessionInput.source s.frameInput
  rw [isSome_presented]
  rcases houtcome with hshows | hgives
  · have htold : s.result.tellSink noticingSink false = true := hshows.sink noticingSink false
    rw [htold]
    exact hshows.frameCount
  · have htold : s.result.tellSink noticingSink false = false := hgives.sink noticingSink false
    rw [htold]
    exact hgives.frameCount

section

variable {s : Session} (h : s.Sound) (k : Nat)

include h in
theorem Sound.frames : (s.frames k).Sound := by
  induction k with
  | zero => exact h
  | succ k ih => exact ih.frame

theorem runs_frames (s : Session) (k : Nat) : (s.frames k).runs = s.runs + k := by
  induction k with
  | zero => rfl
  | succ k ih => exact congrArg (· + 1) ih

theorem cycles_frames (s : Session) (k : Nat) : (s.frames k).cycles = s.cycles + s.cyclesOf k := by
  induction k with
  | zero => rfl
  | succ k ih =>
    rw [cyclesOf, Finset.sum_range_succ, ← Nat.add_assoc]
    exact congrArg (· + (s.frames k).result.cycles) ih

include h in
theorem Sound.frameCount_frames :
    (s.frames k).machine.frameCount = s.machine.frameCount + s.picturesOf k := by
  induction k with
  | zero => rfl
  | succ k ih =>
    have hnow := (h.frames k).frameCount_frame
    rw [picturesOf, List.range_succ, List.countP_append, List.countP_singleton, ← Nat.add_assoc]
    rw [picturesOf] at ih
    rw [← ih]
    exact hnow

include h in
/-- Every frame takes at least one cycle, and so the cycles grow without bound. -/
theorem Sound.le_cyclesOf : k ≤ s.cyclesOf k := by
  induction k with
  | zero => exact Nat.zero_le _
  | succ k ih =>
    have hcycles := (h.frames k).cycles_result.1
    rw [cyclesOf, Finset.sum_range_succ]
    rw [cyclesOf] at ih
    omega

include h in
/-- If a limit of cycles was not exceeded before the last frame, it is exceeded by no
more than that frame takes. -/
theorem Sound.cyclesOf_le {limit : Nat} (hbefore : s.cyclesOf k ≤ limit) :
    s.cyclesOf (k + 1) ≤ limit + 35050 := by
  have hlast := (h.frames k).cycles_result.2
  rw [cyclesOf] at hbefore
  rw [cyclesOf, Finset.sum_range_succ]
  omega

end

theorem picturesOf_le (s : Session) (k : Nat) : s.picturesOf k ≤ k := by
  have hle := List.countP_le_length (p := fun j => (s.frames j).result.presented.isSome)
    (l := List.range k)
  rwa [List.length_range] at hle

/-! ## Events in a session -/

/-- The events of a script, with their frames, that have become due when the frame
behind the first `k` begins. -/
def due (s : Session) (script : List ScriptEntry) (k : Nat) : List (Nat × ButtonEvent) :=
  dueFirst (scheduled script) (s.reached k) (s.frames k).machine.frameCount

/-- An event is due in the first frame that begins with so many pictures. -/
theorem mem_due {s : Session} {script : List ScriptEntry} {k : Nat} {e : Nat × ButtonEvent} :
    e ∈ s.due script k ↔
      (∃ entry ∈ script, entry.dated? = some e) ∧
        IsLeast {j | e.1 ≤ (s.frames j).machine.frameCount} k := by
  have hearlier : (∀ f ∈ s.reached k, f < e.1) ↔
      ∀ j, e.1 ≤ (s.frames j).machine.frameCount → k ≤ j := by
    simp only [reached, List.mem_map, List.mem_range]
    constructor
    · intro h j hj
      by_contra hlt
      have hbefore := h _ ⟨j, by omega, rfl⟩
      omega
    · rintro h f ⟨j, hj, rfl⟩
      by_contra hle
      have hafter := h j (by omega)
      omega
  rw [due, mem_dueFirst, mem_scheduled, hearlier, and_comm (b := e.1 ≤ _)]
  rfl

theorem reached_succ (s : Session) (k : Nat) :
    s.reached (k + 1) = s.reached k ++ [(s.frames k).machine.frameCount] := by
  rw [reached, List.range_succ, List.map_append]
  rfl

/-- A frame begins with the events that have become due, and has no others. -/
theorem frame_of_pending {s : Session} {script : List (Nat × ButtonEvent)} {earlier : List Nat}
    (horder : InOrder script) (hready : s.machine.bus.screen.frameReady = false)
    (hpending : s.input.replay.pending = later script earlier) (htyped : s.input.typed = []) :
    let count := s.machine.frameCount
    s.result =
      ((((dueFirst script earlier count).map Prod.snd).foldl Machine.press s.machine).runFrame
          Machine.noInput ()).withInput
        { replay := { pending := later script (earlier ++ [count]), frame := count } } := by
  intro count
  have hinput : s.frameInput =
      { replay := { pending := later script earlier, frame := count } } := by
    rw [frameInput, Replay.goTo, hpending, htyped]
  rw [result, hinput]
  refine Machine.runFrame_of_drain rfl ?_ ?_ hready
  · simp only [SessionInput.source, Replay.drain_later horder, List.append_nil]
  · simp only [SessionInput.source, Replay.drain_dry horder, List.append_nil]

theorem input_frames {s : Session} (h : s.Sound) {script : List ScriptEntry}
    (hinput : s.input = { replay := .ofEntries script }) (k : Nat) :
    (s.frames k).input.replay.pending = later (scheduled script) (s.reached k) ∧
      (s.frames k).input.typed = [] := by
  induction k with
  | zero =>
    rw [frames, hinput, reached, List.range_zero, List.map_nil, later_nil]
    exact ⟨rfl, rfl⟩
  | succ k ih =>
    have hresult := frame_of_pending (inOrder_scheduled script) (h.frames k).frameReady ih.1 ih.2
    have hnext : (s.frames (k + 1)).input = (s.frames k).result.input := rfl
    rw [hnext, hresult, reached_succ]
    exact ⟨rfl, rfl⟩

end Session

/-! ## The result -/

namespace Limits

/-- Whether there is a limit at all. -/
def Given (l : Limits) : Prop :=
  l.frames ≠ none ∨ l.cycles ≠ none

/-- The limits are numbers of 64 bits. -/
def InWords (l : Limits) : Prop :=
  ∀ limit, l.frames = some limit ∨ l.cycles = some limit → limit < UInt64.size

/-- After so many frames, in so many cycles, a limit is reached. -/
def Reached (l : Limits) (runs cycles : Nat) : Prop :=
  (∃ n, l.frames = some n ∧ n ≤ runs) ∨ ∃ m, l.cycles = some m ∧ m ≤ cycles

theorem isOver_iff {l : Limits} {s : Session} :
    s.isOver l = true ↔ l.Reached s.runs s.cycles := by
  unfold Session.isOver Reached
  cases l.frames <;> cases l.cycles <;> simp

/-- Where every frame takes at least one cycle, a limit is reached within the bound
on the frames. -/
theorem reached_mostFrames {l : Limits} (hgiven : l.Given) (hwords : l.InWords)
    {cycles : Nat → Nat} (hcycles : ∀ k, k ≤ cycles k) :
    1 ≤ l.mostFrames ∧ l.Reached l.mostFrames (cycles l.mostFrames) := by
  have hpos : 1 ≤ l.mostFrames := Nat.le_min.2 ⟨Nat.le_max_left _ _, Nat.le_max_left _ _⟩
  have hmost := hcycles l.mostFrames
  have hframes : ∀ n, l.frames = some n → n ≤ l.mostFrames →
      l.Reached l.mostFrames (cycles l.mostFrames) :=
    fun n hn hle => .inl ⟨n, hn, hle⟩
  have hcycle : ∀ m, l.cycles = some m → m ≤ l.mostFrames →
      l.Reached l.mostFrames (cycles l.mostFrames) :=
    fun m hm hle => .inr ⟨m, hm, Nat.le_trans hle hmost⟩
  refine ⟨hpos, ?_⟩
  have hbound : l.mostFrames = min (max 1 (l.frames.getD UInt64.size))
      (max 1 (l.cycles.getD UInt64.size)) := rfl
  cases hn : l.frames with
  | none =>
    cases hm : l.cycles with
    | none => exact absurd hgiven (by simp [Given, hn, hm])
    | some m =>
      have hword := hwords m (.inr hm)
      rw [hn, hm, Option.getD_none, Option.getD_some] at hbound
      exact hcycle m hm (by omega)
  | some n =>
    cases hm : l.cycles with
    | none =>
      have hword := hwords n (.inl hn)
      rw [hn, hm, Option.getD_none, Option.getD_some] at hbound
      exact hframes n hn (by omega)
    | some m =>
      rw [hn, hm, Option.getD_some, Option.getD_some] at hbound
      rcases Nat.le_total n m with hle | hle
      · exact hframes n hn (by omega)
      · exact hcycle m hm (by omega)

end Limits

namespace Session

/-- A session that was just started. -/
theorem exists_of_start {p : Plan} {files : PlanFiles} {s : Session}
    (h : p.start files = .ok s) :
    s.Sound ∧ s.machine.frameCount = 0 ∧ s.runs = 0 ∧ s.cycles = 0 ∧
      s.input = { replay := .ofEntries p.script } := by
  unfold Plan.start at h
  cases hload : Cartridge.ofFile files.rom with
  | error e =>
    rw [hload] at h
    cases h
  | ok c =>
    rw [hload] at h
    obtain rfl := Except.ok.inj h
    have hfresh : Machine.Fresh (Plan.machine (Plan.bootRom? files)) := by
      cases Plan.bootRom? files with
      | none => exact .postBoot
      | some boot => exact .installBoot boot .powerOn
    have hclock : (Plan.machine (Plan.bootRom? files)).cpu.cycles = 0 := by
      cases Plan.bootRom? files <;> rfl
    have hinserted := hfresh.insert c
    obtain ⟨hcount, hready⟩ := hinserted.screen
    exact ⟨⟨hinserted.reachable, hready, hclock, hcount.symm⟩, hcount, rfl, rfl, rfl⟩

/-- A session of which a limit is given stops behind the first frame at which one is
reached, and no sooner; it overshoots a limit of cycles by no more than a frame can
take.  What it reports at its end is true: its cycles are those of the CPU, and its
pictures those that the screen completed and those that were handed out.  In each
frame the events that have become due are delivered to the joypad before its first step,
and no others. -/
theorem run_of_start {p : Plan} {files : PlanFiles} {s : Session} (hstart : p.start files = .ok s)
    (hgiven : p.limits.Given) (hwords : p.limits.InWords) :
    ∃ k, IsLeast {k | 1 ≤ k ∧ p.limits.Reached k (s.cyclesOf k)} k ∧
      (∀ fuel, p.limits.mostFrames ≤ fuel → s.run p.limits fuel = s.frames k) ∧
      (∀ m, p.limits.cycles = some m → s.cyclesOf k ≤ m + 35050 ∧
        (m + 35050 < UInt64.size → (s.frames k).machine.cpu.cycles.toNat = s.cyclesOf k)) ∧
      ((s.frames k).finishedNotice = .finished k (s.picturesOf k) (s.cyclesOf k) ∧
        (s.frames k).machine.cpu.cycles = (s.cyclesOf k).toUInt64 ∧
        (s.frames k).machine.frameCount = s.picturesOf k ∧ s.picturesOf k ≤ k) ∧
      ∀ j < k,
        (∀ e, e ∈ s.due p.script j ↔ (∃ entry ∈ p.script, entry.dated? = some e) ∧
          IsLeast {i | e.1 ≤ (s.frames i).machine.frameCount} j) ∧
        let events := (s.due p.script j).map Prod.snd
        let begun := events.foldl Machine.press (s.frames j).machine
        Machine.Delivered events (s.frames j).machine begun ∧
        ∃ input, (s.frames j).result = (begun.runFrame Machine.noInput ()).withInput input := by
  obtain ⟨hsound, hcount, hruns, hcycles, hinput⟩ := exists_of_start hstart
  have hruns' : ∀ k, (s.frames k).runs = k := by
    intro k
    rw [runs_frames, hruns, Nat.zero_add]
  have hcycles' : ∀ k, (s.frames k).cycles = s.cyclesOf k := by
    intro k
    rw [cycles_frames, hcycles, Nat.zero_add]
  have hpictures : ∀ k, (s.frames k).machine.frameCount = s.picturesOf k := by
    intro k
    rw [hsound.frameCount_frames, hcount, Nat.zero_add]
  have hover : ∀ k,
      (s.frames k).isOver p.limits = true ↔ p.limits.Reached k (s.cyclesOf k) := by
    intro k
    rw [Limits.isOver_iff, hruns', hcycles']
  have hmost := Limits.reached_mostFrames hgiven hwords hsound.le_cyclesOf
  obtain ⟨k, hk⟩ : ∃ k, IsLeast {k | 1 ≤ k ∧ p.limits.Reached k (s.cyclesOf k)} k := by
    classical exact ⟨_, Nat.isLeast_find ⟨_, hmost⟩⟩
  refine ⟨k, hk, ?_, ?_, ⟨?_, ?_, hpictures k, s.picturesOf_le k⟩, ?_⟩
  · intro fuel hfuel
    simp only [← hover] at hk
    exact run_of_isLeast hk (Nat.le_trans (hk.2 (by simpa [hover] using hmost)) hfuel)
  · intro m hm
    obtain ⟨last, rfl⟩ := Nat.exists_eq_add_of_le' hk.1.1
    have hbefore : s.cyclesOf last ≤ m := by
      by_contra hlong
      have hfirst : last ≠ 0 := by
        rintro rfl
        exact hlong (Nat.zero_le m)
      have hsooner : p.limits.Reached last (s.cyclesOf last) := .inr ⟨m, hm, by omega⟩
      have hle : last + 1 ≤ last := hk.2 ⟨by omega, hsooner⟩
      omega
    have hlong := hsound.cyclesOf_le last hbefore
    refine ⟨hlong, fun hword => ?_⟩
    rw [(hsound.frames _).clock, hcycles']
    exact UInt64.toNat_ofNat_of_lt' (Nat.lt_of_le_of_lt hlong hword)
  · rw [finishedNotice, hruns', hcycles', (hsound.frames k).presented, hpictures]
  · rw [(hsound.frames k).clock, hcycles']
  · intro j _
    obtain ⟨hpending, htyped⟩ := input_frames hsound hinput j
    have hframe := frame_of_pending (inOrder_scheduled p.script) (hsound.frames j).frameReady
      hpending htyped
    exact ⟨fun _ => mem_due, Machine.delivered_foldl_press _ _, _, hframe⟩

/-- A session of two frames, with one event that is due at its start and one that
never is.  Before the first step Start is down and A is not, and P1 shows it. -/
theorem run_of_two_frames :
    let p : Plan := {
      rom := "counting.gb"
      limits := { frames := some 2 }
      script := [{ frame := 9, button := "a" }, { button := "Start" }] }
    ∃ s, p.start { rom := .ok (.replicate 0x150 0x03) } = .ok s ∧
      s.run p.limits p.limits.mostFrames = s.frames 2 ∧
      (0, ⟨.start, true⟩) ∈ s.due p.script 0 ∧
      ∃ (begun : Machine) (input : SessionInput),
        s.result = (begun.runFrame Machine.noInput ()).withInput input ∧
        begun.bus.joypad.buttons.isPressed .start = true ∧
        begun.bus.joypad.buttons.isPressed .a = false ∧
        ((begun.bus.write 0xFF00 0x10).read 0xFF00).toNat.testBit 3 = false ∧
        ((begun.bus.write 0xFF00 0x10).read 0xFF00).toNat.testBit 0 = true := by
  intro p
  have hload := Cartridge.load_filled 0x03
  obtain ⟨s, hstart, hreleased⟩ : ∃ s,
      p.start { rom := .ok (.replicate 0x150 0x03) } = .ok s ∧
        s.machine.bus.joypad = {} := by
    unfold Plan.start
    rw [Cartridge.ofFile, hload]
    exact ⟨_, rfl, rfl⟩
  have hgiven : p.limits.Given := .inl (by decide)
  have hwords : p.limits.InWords := by
    rintro limit (hlimit | hlimit)
    · obtain rfl := Option.some.inj hlimit
      decide
    · cases hlimit
  obtain ⟨k, hleast, hrun, -, -, hevents⟩ := run_of_start hstart hgiven hwords
  have hk : k = 2 := by
    obtain ⟨⟨-, hreached⟩, hle⟩ := hleast
    have htwo : 2 ≤ k := by
      rcases hreached with ⟨n, hn, hn'⟩ | ⟨m, hm, -⟩
      · obtain rfl := Option.some.inj hn
        exact hn'
      · cases hm
    have hleTwo : k ≤ 2 := hle ⟨by decide, .inl ⟨2, rfl, Nat.le_refl 2⟩⟩
    omega
  subst hk
  obtain ⟨hdue, hdelivered, input, hresult⟩ := hevents 0 (by decide)
  have hfirst : (0, ⟨.start, true⟩) ∈ s.due p.script 0 := by
    refine (hdue _).2
      ⟨⟨_, List.mem_cons_of_mem _ (List.mem_singleton_self _), by decide⟩, ?_, ?_⟩
    · exact Nat.zero_le _
    · exact fun _ _ => Nat.zero_le _
  -- the script has no other event that is due before a picture is complete
  have honly : ∀ event ∈ (s.due p.script 0).map Prod.snd, event = ⟨.start, true⟩ := by
    intro event hevent
    obtain ⟨e, he, rfl⟩ := List.mem_map.1 hevent
    obtain ⟨⟨entry, hentry, hdated⟩, hnow, -⟩ := (hdue e).1 he
    have hcount : s.machine.frameCount = 0 := (exists_of_start hstart).2.1
    simp only [p, List.mem_cons, List.not_mem_nil, or_false] at hentry
    rcases hentry with rfl | rfl
    · obtain rfl : (9, ⟨.a, true⟩) = e := Option.some.inj hdated
      exact absurd (hcount ▸ hnow : 9 ≤ 0) (by decide)
    · exact congrArg Prod.snd (Option.some.inj hdated).symm
  have hpressed := hdelivered.isPressed_of_mem (List.mem_map_of_mem hfirst)
    fun event hevent _ => congrArg ButtonEvent.pressed (honly event hevent)
  have hapart : ∀ event ∈ (s.due p.script 0).map Prod.snd, event.button ≠ .a := by
    intro event hevent
    rw [honly event hevent]
    decide
  have hup : _ = false := (hdelivered.isPressed_of_not_mem hapart).trans
    (congrArg (fun j : Joypad => j.buttons.isPressed .a) hreleased)
  have hshown := (hdelivered.shown 0x10 (by decide)).buttons
  refine ⟨s, hstart, hrun _ (Nat.le_refl _), hfirst, _, input, hresult, hpressed, hup, ?_, ?_⟩
  · exact (hshown 3 .start rfl).trans (congrArg not hpressed)
  · exact (hshown 0 .a rfl).trans (congrArg not hup)

end Session
end Handheld
