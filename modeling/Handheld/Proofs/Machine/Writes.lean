import Handheld.Machine.Basic
import Handheld.Proofs.Screen.Operation

/-!
# What a step writes, and what it costs

A machine reaches its screen only through the operations of the screen.  A step
makes a list of writes to the bus, and then lets the screen run for the cycles
that it took.

There are four groups.

* Addresses and operations.  Each byte of the screen's memories and each of
  its registers has an address at which an operation reaches it.
* The bus.  `exists_ops_write` says that a write to the bus is a history of the
  screen, made of writes only.  It also says which write switches the screen
  off.
* The step.  `stepWrites` are the writes that a step makes to the bus, and
  `exists_ops_step` says that a step is these writes followed by time.
* The cost.  Every instruction takes between one and six cycles, and so every
  step takes between one and eleven.
-/

namespace Handheld

/-! ## Addresses and operations -/

/-- The first address of a byte of the video memory. -/
def vramAddress (offset : Fin 0x2000) : UInt16 :=
  .ofNat (0x8000 + offset.val)

/-- The address of a byte of the sprite memory. -/
def oamAddress (offset : Fin 160) : UInt16 :=
  .ofNat (0xFE00 + offset.val)

theorem oamAddress_toNat (offset : Fin 160) : (oamAddress offset).toNat = 0xFE00 + offset.val := by
  have hlt := offset.isLt
  rw [oamAddress, UInt16.toNat_ofNat']
  omega

namespace Screen

theorem vramOffset_vramAddress (offset : Fin 0x2000) :
    vramOffset (vramAddress offset) = offset := by
  have hlt := offset.isLt
  apply Fin.ext
  simp only [vramOffset, vramAddress, Fin.val_ofNat, UInt16.toNat_ofNat']
  omega

theorem oamOffset?_oamAddress (offset : Fin 160) :
    oamOffset? (oamAddress offset) = some offset := by
  have hlt := offset.isLt
  have haddress := oamAddress_toNat offset
  rw [oamOffset?, dif_pos (by omega)]
  simp only [haddress, Nat.add_sub_cancel_left]

theorem apply_writeOam (s : Screen) (offset : Fin 160) (value : UInt8) :
    s.apply (.writeOam (oamAddress offset) value) =
      { s with sprites := s.sprites.write offset value } := by
  simp only [apply, perform, writeOam, oamOffset?_oamAddress]

theorem apply_writeRegister (s : Screen) (r : ScreenRegister) (value : UInt8) :
    s.apply (.writeRegister r.address value) = (s.write value r).1 := by
  simp only [apply, perform, writeAt, ScreenRegister.ofAddress?_address]

end Screen

theorem Place.address_of_ofRegister {offset : Fin 0x80} {r : ScreenRegister}
    (h : Place.ofRegister offset = .screen r) : r.address.toNat = 0xFF00 + offset.val := by
  unfold Place.ofRegister at h
  split at h
  all_goals cases h
  all_goals
    rename_i hoffset
    rw [hoffset]
    rfl

theorem Place.address_of_ofAddress {address : UInt16} {r : ScreenRegister}
    (h : Place.ofAddress address = .screen r) : r.address = address := by
  unfold Place.ofAddress at h
  dsimp only at h
  -- what lies below the registers
  iterate 7
    split at h
    · contradiction
  split at h
  · have haddress := Place.address_of_ofRegister h
    apply UInt16.toNat_inj.1
    rw [haddress]
    dsimp only
    omega
  · split at h <;> contradiction

/-! ## The bus -/

/-- A byte and its address, of which the write switches the screen off. -/
def SwitchesScreenOff (w : UInt16 × UInt8) : Prop :=
  w.1 = 0xFF40 ∧ w.2 &&& 0x80 = 0

/-- A history of writes, which switches the screen off at most if one of the
bytes written to the bus does. -/
def WritesOf (writes : List (UInt16 × UInt8)) (ops : List ScreenOp) : Prop :=
  ∀ op ∈ ops, op.isWrite = true ∧
    (op.switchesOff = true → ∃ w ∈ writes, SwitchesScreenOff w)

theorem WritesOf.append {writes more : List (UInt16 × UInt8)} {ops others : List ScreenOp}
    (h : WritesOf writes ops) (h' : WritesOf more others) :
    WritesOf (writes ++ more) (ops ++ others) := by
  intro op hop
  rcases List.mem_append.1 hop with hop | hop
  · obtain ⟨hwrite, hoff⟩ := h op hop
    refine ⟨hwrite, fun hswitch => ?_⟩
    obtain ⟨w, hw, hw'⟩ := hoff hswitch
    exact ⟨w, List.mem_append_left _ hw, hw'⟩
  · obtain ⟨hwrite, hoff⟩ := h' op hop
    refine ⟨hwrite, fun hswitch => ?_⟩
    obtain ⟨w, hw, hw'⟩ := hoff hswitch
    exact ⟨w, List.mem_append_right _ hw, hw'⟩

theorem WritesOf.cyclesOf_eq_zero {writes : List (UInt16 × UInt8)} {ops : List ScreenOp}
    (h : WritesOf writes ops) : cyclesOf ops = 0 := by
  induction ops with
  | nil => rfl
  | cons op ops ih =>
    rw [cyclesOf_cons, ScreenOp.cycles_eq_zero_of_isWrite (h op (by simp)).1,
      ih fun o ho => h o (by simp [ho])]

namespace Bus

/-- A write to the sprite memory is one operation. -/
theorem screen_writeOam (b : Bus) (offset : Fin 160) (value : UInt8) :
    (b.writeOam offset value).screen =
      b.screen.apply (.writeOam (oamAddress offset) value) := by
  rw [Screen.apply_writeOam]
  rfl

/-- A copy to the sprite memory is a history of writes to it. -/
theorem exists_ops_copyToOam (b : Bus) (page : UInt8) :
    ∃ ops : List ScreenOp, (b.copyToOam page).screen = b.screen.run ops ∧
      ∀ op ∈ ops, ∃ address value, op = .writeOam address value := by
  refine copyToOam_induction
    (P := fun other => ∃ ops : List ScreenOp, other.screen = b.screen.run ops ∧
      ∀ op ∈ ops, ∃ address value, op = .writeOam address value)
    ?_ ⟨[], rfl, by simp⟩ page
  rintro other offset value ⟨ops, hrun, hops⟩
  refine ⟨ops ++ [.writeOam (oamAddress offset) value], ?_, ?_⟩
  · rw [screen_writeOam, hrun, Screen.run_append, Screen.run_cons, Screen.run_nil]
  · intro op hop
    rcases List.mem_append.1 hop with hop | hop
    · exact hops op hop
    · exact ⟨_, _, List.mem_singleton.1 hop⟩

theorem screen_writeScreen (b : Bus) (value : UInt8) (r : ScreenRegister) :
    (b.writeScreen value r).screen = b.screen.apply (.writeRegister r.address value) := by
  rw [Screen.apply_writeRegister]
  rfl

/-- A register that is written switches the screen off at most if its address
is written. -/
theorem writesOf_writeRegister {address : UInt16} {value : UInt8} {r : ScreenRegister}
    (h : Place.ofAddress address = .screen r) :
    WritesOf [(address, value)] [.writeRegister r.address value] := by
  intro op hop
  obtain rfl := List.mem_singleton.1 hop
  refine ⟨rfl, fun hswitch => ⟨_, List.mem_singleton.2 rfl, ?_⟩⟩
  simp only [ScreenOp.switchesOff, Bool.and_eq_true, beq_iff_eq] at hswitch
  rw [Place.address_of_ofAddress h] at hswitch
  exact hswitch

theorem writesOf_of_writeOam {writes : List (UInt16 × UInt8)} {ops : List ScreenOp}
    (h : ∀ op ∈ ops, ∃ address value, op = .writeOam address value) :
    WritesOf writes ops := by
  intro op hop
  obtain ⟨address, value, rfl⟩ := h op hop
  exact ⟨rfl, fun hswitch => absurd hswitch (by simp [ScreenOp.switchesOff])⟩

/-- A write to the bus is a history of writes to the screen. -/
theorem exists_ops_write (b : Bus) (address : UInt16) (value : UInt8) :
    ∃ ops, (b.write address value).screen = b.screen.run ops ∧
      WritesOf [(address, value)] ops := by
  unfold write
  cases hplace : Place.ofAddress address with
  | vram offset =>
    refine ⟨[.writeVram (vramAddress offset) value], ?_, ?_⟩
    · rw [Screen.run_cons, Screen.run_nil, Screen.apply, Screen.perform, Screen.writeVram]
      simp only [Screen.vramOffset_vramAddress]
    · intro op hop
      obtain rfl := List.mem_singleton.1 hop
      exact ⟨rfl, fun hswitch => absurd hswitch (by simp [ScreenOp.switchesOff])⟩
  | oam offset =>
    refine ⟨[_], screen_writeOam b offset value, writesOf_of_writeOam ?_⟩
    intro op hop
    exact ⟨_, _, List.mem_singleton.1 hop⟩
  | screen r =>
    cases r with
    | dma =>
      obtain ⟨ops, hrun, hops⟩ := (b.writeScreen value .dma).exists_ops_copyToOam value
      have hcopy : WritesOf [] ops := writesOf_of_writeOam hops
      rw [screen_writeScreen] at hrun
      exact ⟨_ :: ops, hrun, (writesOf_writeRegister hplace).append hcopy⟩
    | _ => exact ⟨[_], screen_writeScreen b value _, writesOf_writeRegister hplace⟩
  | bootSwitch =>
    refine ⟨[], ?_, by simp [WritesOf]⟩
    simp only [switchBoot]
    split <;> rfl
  | _ => exact ⟨[], rfl, by simp [WritesOf]⟩

/-- Writes to the bus, one after another, are a history of writes to the
screen. -/
theorem exists_ops_writeAll (b : Bus) (writes : List (UInt16 × UInt8)) :
    ∃ ops, (b.writeAll writes).screen = b.screen.run ops ∧ WritesOf writes ops := by
  induction writes generalizing b with
  | nil => exact ⟨[], rfl, by simp [WritesOf]⟩
  | cons w writes ih =>
    obtain ⟨ops, hrun, hops⟩ := b.exists_ops_write w.1 w.2
    obtain ⟨others, hrun', hothers⟩ := ih (b.write w.1 w.2)
    refine ⟨ops ++ others, ?_, hops.append hothers⟩
    rw [Screen.run_append, ← hrun, ← hrun']
    rfl

/-- The bus after an operation on its screen. -/
def perform (b : Bus) (op : ScreenOp) : Bus :=
  let (screen, raised) := b.screen.perform op
  { b with screen, requests := b.requests ||| raised }

end Bus

namespace Machine

/-! ## The step -/

/-- The bytes that the instruction at the program counter writes. -/
def instructionWrites (m : Machine) : List (UInt16 × UInt8) :=
  if m.cpu.halted then []
  else ((skip m.cpu m.nextInstruction).execute m.bus.read m.nextInstruction).writes

/-- The bytes that serving an interrupt writes. -/
def dispatchWrites (m : Machine) : List (UInt16 × UInt8) :=
  match m.pending with
  | none => []
  | some i => if m.cpu.ime then (m.cpu.enter i.vector).writes else []

/-- The bytes that a step writes, of the instruction and of the interrupt
served behind it. -/
def stepWrites (m : Machine) : List (UInt16 × UInt8) :=
  m.instructionWrites ++ (m.executeOrIdle.1.runTimer m.executeOrIdle.2).dispatchWrites

/-- An instruction changes the bus by its writes and by nothing else. -/
theorem executeOrIdle_bus (m : Machine) :
    m.executeOrIdle.1.bus = m.bus.writeAll m.instructionWrites := by
  unfold executeOrIdle instructionWrites
  split <;> rfl

theorem exists_ops_executeOrIdle (m : Machine) :
    ∃ ops, m.executeOrIdle.1.bus.screen = m.bus.screen.run ops ∧
      WritesOf m.instructionWrites ops := by
  rw [executeOrIdle_bus]
  exact m.bus.exists_ops_writeAll _

theorem exists_ops_serveInterrupts (m : Machine) :
    ∃ ops, m.serveInterrupts.1.bus.screen = m.bus.screen.run ops ∧
      WritesOf m.dispatchWrites ops := by
  unfold serveInterrupts dispatchWrites
  cases m.pending with
  | none => exact ⟨[], rfl, by simp [WritesOf]⟩
  | some i =>
    simp only
    by_cases hime : m.cpu.ime = true
    · rw [if_pos hime, if_pos hime]
      exact Bus.exists_ops_writeAll { m.bus with requests := i.clear m.bus.requests } _
    · rw [if_neg hime, if_neg hime]
      exact ⟨[], rfl, by simp [WritesOf]⟩

/-- A step is a history of writes to the screen, and then the time of the
step. -/
theorem exists_ops_step (m : Machine) :
    ∃ ops, m.step.1.bus.screen = ((m.bus.screen.run ops).advance m.step.2).1 ∧
      WritesOf m.stepWrites ops := by
  obtain ⟨ops, hrun, hops⟩ := m.exists_ops_executeOrIdle
  obtain ⟨others, hrun', hothers⟩ :=
    (m.executeOrIdle.1.runTimer m.executeOrIdle.2).exists_ops_serveInterrupts
  refine ⟨ops ++ others, ?_, hops.append hothers⟩
  have hscreen : (m.executeOrIdle.1.runTimer m.executeOrIdle.2).bus.screen =
      m.executeOrIdle.1.bus.screen := rfl
  rw [Screen.run_append, ← hrun, ← hscreen, ← hrun']
  rfl

/-! ## The cost -/

end Machine

theorem Operand.accesses_le (o : Operand) : o.accesses ≤ 1 := by
  cases o <;> decide

namespace Instruction

theorem cycles_bounds (i : Instruction) : 1 ≤ i.cycles ∧ i.cycles ≤ 6 := by
  cases i with
  | increment o | decrement o | loadImmediate o _ | arithmetic _ o | rotate _ o | testBit _ o
  | resetBit _ o | setBit _ o =>
    have ho := o.accesses_le
    simp only [cycles]
    omega
  | load target source =>
    have htarget := target.accesses_le
    have hsource := source.accesses_le
    simp only [cycles]
    omega
  | jumpRelative condition _ | jump condition _ | call condition _ | ret condition =>
    cases condition <;> simp [cycles]
  | _ => simp [cycles]

theorem takenCycles_bounds {i : Instruction} {n : Nat} (h : i.takenCycles? = some n) :
    1 ≤ n ∧ n ≤ 6 := by
  unfold takenCycles? at h
  split at h <;> simp at h <;> omega

/-- Every instruction takes time, whether its condition holds or not. -/
theorem cost_bounds (i : Instruction) (taken : Bool) :
    1 ≤ i.cost taken ∧ i.cost taken ≤ 6 := by
  unfold cost
  cases taken with
  | false => exact i.cycles_bounds
  | true =>
    cases htaken : i.takenCycles? with
    | none => simpa [htaken] using i.cycles_bounds
    | some n => simpa [htaken] using takenCycles_bounds htaken

end Instruction

namespace Machine

theorem executeOrIdle_cycles (m : Machine) :
    1 ≤ m.executeOrIdle.2 ∧ m.executeOrIdle.2 ≤ 6 := by
  unfold executeOrIdle
  split
  · show 1 ≤ idleCycles ∧ idleCycles ≤ 6
    decide
  · exact Instruction.cost_bounds _ _

theorem serveInterrupts_cycles (m : Machine) : m.serveInterrupts.2 ≤ 5 := by
  unfold serveInterrupts
  split
  · exact Nat.zero_le 5
  · split
    · exact Nat.le_refl 5
    · exact Nat.zero_le 5

/-- Every step takes time, but not more than the longest instruction and an
interrupt behind it. -/
theorem step_cycles (m : Machine) : 1 ≤ m.step.2 ∧ m.step.2 ≤ 11 := by
  obtain ⟨hmin, hmax⟩ := m.executeOrIdle_cycles
  have hextra := (m.executeOrIdle.1.runTimer m.executeOrIdle.2).serveInterrupts_cycles
  have hstep : m.step.2 = m.executeOrIdle.2 +
      (m.executeOrIdle.1.runTimer m.executeOrIdle.2).serveInterrupts.2 := rfl
  omega

end Machine
end Handheld
