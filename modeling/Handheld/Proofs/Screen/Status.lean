import Handheld.Proofs.Bus.Requests
import Handheld.Proofs.Screen.Requests

/-!
# The status register

The status register shows four things in one byte: a bit that reads as one, the
enables that a program wrote last, whether the line is the one compared with, and
the mode.  It shows them rightly after every history of the screen.  Only the
comparison of a screen that started at power-on waits until the screen compares
its line for the first time.

The screen of this library keeps these things apart and puts the register
together when it is read.  `Checked.StatScreen` keeps the register as one byte
instead, which every operation changes in place and from which the requests are
decided.  It goes through the same histories.

There are four groups.

* The byte.  `statusByte` puts it together, and the lemmas behind it say what
  masking and setting bits does to it.
* The screen with the register as one byte.  `run_ofScreen` says that it is the
  screen of the library, and requests what that requests.
* Histories: what was written last, and whether the line was compared.
* The result, `status_coherent`, with the modes by their numbers.
-/

namespace Handheld

/-! ## The byte -/

/-- The status register as it is kept: enables, coincidence and mode. -/
def statusByte (enables : UInt8) (coincidence : Bool) (mode : Mode) : UInt8 :=
  enables ||| (if coincidence then 0x04 else 0) ||| mode.code

theorem and_of_and {bits wide mask : UInt8} (h : bits &&& wide = bits)
    (hmask : wide &&& mask = wide) : bits &&& mask = bits := by
  rw [← h, UInt8.and_assoc, hmask]

theorem and_eq_zero_of_and {bits wide mask : UInt8} (h : bits &&& wide = bits)
    (hmask : wide &&& mask = 0) : bits &&& mask = 0 := by
  rw [← h, UInt8.and_assoc, hmask, UInt8.and_zero]

theorem statusByte_and (enables : UInt8) (coincidence : Bool) (mode : Mode) (mask : UInt8) :
    statusByte enables coincidence mode &&& mask =
      enables &&& mask ||| (if coincidence then 0x04 else 0) &&& mask ||| mode.code &&& mask := by
  rw [statusByte, or_and_mask, or_and_mask]

theorem statusByte_or_flag (enables : UInt8) (coincidence : Bool) (mode : Mode) :
    statusByte enables coincidence mode ||| 0x04 = statusByte enables true mode := by
  unfold statusByte
  rw [UInt8.or_assoc, UInt8.or_comm mode.code, ← UInt8.or_assoc, UInt8.or_assoc enables]
  cases coincidence <;> rfl

theorem statusByte_and_enable (enables : UInt8) (coincidence : Bool) (mode : Mode) {mask : UInt8}
    (hmask : mask &&& 0x78 = mask) :
    statusByte enables coincidence mode &&& mask = enables &&& mask := by
  have hrest : ∀ bits : UInt8, 0x78 &&& bits = 0 → bits &&& mask = 0 := by
    intro bits hbits
    rw [UInt8.and_comm, and_eq_zero_of_and hmask hbits]
  have hflag : (if coincidence then 0x04 else 0 : UInt8) &&& mask = 0 :=
    hrest _ (by cases coincidence <;> rfl)
  have hmode : mode.code &&& mask = 0 := hrest _ (by cases mode <;> rfl)
  rw [statusByte_and, hflag, hmode, UInt8.or_zero, UInt8.or_zero]

section

variable {enables : UInt8} (h : enables &&& 0x78 = enables) (coincidence : Bool) (mode : Mode)
include h

theorem statusByte_and_flag :
    statusByte enables coincidence mode &&& 0x04 = if coincidence then 0x04 else 0 := by
  rw [statusByte_and, and_eq_zero_of_and h (by decide)]
  cases coincidence <;> cases mode <;> rfl

theorem statusByte_and_mode : statusByte enables coincidence mode &&& 0x03 = mode.code := by
  rw [statusByte_and, and_eq_zero_of_and h (by decide)]
  cases coincidence <;> cases mode <;> rfl

theorem statusByte_setMode (target : Mode) :
    statusByte enables coincidence mode &&& ~~~0x03 ||| target.code =
      statusByte enables coincidence target := by
  have hmode : mode.code &&& ~~~0x03 = 0 := by cases mode <;> rfl
  rw [statusByte_and, and_of_and h (by decide), hmode, UInt8.or_zero]
  cases coincidence <;> rfl

theorem statusByte_clearFlag :
    statusByte enables coincidence mode &&& ~~~0x04 = statusByte enables false mode := by
  have hmode : mode.code &&& ~~~0x04 = mode.code := by cases mode <;> rfl
  rw [statusByte_and, and_of_and h (by decide), hmode]
  cases coincidence <;> rfl

theorem statusByte_setEnables (value : UInt8) :
    statusByte enables coincidence mode &&& ~~~0x78 ||| value &&& 0x78 =
      statusByte (value &&& 0x78) coincidence mode := by
  have hmode : mode.code &&& ~~~0x78 = mode.code := by cases mode <;> rfl
  rw [statusByte_and, and_eq_zero_of_and h (by decide), hmode, UInt8.zero_or, UInt8.or_comm,
    ← UInt8.or_assoc]
  cases coincidence <;> rfl

end

/-! ## The screen with the register as one byte -/

namespace Screen

/-- The enables keep to the bits that can be written. -/
def EnablesInPlace (s : Screen) : Prop :=
  s.statusEnables &&& 0x78 = s.statusEnables

theorem SameSettings.enablesInPlace {s t : Screen} (h : s.SameSettings t)
    (hs : s.EnablesInPlace) : t.EnablesInPlace := by
  unfold EnablesInPlace
  rw [h]
  exact hs

end Screen

namespace Checked

/-- A screen with its status register as one byte.  Of the screen inside, the
enables and the coincidence are not used. -/
structure StatScreen where
  screen : Screen
  stat : UInt8

namespace StatScreen

/-- Sets the mode, and the copy of it in the register. -/
def setMode (t : StatScreen) (mode : Mode) : StatScreen :=
  { screen := { t.screen with mode }
    stat := t.stat &&& ~~~0x03 ||| mode.code }

def enter (t : StatScreen) (mode : Mode) : StatScreen :=
  { t with screen.dotsLeft := mode.dots }.setMode mode

/-- Compares the line, and requests an interrupt if it is enabled and the flag
was not set before. -/
def compareLine (t : StatScreen) : StatScreen × UInt8 :=
  let wasEqual := t.stat &&& 0x04 != 0
  if t.screen.line = t.screen.lineCompare then
    let stat := t.stat ||| 0x04
    ({ t with stat },
      if !wasEqual && stat &&& 0x40 != 0 then Interrupt.stat.mask else 0)
  else ({ t with stat := t.stat &&& ~~~0x04 }, 0)

def goToLine (t : StatScreen) (line : UInt8) : StatScreen × UInt8 :=
  compareLine { t with screen.line := line }

/-- The request of a mode that has this bit of the register for its enable. -/
def request (t : StatScreen) (enable : UInt8) : UInt8 :=
  if t.stat &&& enable != 0 then Interrupt.stat.mask else 0

/-- The end of the current mode. -/
def changeMode (t : StatScreen) : StatScreen × UInt8 :=
  match t.screen.mode with
  | .oamScan => (t.enter .draw, 0)
  | .draw =>
    let t := t.enter .hblank
    let t := { t with screen := t.screen.drawLine }
    (t, t.request 0x08)
  | .hblank =>
    let (t, raised) := t.goToLine (t.screen.line + 1)
    if 144 ≤ t.screen.line then
      let t := t.enter .vblank
      let t := { t with screen := { t.screen with
        vblankDots := 0, frameCount := t.screen.frameCount + 1, frameReady := true } }
      (t, raised ||| t.request 0x10 ||| Interrupt.vblank.mask)
    else
      let t := t.enter .oamScan
      (t, raised ||| t.request 0x20)
  | .vblank =>
    let (t, raised) := t.goToLine 0
    let t := { t.enter .oamScan with screen.vblankDots := 0 }
    (t, raised ||| t.request 0x20)

/-- Ends lines of the vertical blank. -/
def passVblankLines : (count : Nat) → StatScreen → StatScreen × UInt8
  | 0, t => (t, 0)
  | count + 1, t =>
    let (t, first) :=
      if t.screen.line < Screen.lastLine then t.goToLine (t.screen.line + 1) else (t, 0)
    let (t, others) := passVblankLines count t
    (t, first ||| others)

/-- Passes dots that do not reach beyond the current mode. -/
def passDots (t : StatScreen) (dots : Nat) : StatScreen × UInt8 :=
  let t := { t with screen.dotsLeft := t.screen.dotsLeft - dots }
  if t.screen.mode = .vblank then
    let total := t.screen.vblankDots + dots
    passVblankLines (total / Screen.vblankLineDots)
      { t with screen.vblankDots := total % Screen.vblankLineDots }
  else (t, 0)

/-- Passes dots that do not reach beyond the current mode, and changes the
mode if they reach its end. -/
def passWithin (t : StatScreen) (dots : Nat) : StatScreen × UInt8 :=
  let (t, passed) := t.passDots dots
  if t.screen.dotsLeft = 0 then
    let (t, changed) := t.changeMode
    (t, passed ||| changed)
  else (t, passed)

/-- Passes dots.  `raised` holds the interrupts requested before. -/
def passAll (t : StatScreen) (dots : Nat) (raised : UInt8) : StatScreen × UInt8 :=
  if h : 0 < dots then
    have := t.screen.stretch_pos h
    let now := t.screen.stretch dots
    let (t, more) := t.passWithin now
    t.passAll (dots - now) (raised ||| more)
  else (t, raised)
termination_by dots

def advance (t : StatScreen) (cycles : Nat) : StatScreen × UInt8 :=
  if t.screen.enabled then t.passAll (cycles * Screen.dotsPerCycle) 0 else (t, 0)

/-- Writes the control register.  The switch sets the mode and compares the line. -/
def writeControl (t : StatScreen) (value : UInt8) : StatScreen × UInt8 :=
  let toggled := t.screen.toggles value
  let t := { t with screen.control := value }
  if toggled then
    if t.screen.enabled then
      ({ t with screen := { t.screen with
        line := 0, vblankDots := 0, dotsLeft := Mode.oamScan.dots } }.setMode .oamScan).compareLine
    else
      ({ t with screen := { t.screen with
        line := 0, dotsLeft := Mode.oamScan.dots } }.setMode .hblank).compareLine
  else (t, 0)

/-- Writes a register. -/
def write (t : StatScreen) (value : UInt8) : ScreenRegister → StatScreen × UInt8
  | .control => t.writeControl value
  | .status => ({ t with stat := t.stat &&& ~~~0x78 ||| value &&& 0x78 }, 0)
  | .lineCompare => compareLine { t with screen.lineCompare := value }
  | r => ({ t with screen := (t.screen.write value r).1 }, 0)

/-- Reads the register at an address. -/
def readAt (t : StatScreen) (address : UInt16) : UInt8 :=
  if address = 0xFF41 then t.stat ||| 0x80 else t.screen.readAt address

def perform (t : StatScreen) : ScreenOp → StatScreen × UInt8
  | .advance cycles => t.advance cycles
  | .writeRegister address value =>
    match ScreenRegister.ofAddress? address with
    | some r => t.write value r
    | none => (t, 0)
  | op => ({ t with screen := (t.screen.perform op).1 }, 0)

def run (t : StatScreen) (ops : List ScreenOp) : StatScreen :=
  ops.foldl (fun t op => (t.perform op).1) t

theorem run_concat (t : StatScreen) (ops : List ScreenOp) (op : ScreenOp) :
    t.run (ops ++ [op]) = ((t.run ops).perform op).1 := by
  simp [run]

def powerOn : StatScreen :=
  { screen := {}, stat := 0 }

def postBoot : StatScreen :=
  let t := setMode { screen := { control := 0x91, backgroundPalette := 0xFC }, stat := 0 } .oamScan
  { t with stat := t.stat ||| 0x04 }

/-- The screen with its register put together. -/
def ofScreen (s : Screen) : StatScreen :=
  { screen := { s with statusEnables := 0, coincidence := false }
    stat := statusByte s.statusEnables s.coincidence s.mode }

theorem powerOn_eq : powerOn = ofScreen .powerOn := rfl

theorem postBoot_eq : postBoot = ofScreen .postBoot := rfl

theorem request_ofScreen (s : Screen) :
    (ofScreen s).request 0x08 = s.modeRequest .hblank ∧
      (ofScreen s).request 0x10 = s.modeRequest .vblank ∧
      (ofScreen s).request 0x20 = s.modeRequest .oamScan := by
  have henable : ∀ enable : UInt8, enable &&& 0x78 = enable →
      (ofScreen s).stat &&& enable = s.statusEnables &&& enable :=
    fun enable h => statusByte_and_enable s.statusEnables s.coincidence s.mode h
  simp only [request, henable _ (show (0x08 : UInt8) &&& 0x78 = 0x08 by decide),
    henable _ (show (0x10 : UInt8) &&& 0x78 = 0x10 by decide),
    henable _ (show (0x20 : UInt8) &&& 0x78 = 0x20 by decide)]
  exact ⟨rfl, rfl, rfl⟩

theorem drawLine_ofScreen (s : Screen) :
    ({ ofScreen s with screen := (ofScreen s).screen.drawLine } : StatScreen) =
      ofScreen s.drawLine := by
  have hline : (ofScreen s).screen.line.toNat < 144 ↔ s.line.toNat < 144 := Iff.rfl
  unfold Screen.drawLine
  by_cases h : s.line.toNat < 144
  · rw [dif_pos h, dif_pos (hline.2 h)]
    rfl
  · rw [dif_neg h, dif_neg (mt hline.1 h)]

section

variable {s : Screen} (h : s.EnablesInPlace)
include h

theorem setMode_ofScreen (mode : Mode) :
    (ofScreen s).setMode mode = ofScreen { s with mode } := by
  unfold setMode ofScreen
  rw [statusByte_setMode h]

theorem compareLine_ofScreen :
    (ofScreen s).compareLine = (ofScreen s.compareLine.1, s.compareLine.2) := by
  have hflag : ((ofScreen s).stat &&& 0x04 != 0) = s.coincidence := by
    rw [ofScreen, statusByte_and_flag h]
    cases s.coincidence <;> rfl
  have henable : ((ofScreen s).stat ||| 0x04) &&& 0x40 = s.statusEnables &&& 0x40 := by
    rw [ofScreen, statusByte_or_flag, statusByte_and_enable _ _ _ (by decide)]
  have hline : ((ofScreen s).screen.line = (ofScreen s).screen.lineCompare) ↔
      s.line = s.lineCompare := Iff.rfl
  unfold compareLine Screen.compareLine
  simp only [hflag, henable, hline, Screen.coincidenceInterrupts]
  by_cases hequal : s.line = s.lineCompare
  · rw [if_pos hequal, beq_iff_eq.2 hequal, Bool.true_and]
    simp only [ofScreen, statusByte_or_flag]
    rfl
  · rw [if_neg hequal, beq_eq_false_iff_ne.2 hequal]
    simp only [ofScreen, statusByte_clearFlag h]
    rfl

theorem goToLine_ofScreen (line : UInt8) :
    (ofScreen s).goToLine line = (ofScreen (s.goToLine line).1, (s.goToLine line).2) :=
  compareLine_ofScreen (s := { s with line }) h

theorem enter_ofScreen (mode : Mode) : (ofScreen s).enter mode = ofScreen (s.enter mode) :=
  setMode_ofScreen (s := { s with dotsLeft := mode.dots }) h mode

theorem passVblankLines_ofScreen (count : Nat) :
    passVblankLines count (ofScreen s) =
      (ofScreen (Screen.passVblankLines count s).1, (Screen.passVblankLines count s).2) := by
  induction count generalizing s with
  | zero => rfl
  | succ count ih =>
    have hline : (ofScreen s).screen.line = s.line := rfl
    rw [passVblankLines, Screen.passVblankLines, hline]
    by_cases hlast : s.line < Screen.lastLine
    · have hnext : (s.goToLine (s.line + 1)).1.EnablesInPlace := h
      simp only [if_pos hlast, goToLine_ofScreen h, ih hnext]
    · simp only [if_neg hlast, ih h]

theorem changeMode_ofScreen :
    (ofScreen s).changeMode = (ofScreen s.changeMode.1, s.changeMode.2) := by
  have hline : (ofScreen s).screen.line = s.line := rfl
  have hmode : (ofScreen s).screen.mode = s.mode := rfl
  unfold changeMode Screen.changeMode
  rw [hmode]
  cases s.mode with
  | oamScan => simp only [enter_ofScreen h]
  | draw =>
    have hrequest := (request_ofScreen (s.enter .hblank).drawLine).1
    simp only [enter_ofScreen h, drawLine_ofScreen, hrequest]
  | hblank =>
    have hnext : (s.goToLine (s.line + 1)).1.EnablesInPlace := h
    have hlater : (ofScreen (s.goToLine (s.line + 1)).1).screen.line = s.line + 1 := rfl
    have hgone : (s.goToLine (s.line + 1)).1.line = s.line + 1 := rfl
    simp only [hline, goToLine_ofScreen h, enter_ofScreen hnext, hlater, hgone]
    split
    · refine Prod.ext rfl ?_
      let vblank : Screen := { (s.goToLine (s.line + 1)).1.enter .vblank with
        vblankDots := 0, frameCount := s.frameCount + 1, frameReady := true }
      exact congrArg (fun request => _ ||| request ||| _) (request_ofScreen vblank).2.1
    · have hrequest := (request_ofScreen ((s.goToLine (s.line + 1)).1.enter .oamScan)).2.2
      simp only [hrequest]
  | vblank =>
    have hnext : (s.goToLine 0).1.EnablesInPlace := h
    simp only [goToLine_ofScreen h, enter_ofScreen hnext]
    refine Prod.ext rfl ?_
    let first : Screen := { (s.goToLine 0).1.enter .oamScan with vblankDots := 0 }
    exact congrArg (fun request => _ ||| request) (request_ofScreen first).2.2

theorem passDots_ofScreen (dots : Nat) :
    (ofScreen s).passDots dots = (ofScreen (s.passDots dots).1, (s.passDots dots).2) := by
  have hmode : (ofScreen s).screen.mode = s.mode := rfl
  unfold passDots Screen.passDots
  simp only [hmode]
  split
  · let passed := { s with
      dotsLeft := s.dotsLeft - dots
      vblankDots := (s.vblankDots + dots) % Screen.vblankLineDots }
    exact passVblankLines_ofScreen (s := passed) h _
  · rfl

theorem passWithin_ofScreen (dots : Nat) :
    (ofScreen s).passWithin dots = (ofScreen (s.passWithin dots).1, (s.passWithin dots).2) := by
  have hpassed := (Screen.sameSettings_passDots s dots).enablesInPlace h
  have hleft : (ofScreen (s.passDots dots).1).screen.dotsLeft = (s.passDots dots).1.dotsLeft := rfl
  unfold passWithin Screen.passWithin
  simp only [passDots_ofScreen h, hleft]
  split
  · simp only [changeMode_ofScreen hpassed]
  · rfl

theorem passAll_ofScreen (dots : Nat) (raised : UInt8) :
    (ofScreen s).passAll dots raised =
      (ofScreen (s.passAll dots raised).1, (s.passAll dots raised).2) := by
  induction dots using Nat.strongRecOn generalizing s raised with
  | ind dots ih =>
    have hstretch : (ofScreen s).screen.stretch dots = s.stretch dots := rfl
    rw [passAll]
    by_cases hdots : 0 < dots
    · have hpos := s.stretch_pos hdots
      have hpassed := (Screen.sameSettings_passWithin s (s.stretch dots)).enablesInPlace h
      rw [Screen.passAll_of_pos s raised hdots]
      simp only [dif_pos hdots, hstretch, passWithin_ofScreen h]
      exact ih _ (by omega) hpassed _
    · obtain rfl : dots = 0 := by omega
      rw [dif_neg hdots, Screen.passAll_zero]

theorem advance_ofScreen (cycles : Nat) :
    (ofScreen s).advance cycles = (ofScreen (s.advance cycles).1, (s.advance cycles).2) := by
  have hon : (ofScreen s).screen.enabled = s.enabled := rfl
  unfold advance Screen.advance
  rw [hon]
  split
  · exact passAll_ofScreen h _ _
  · rfl

theorem writeControl_ofScreen (value : UInt8) :
    (ofScreen s).writeControl value =
      (ofScreen (s.writeControl value).1, (s.writeControl value).2) := by
  have htoggles : (ofScreen s).screen.toggles value = s.toggles value := rfl
  let written : Screen := { s with control := value }
  have hon : ({ (ofScreen s).screen with control := value } : Screen).enabled =
      written.enabled := rfl
  unfold writeControl Screen.writeControl
  simp only [htoggles, hon]
  split
  · split
    · let first := { written with
        line := 0, vblankDots := 0, dotsLeft := Mode.oamScan.dots }
      have hmode := setMode_ofScreen (s := first) h .oamScan
      exact (congrArg compareLine hmode).trans (compareLine_ofScreen (s := written.startFrame) h)
    · let first := { written with line := 0, dotsLeft := Mode.oamScan.dots }
      have hmode := setMode_ofScreen (s := first) h .hblank
      exact (congrArg compareLine hmode).trans (compareLine_ofScreen (s := written.stop) h)
  · rfl

theorem write_ofScreen (value : UInt8) (r : ScreenRegister) :
    (ofScreen s).write value r = (ofScreen (s.write value r).1, (s.write value r).2) := by
  cases r with
  | control => exact writeControl_ofScreen h value
  | status =>
    simp only [write, Screen.write, ofScreen, statusByte_setEnables h]
  | lineCompare => exact compareLine_ofScreen (s := { s with lineCompare := value }) h
  | _ => rfl

theorem perform_ofScreen (op : ScreenOp) :
    (ofScreen s).perform op = (ofScreen (s.perform op).1, (s.perform op).2) := by
  cases op with
  | advance cycles => exact advance_ofScreen h cycles
  | writeRegister address value =>
    simp only [perform, Screen.perform, Screen.writeAt]
    cases ScreenRegister.ofAddress? address with
    | some r => exact write_ofScreen h value r
    | none => rfl
  | writeOam address value =>
    simp only [perform, Screen.perform, Screen.writeOam]
    split <;> rfl
  | _ => rfl

end

theorem readAt_ofScreen (s : Screen) (address : UInt16) :
    (ofScreen s).readAt address = s.readAt address := by
  unfold readAt Screen.readAt
  by_cases hstatus : address = 0xFF41
  · have hregister : ScreenRegister.ofAddress? 0xFF41 = some .status :=
      ScreenRegister.ofAddress?_address .status
    subst hstatus
    rw [if_pos rfl, hregister, UInt8.or_comm]
    simp only [Screen.read, Screen.status, ofScreen, statusByte, UInt8.or_assoc]
  · rw [if_neg hstatus]
    cases hregister : ScreenRegister.ofAddress? address with
    | none => rfl
    | some r =>
      cases r with
      | status => exact absurd (ScreenRegister.address_of_ofAddress? hregister).symm hstatus
      | _ => rfl

/-- The two show the same registers, and request the same interrupts whatever is
done next. -/
def Agrees (t : StatScreen) (s : Screen) : Prop :=
  (∀ address, t.readAt address = s.readAt address) ∧ ∀ op, (t.perform op).2 = (s.perform op).2

theorem agrees_ofScreen {s : Screen} (h : s.EnablesInPlace) : (ofScreen s).Agrees s :=
  ⟨readAt_ofScreen s, fun op => congrArg Prod.snd (perform_ofScreen h op)⟩

end StatScreen
end Checked

/-! ## Histories -/

/-- The value that an operation writes to the register at an address. -/
def ScreenOp.writtenTo? (address : UInt16) : ScreenOp → Option UInt8
  | writeRegister other value => if other = address then some value else none
  | _ => none

/-- The value that a history writes to the register at an address last. -/
def writtenLast (address : UInt16) (ops : List ScreenOp) : Option UInt8 :=
  (ops.filterMap (·.writtenTo? address)).getLast?

theorem writtenLast_concat (address : UInt16) (ops : List ScreenOp) (op : ScreenOp) :
    writtenLast address (ops ++ [op]) = (op.writtenTo? address).or (writtenLast address ops) := by
  unfold writtenLast
  cases h : op.writtenTo? address <;> simp [h]

namespace Screen

/-- Whether an operation compares the line anew, at whatever line the screen
stands: it writes FF45, or changes bit 7 of FF40. -/
def compares (s : Screen) : ScreenOp → Bool
  | .writeRegister address value =>
    address == 0xFF45 || address == 0xFF40 && s.toggles value
  | _ => false

/-- Whether an operation of a history compares the line anew. -/
def comparesIn : Screen → List ScreenOp → Bool
  | _, [] => false
  | s, op :: ops => s.compares op || (s.apply op).comparesIn ops

theorem comparesIn_concat (s : Screen) (ops : List ScreenOp) (op : ScreenOp) :
    s.comparesIn (ops ++ [op]) = (s.comparesIn ops || (s.run ops).compares op) := by
  induction ops generalizing s with
  | nil => simp [comparesIn]
  | cons first ops ih => rw [List.cons_append, comparesIn, ih, comparesIn, run_cons, Bool.or_assoc]

/-- The enables are those that were written last. -/
theorem statusEnables_apply (s : Screen) (op : ScreenOp) :
    (s.apply op).statusEnables =
      ((op.writtenTo? 0xFF41).map (· &&& 0x78)).getD s.statusEnables := by
  cases op with
  | advance cycles =>
    have hsame := sameSettings_advance s cycles
    simp only [apply, perform, ScreenOp.writtenTo?]
    rw [hsame]
    rfl
  | writeRegister address value =>
    simp only [apply, perform, writeAt, ScreenOp.writtenTo?]
    by_cases hstatus : address = 0xFF41
    · have hregister : ScreenRegister.ofAddress? 0xFF41 = some .status :=
        ScreenRegister.ofAddress?_address .status
      rw [if_pos hstatus, hstatus, hregister]
      rfl
    · rw [if_neg hstatus]
      cases hregister : ScreenRegister.ofAddress? address with
      | none => rfl
      | some r =>
        cases r with
        | status => exact absurd (ScreenRegister.address_of_ofAddress? hregister).symm hstatus
        | control =>
          obtain ⟨_, _, _, _, _, heq⟩ := s.writeControl_fst value
          simp only [write, heq]
          rfl
        | _ => rfl
  | writeOam address value =>
    simp only [apply, perform, writeOam]
    split <;> rfl
  | _ => rfl

theorem statusEnables_run {start : Screen} (h : start.statusEnables = 0) (ops : List ScreenOp) :
    (start.run ops).statusEnables = (writtenLast 0xFF41 ops).getD 0 &&& 0x78 := by
  induction ops using List.reverseRecOn with
  | nil => exact h
  | append_singleton ops op ih =>
    rw [run_append, run_cons, run_nil, statusEnables_apply, ih, writtenLast_concat]
    cases op.writtenTo? 0xFF41 <;> rfl

theorem enablesInPlace_run {start : Screen} (h : start.statusEnables = 0) (ops : List ScreenOp) :
    (start.run ops).EnablesInPlace := by
  unfold EnablesInPlace
  rw [statusEnables_run h, UInt8.and_assoc]
  rfl

/-- The screen with its register as one byte goes through the same histories. -/
theorem run_ofScreen {start : Screen} (h : start.statusEnables = 0) (ops : List ScreenOp) :
    (Checked.StatScreen.ofScreen start).run ops =
      Checked.StatScreen.ofScreen (start.run ops) := by
  induction ops using List.reverseRecOn with
  | nil => rfl
  | append_singleton ops op ih =>
    have hnow := Checked.StatScreen.perform_ofScreen (enablesInPlace_run h ops) op
    rw [run_append, run_cons, run_nil, Checked.StatScreen.run_concat, ih, hnow]
    rfl

/-- What compares the line anew leaves the flag right. -/
theorem compared_of_compares {s : Screen} {op : ScreenOp} (h : s.compares op = true) :
    (s.apply op).Compared := by
  cases op with
  | writeRegister address value =>
    simp only [compares, Bool.or_eq_true, Bool.and_eq_true, beq_iff_eq] at h
    obtain rfl | ⟨rfl, htoggles⟩ := h
    · have hregister : ScreenRegister.ofAddress? 0xFF45 = some .lineCompare :=
        ScreenRegister.ofAddress?_address .lineCompare
      simp only [apply, perform, writeAt, hregister]
      exact compared_compareLine _
    · rw [apply_writeControl]
      exact compared_of_toggles htoggles
  | _ => cases h

/-- A screen that is off stays off, with the flag that it has, until something
compares the line anew. -/
theorem coincidence_apply_of_off {s : Screen} (hoff : s.enabled = false) {op : ScreenOp}
    (h : s.compares op = false) :
    (s.apply op).enabled = false ∧ (s.apply op).coincidence = s.coincidence := by
  cases op with
  | advance cycles =>
    rw [apply, perform, advance_of_off hoff]
    exact ⟨hoff, rfl⟩
  | writeRegister address value =>
    simp only [compares, Bool.or_eq_false_iff, beq_eq_false_iff_ne, Bool.and_eq_false_iff] at h
    simp only [apply, perform, writeAt]
    cases hregister : ScreenRegister.ofAddress? address with
    | none => exact ⟨hoff, rfl⟩
    | some r =>
      obtain rfl := ScreenRegister.address_of_ofAddress? hregister
      cases r with
      | control =>
        have htoggles : s.toggles value = false := h.2.resolve_left fun hne => hne rfl
        have hcourse : s.SameCourse (s.write value .control).1 :=
          write_sameCourse fun _ => htoggles
        refine ⟨hcourse.enabled.trans hoff, ?_⟩
        simp only [write, writeControl_of_toggles_eq_false htoggles]
      | lineCompare => exact absurd rfl h.1
      | _ => exact ⟨hoff, rfl⟩
  | writeOam address value =>
    simp only [apply, perform, writeOam]
    split <;> exact ⟨hoff, rfl⟩
  | _ => exact ⟨hoff, rfl⟩

/-- From power-on the flag is clear until something compares the line anew, and
right from then on. -/
theorem coincidence_run_powerOn (ops : List ScreenOp) :
    if powerOn.comparesIn ops then (powerOn.run ops).Compared
    else (powerOn.run ops).enabled = false ∧ (powerOn.run ops).coincidence = false := by
  induction ops using List.reverseRecOn with
  | nil => exact ⟨rfl, rfl⟩
  | append_singleton ops op ih =>
    rw [run_append, run_cons, run_nil, comparesIn_concat]
    cases hbefore : powerOn.comparesIn ops with
    | true =>
      rw [hbefore, if_pos rfl] at ih
      exact ih.apply (Reachable.powerOn.run ops) op
    | false =>
      rw [hbefore, if_neg Bool.false_ne_true] at ih
      cases hnow : (powerOn.run ops).compares op with
      | true => exact compared_of_compares hnow
      | false =>
        obtain ⟨hoff, hflag⟩ := coincidence_apply_of_off ih.1 hnow
        exact ⟨hoff, hflag.trans ih.2⟩

theorem compared_run_postBoot (ops : List ScreenOp) : (postBoot.run ops).Compared := by
  induction ops using List.reverseRecOn with
  | nil => rfl
  | append_singleton ops op ih =>
    rw [run_append, run_cons, run_nil]
    exact ih.apply (Reachable.postBoot.run ops) op

/-! ## The result -/

/-- A value of the status register that shows these enables, this mode, and whether
two lines are equal.  The modes have the numbers 0 to 3. -/
structure Coherent (status enables : UInt8) (mode : Mode) (equal : Bool) : Prop where
  ones : status &&& 0x80 = 0x80
  enables : status &&& 0x78 = enables &&& 0x78
  hblank : status &&& 0x03 = 0 ↔ mode = .hblank
  vblank : status &&& 0x03 = 1 ↔ mode = .vblank
  oamScan : status &&& 0x03 = 2 ↔ mode = .oamScan
  draw : status &&& 0x03 = 3 ↔ mode = .draw
  coincidence : status &&& 0x04 = if equal then 0x04 else 0

/-- The four parts make up the byte. -/
theorem Coherent.status_eq {status enables code : UInt8} {mode : Mode} {equal : Bool}
    (h : Coherent status enables mode equal) (hcode : status &&& 0x03 = code) :
    status = 0x80 ||| enables &&& 0x78 ||| (if equal then 0x04 else 0) ||| code := by
  have hparts : status &&& (0x80 ||| 0x78 ||| 0x04 ||| 0x03) =
      status &&& 0x80 ||| status &&& 0x78 ||| status &&& 0x04 ||| status &&& 0x03 := by
    simp only [UInt8.and_comm status, or_and_mask]
  rw [h.ones, h.enables, h.coincidence, hcode] at hparts
  rw [← hparts]
  exact UInt8.and_neg_one.symm

theorem coherent_status {s : Screen} {enables : UInt8} {equal : Bool}
    (henables : s.statusEnables = enables &&& 0x78) (hequal : s.coincidence = equal) :
    Coherent (s.readAt 0xFF41) enables s.mode equal := by
  have hplace : s.statusEnables &&& 0x78 = s.statusEnables := by
    rw [henables, UInt8.and_assoc]
    rfl
  have hstatus : s.readAt 0xFF41 = statusByte s.statusEnables s.coincidence s.mode ||| 0x80 :=
    (Checked.StatScreen.readAt_ofScreen s 0xFF41).symm
  rw [hstatus]
  have hmode : (statusByte s.statusEnables s.coincidence s.mode ||| 0x80) &&& 0x03 =
      s.mode.code := by
    rw [or_and_mask, statusByte_and_mode hplace]
    exact UInt8.or_zero
  constructor
  case ones =>
    rw [or_and_mask, statusByte_and, and_eq_zero_of_and hplace (by decide)]
    cases s.coincidence <;> cases s.mode <;> rfl
  case enables =>
    rw [or_and_mask, statusByte_and_enable _ _ _ (by decide), hplace, henables]
    exact UInt8.or_zero
  case coincidence =>
    rw [or_and_mask, statusByte_and_flag hplace, hequal]
    exact UInt8.or_zero
  all_goals
    rw [hmode]
    cases s.mode <;> decide

/-- After every history the status register shows its fixed bit, the enables that
were written last, the mode, and whether the line is the one compared with; a screen
that started at power-on shows the last only once the line was compared anew.  The
screen that keeps the register as one byte agrees. -/
theorem status_coherent (ops : List ScreenOp) :
    let enables := (writtenLast 0xFF41 ops).getD 0
    (let s := postBoot.run ops
     Coherent (s.readAt 0xFF41) enables s.mode (s.line == s.lineCompare) ∧
      (Checked.StatScreen.postBoot.run ops).Agrees s) ∧
    (let s := powerOn.run ops
     Coherent (s.readAt 0xFF41) enables s.mode
        (powerOn.comparesIn ops && s.line == s.lineCompare) ∧
      (Checked.StatScreen.powerOn.run ops).Agrees s) := by
  intro enables
  have hagrees : ∀ start : Screen, start.statusEnables = 0 →
      ((Checked.StatScreen.ofScreen start).run ops).Agrees (start.run ops) := by
    intro start hstart
    rw [run_ofScreen hstart]
    exact Checked.StatScreen.agrees_ofScreen (enablesInPlace_run hstart ops)
  rw [Checked.StatScreen.postBoot_eq, Checked.StatScreen.powerOn_eq]
  refine ⟨⟨?_, hagrees postBoot rfl⟩, ?_, hagrees powerOn rfl⟩
  · exact coherent_status (statusEnables_run rfl ops) (compared_run_postBoot ops)
  · refine coherent_status (statusEnables_run rfl ops) ?_
    have hflag := coincidence_run_powerOn ops
    cases hcompares : powerOn.comparesIn ops with
    | true =>
      rw [hcompares, if_pos rfl] at hflag
      rw [Bool.true_and]
      exact hflag
    | false =>
      rw [hcompares, if_neg Bool.false_ne_true] at hflag
      exact hflag.2

/-- The register in the four modes of a frame, with the enables in bits 3 and 6
written.  The line is the one compared with until the vertical blank.  A screen at
power-on shows what was written to it only. -/
theorem status_of_modes :
    let status := fun cycles =>
      (postBoot.run [.writeRegister 0xFF41 0x48, .advance cycles]).readAt 0xFF41
    status 0 = 0xCE ∧ status 20 = 0xCF ∧ status 78 = 0xCC ∧ status 16380 = 0xC9 ∧
      (powerOn.run [.writeRegister 0xFF41 0xFF]).readAt 0xFF41 = 0xF8 := by
  intro status
  have hcoherent : ∀ (cycles : Nat) {p : Position}, positionAt (4 * cycles % frameDots) = p →
      Coherent (status cycles) 0x48 p.mode (p.line == 0) := by
    intro cycles p hp
    let s := postBoot.run [.writeRegister 0xFF41 0x48, .advance cycles]
    have hstart : postBoot.OnCourse 0 0 := onCourse_startFrame _
    have hstays : ∀ op ∈ [ScreenOp.writeRegister 0xFF41 0x48, .advance cycles],
        op.switchesOff = false := by
      simp [ScreenOp.switchesOff]
    have hcourse := (hstart.run rfl hstays).2
    have hposition : s.position = p := by
      refine hcourse.phase.position.trans (Eq.trans ?_ hp)
      simp [cyclesOf, ScreenOp.cycles]
    have hcompare : s.lineCompare = 0 :=
      congrArg Screen.lineCompare (sameSettings_advance _ cycles)
    have hline : (s.line == s.lineCompare) = (p.line == 0) := by
      rw [hcompare, ← hposition, Bool.eq_iff_iff, beq_iff_eq, beq_iff_eq]
      exact UInt8.toNat_inj.symm
    have hshown := (status_coherent [.writeRegister 0xFF41 0x48, .advance cycles]).1.1
    rw [← hline, ← hposition]
    exact hshown
  have hoam := hcoherent 0 (p := { mode := .oamScan, line := 0, dotsLeft := 80 }) rfl
  have hdraw := hcoherent 20 (p := { mode := .draw, line := 0, dotsLeft := 230 }) rfl
  have hhblank := hcoherent 78 (p := { mode := .hblank, line := 0, dotsLeft := 143 }) rfl
  have hvblank := hcoherent 16380 (p := { mode := .vblank, line := 144, dotsLeft := 4560 }) rfl
  have hoff := (status_coherent [.writeRegister 0xFF41 0xFF]).2.1
  refine ⟨?_, ?_, ?_, ?_, ?_⟩
  · exact hoam.status_eq (hoam.oamScan.2 rfl)
  · exact hdraw.status_eq (hdraw.draw.2 rfl)
  · exact hhblank.status_eq (hhblank.hblank.2 rfl)
  · exact hvblank.status_eq (hvblank.vblank.2 rfl)
  · exact hoff.status_eq (hoff.hblank.2 rfl)

end Screen

end Handheld
