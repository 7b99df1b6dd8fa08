import Handheld.Proofs.Checked.Timing

/-!
# The interrupts that the screen requests

Which interrupts are requested while time passes depends on the places of the
frame that the screen comes to, and on the settings.  The vertical blank is
requested where it begins.  The status interrupt has four causes, each with an
enable bit of its own: the end of a line's drawing, the start of the vertical
blank, the start of a visible line, and the start of the line compared with.

There are four groups.

* Places.  `Within` says that the screen comes to a place of some kind.
* Causes.  `RequestsStatAt` says at which places the status interrupt is
  requested.
* The coincidence flag.  `Compared` holds while the screen is on, so that the
  start of the line compared with is always a change of the flag.
* Requests.  `DotStep.snd` gives the requests of one dot, `passAll_snd` those of any
  number of dots, and `requests_advanceScreen` states them cause by cause.  There the
  enables are bits of the status register as a program reads it (`statusBit`).
-/

namespace Handheld

/-- The request of an interrupt, if there is a cause for it. -/
def Interrupt.requestIf (i : Interrupt) (cause : Prop) [Decidable cause] : UInt8 :=
  if cause then i.mask else 0

namespace Interrupt

variable (i : Interrupt) {p q : Prop} [Decidable p] [Decidable q]

theorem requestIf_true (h : p) : i.requestIf p = i.mask := if_pos h

theorem requestIf_false (h : ¬ p) : i.requestIf p = 0 := if_neg h

theorem requestIf_congr (h : p ↔ q) : i.requestIf p = i.requestIf q := by
  unfold requestIf
  simp only [h]

theorem isSet_requestIf (other : Interrupt) :
    i.isSet (other.requestIf p) = (decide (i = other) && decide p) := by
  unfold requestIf
  by_cases hp : p
  · rw [if_pos hp, decide_eq_true hp]
    cases i <;> cases other <;> rfl
  · rw [if_neg hp, decide_eq_false hp, isSet_zero, Bool.and_false]

theorem requestIf_or [Decidable (p ∨ q)] :
    i.requestIf (p ∨ q) = i.requestIf p ||| i.requestIf q := by
  unfold requestIf
  by_cases hp : p <;> by_cases hq : q <;> simp [hp, hq]

end Interrupt

namespace Screen

/-! ## Places -/

/-- One of the `dots` places after a place of the frame satisfies `P`. -/
def Within (place dots : Nat) (P : Nat → Prop) : Prop :=
  ∃ t, place < t ∧ t ≤ place + dots ∧ P (t % frameDots)

theorem within_iff_exists_lt {place dots : Nat} {P : Nat → Prop} :
    Within place dots P ↔ ∃ k, k < dots ∧ P ((place + k + 1) % frameDots) := by
  constructor
  · rintro ⟨t, hlt, hle, ht⟩
    refine ⟨t - place - 1, by omega, ?_⟩
    rwa [show place + (t - place - 1) + 1 = t by omega]
  · rintro ⟨k, hk, hP⟩
    exact ⟨place + k + 1, by omega, by omega, hP⟩

instance instDecidableWithin (place dots : Nat) (P : Nat → Prop) [DecidablePred P] :
    Decidable (Within place dots P) :=
  decidable_of_iff _ within_iff_exists_lt.symm

theorem not_within_zero (place : Nat) (P : Nat → Prop) : ¬ Within place 0 P := by
  rintro ⟨t, hlt, hle, -⟩
  omega

theorem within_succ {place dots : Nat} {P : Nat → Prop} :
    Within place (dots + 1) P ↔
      P ((place + 1) % frameDots) ∨ Within (place + 1) dots P := by
  constructor
  · rintro ⟨t, hlt, hle, ht⟩
    by_cases hnext : t = place + 1
    · exact Or.inl (hnext ▸ ht)
    · exact Or.inr ⟨t, by omega, by omega, ht⟩
  · rintro (hnext | ⟨t, hlt, hle, ht⟩)
    · exact ⟨place + 1, by omega, by omega, hnext⟩
    · exact ⟨t, by omega, by omega, ht⟩

/-- In which frame the dots begin makes no difference. -/
theorem within_mod {place dots : Nat} {P : Nat → Prop} :
    Within (place % frameDots) dots P ↔ Within place dots P := by
  have hsplit := Nat.div_add_mod place frameDots
  constructor
  · rintro ⟨t, hlt, hle, ht⟩
    refine ⟨frameDots * (place / frameDots) + t, by omega, by omega, ?_⟩
    rwa [Nat.mul_add_mod]
  · rintro ⟨t, hlt, hle, ht⟩
    refine ⟨t - frameDots * (place / frameDots), by omega, by omega, ?_⟩
    rwa [← Nat.mul_add_mod, Nat.add_sub_of_le (by omega)]

theorem within_or {place dots : Nat} {P Q : Nat → Prop} :
    Within place dots (fun q => P q ∨ Q q) ↔ Within place dots P ∨ Within place dots Q := by
  simp only [Within, and_or_left, exists_or]

/-- The dots of one frame come to each of its places once. -/
theorem within_zero_eq {dots place : Nat} (h : dots < frameDots) :
    Within 0 dots (· = place) ↔ 0 < place ∧ place ≤ dots := by
  constructor
  · rintro ⟨t, hpos, hle, ht⟩
    rw [Nat.mod_eq_of_lt (by omega)] at ht
    omega
  · rintro ⟨hpos, hle⟩
    exact ⟨place, hpos, by omega, Nat.mod_eq_of_lt (by omega)⟩

theorem within_and_left {place dots : Nat} {a : Prop} {P : Nat → Prop} :
    Within place dots (fun q => a ∧ P q) ↔ a ∧ Within place dots P := by
  simp only [Within, and_left_comm (b := a), exists_and_left]

theorem within_exists {place dots : Nat} {P : Nat → Nat → Prop} :
    Within place dots (fun q => ∃ y, P y q) ↔ ∃ y, Within place dots (P y) := by
  constructor
  · rintro ⟨t, hlt, hle, y, hy⟩
    exact ⟨y, t, hlt, hle, hy⟩
  · rintro ⟨y, t, hlt, hle, hy⟩
    exact ⟨t, hlt, hle, y, hy⟩

/-! ## Causes -/

/-- The place of the frame at which a line begins. -/
def lineStart (line : Nat) : Nat :=
  if line ≤ 144 then lineDots * line else visibleDots + vblankLineDots * (line - 144)

theorem lineStart_inj {line other : Nat} : lineStart line = lineStart other ↔ line = other := by
  refine ⟨?_, congrArg lineStart⟩
  simp only [lineStart, visibleDots, lineDots, vblankLineDots]
  split <;> split <;> omega

/-- The screen requests the status interrupt when it comes to a place of the
frame. -/
def RequestsStatAt (s : Screen) (place : Nat) : Prop :=
  s.modeInterrupts .hblank = true ∧ place < visibleDots ∧ place % lineDots = 310 ∨
  s.modeInterrupts .vblank = true ∧ place = visibleDots ∨
  s.modeInterrupts .oamScan = true ∧ place < visibleDots ∧ place % lineDots = 0 ∨
  s.coincidenceInterrupts = true ∧ s.lineCompare.toNat ≤ 153 ∧
    place = lineStart s.lineCompare.toNat

instance instDecidablePredRequestsStatAt (s : Screen) : DecidablePred s.RequestsStatAt :=
  fun _ => inferInstanceAs
    (Decidable (_ ∧ _ ∧ _ ∨ _ ∧ _ ∨ _ ∧ _ ∧ _ ∨ _ ∧ _ ∧ _))

/-- The line compared with asks for a request when `line` begins. -/
def CoincidesAt (s : Screen) (line : Nat) : Prop :=
  s.coincidenceInterrupts = true ∧ s.lineCompare.toNat = line

instance instDecidableCoincidesAt (s : Screen) (line : Nat) : Decidable (s.CoincidesAt line) :=
  inferInstanceAs (Decidable (_ ∧ _))

theorem modeRequest_eq (s : Screen) (mode : Mode) :
    s.modeRequest mode = Interrupt.stat.requestIf (s.modeInterrupts mode = true) := rfl

/-- Within a visible line only the end of its drawing asks for a request. -/
theorem requestsStatAt_visible (s : Screen) {line q : Nat} (hline : line < 144) (hpos : 0 < q)
    (hq : q < 455) :
    s.RequestsStatAt (455 * line + q) ↔ q = 310 ∧ s.modeInterrupts .hblank = true := by
  have hV : visibleDots = 65520 := rfl
  unfold RequestsStatAt lineStart lineDots vblankLineDots
  refine ⟨?_, fun ⟨hend, hm⟩ => Or.inl ⟨hm, by omega, by omega⟩⟩
  rintro (⟨hm, -, h⟩ | ⟨-, h⟩ | ⟨-, -, h⟩ | ⟨-, hle, h⟩)
  · exact ⟨by omega, hm⟩
  · omega
  · omega
  · split at h <;> omega

/-- Within a line of the vertical blank nothing asks for a request. -/
theorem not_requestsStatAt_vblank (s : Screen) {v : Nat} (hv : v < 4560) (hrest : v % 456 ≠ 0) :
    ¬ s.RequestsStatAt (visibleDots + v) := by
  have hV : visibleDots = 65520 := rfl
  unfold RequestsStatAt lineStart lineDots vblankLineDots
  rintro (⟨-, hlt, -⟩ | ⟨-, h⟩ | ⟨-, hlt, -⟩ | ⟨-, hle, h⟩)
  · omega
  · omega
  · omega
  · split at h <;> omega

theorem not_requestsStatAt_of_quiet (s : Screen) {place : Nat} (h : IsQuiet place) :
    ¬ s.RequestsStatAt place := by
  rcases h with ⟨line, q, hline, hpos, hq, _, h310, rfl⟩ | ⟨v, hv, hrest, rfl⟩
  · rw [requestsStatAt_visible s hline hpos hq]
    exact fun hend => h310 hend.1
  · exact not_requestsStatAt_vblank s hv hrest

/-- The start of a line has the cause of the mode that begins with it, and that
of the line compared with. -/
theorem requestsStatAt_lineStart (s : Screen) {line : Nat} (h : line ≤ 153) :
    s.RequestsStatAt (lineStart line) ↔
      s.CoincidesAt line ∨ line < 144 ∧ s.modeInterrupts .oamScan = true ∨
        line = 144 ∧ s.modeInterrupts .vblank = true := by
  have hplace : (lineStart line < visibleDots ↔ line < 144) ∧
      (lineStart line = visibleDots ↔ line = 144) ∧
      (line < 144 → lineStart line % lineDots = 0) := by
    simp only [lineStart, visibleDots, lineDots, vblankLineDots]
    split <;> omega
  have hcompare :
      (s.lineCompare.toNat ≤ 153 ∧ lineStart line = lineStart s.lineCompare.toNat) ↔
        s.lineCompare.toNat = line := by
    rw [lineStart_inj]
    omega
  unfold RequestsStatAt CoincidesAt
  rw [hplace.1, hplace.2.1, hcompare]
  constructor
  · rintro (⟨-, hlt, hrest⟩ | ⟨hm, hl⟩ | ⟨hm, hlt, -⟩ | hc)
    · rw [hplace.2.2 hlt] at hrest
      contradiction
    · exact Or.inr (Or.inr ⟨hl, hm⟩)
    · exact Or.inr (Or.inl ⟨hlt, hm⟩)
    · exact Or.inl hc
  · rintro (hc | ⟨hlt, hm⟩ | ⟨hl, hm⟩)
    · exact Or.inr (Or.inr (Or.inr hc))
    · exact Or.inr (Or.inr (Or.inl ⟨hm, hlt, hplace.2.2 hlt⟩))
    · exact Or.inr (Or.inl ⟨hm, hl⟩)

theorem requestIf_visibleLine (s : Screen) {line : Nat} (h : line < 144) :
    Interrupt.stat.requestIf (s.RequestsStatAt (lineStart line)) =
      Interrupt.stat.requestIf (s.CoincidesAt line) ||| s.modeRequest .oamScan := by
  have hne : line ≠ 144 := by omega
  rw [modeRequest_eq, ← Interrupt.requestIf_or]
  refine Interrupt.stat.requestIf_congr ((requestsStatAt_lineStart s (by omega)).trans ?_)
  simp only [h, hne, true_and, false_and, or_false]

theorem requestIf_firstVblankLine (s : Screen) :
    Interrupt.stat.requestIf (s.RequestsStatAt (lineStart 144)) =
      Interrupt.stat.requestIf (s.CoincidesAt 144) ||| s.modeRequest .vblank := by
  rw [modeRequest_eq, ← Interrupt.requestIf_or]
  refine Interrupt.stat.requestIf_congr ((requestsStatAt_lineStart s (by omega)).trans ?_)
  simp only [Nat.lt_irrefl, true_and, false_and, false_or]

theorem requestIf_laterVblankLine (s : Screen) {line : Nat} (h : 144 < line) (hle : line ≤ 153) :
    Interrupt.stat.requestIf (s.RequestsStatAt (lineStart line)) =
      Interrupt.stat.requestIf (s.CoincidesAt line) := by
  have hlater : ¬ line < 144 ∧ line ≠ 144 := by omega
  refine Interrupt.stat.requestIf_congr ((requestsStatAt_lineStart s hle).trans ?_)
  simp only [hlater, false_and, or_false]

/-! ## The coincidence flag -/

/-- The coincidence flag says whether the line is the one compared with. -/
def Compared (s : Screen) : Prop :=
  s.coincidence = (s.line == s.lineCompare)

theorem compared_compareLine (s : Screen) : s.compareLine.1.Compared := rfl

theorem DotStep.compared {s : Screen} {place : Nat} {changes : List ModeChange}
    {after : Screen × UInt8} (h : DotStep s place changes after) (hcompared : s.Compared) :
    after.1.Compared := by
  cases h with
  | quiet | drawBegins | lineDrawn => exact hcompared
  | lineBegins | vblankBegins | vblankLine | frameBegins => rfl

/-- Time keeps the coincidence flag right. -/
theorem Compared.passAll (dots : Nat) {s : Screen} {before since : Nat}
    (hcompared : s.Compared) (h : s.OnCourse before since) (raised : UInt8) :
    (s.passAll dots raised).1.Compared := by
  induction dots generalizing s since raised with
  | zero =>
    rw [passAll_zero]
    exact hcompared
  | succ dots ih =>
    rw [passAll_succ]
    exact ih (h.dotStep.compared hcompared) h.dot _

theorem Compared.write {s : Screen} (hcompared : s.Compared) (value : UInt8) (r : ScreenRegister) :
    (s.write value r).1.Compared := by
  cases r with
  | control =>
    simp only [Screen.write, writeControl]
    split
    · exact compared_compareLine _
    · exact hcompared
  | lineCompare => exact compared_compareLine _
  | _ => exact hcompared

/-- The switch compares the line anew. -/
theorem compared_of_toggles {s : Screen} {value : UInt8} (h : s.toggles value = true) :
    (s.writeControl value).1.Compared := by
  simp only [writeControl, h, if_true]
  exact compared_compareLine _

theorem Compared.apply {s : Screen} (hcompared : s.Compared) (hreach : s.Reachable)
    (op : ScreenOp) : (s.apply op).Compared := by
  cases op with
  | advance cycles =>
    simp only [Screen.apply, perform]
    cases hon : s.enabled with
    | false =>
      rw [advance_of_off hon]
      exact hcompared
    | true =>
      obtain ⟨before, since, hcourse⟩ := hreach.onCourse hon
      rw [Screen.advance, if_pos hon]
      exact hcompared.passAll _ hcourse 0
  | writeRegister address value =>
    simp only [Screen.apply, perform, writeAt]
    split
    · exact hcompared.write value _
    · exact hcompared
  | writeOam address value =>
    simp only [Screen.apply, perform, writeOam]
    split <;> exact hcompared
  | _ => exact hcompared

/-- While a reachable screen is on, its coincidence flag is right.  At power-on
it is not. -/
theorem Reachable.compared {s : Screen} (h : s.Reachable) (hon : s.enabled = true) :
    s.Compared := by
  induction h with
  | powerOn => contradiction
  | postBoot => rfl
  | @apply s op hreach ih =>
    by_cases hwas : s.enabled = true
    · exact (ih hwas).apply hreach op
    · rcases s.apply_cases op with ⟨cycles, rfl⟩ | ⟨value, rfl, htoggles⟩ | ⟨-, hsame⟩
      · exact absurd ((sameSettings_advance s cycles).enabled.symm.trans hon) hwas
      · rw [apply_writeControl]
        exact compared_of_toggles htoggles
      · exact absurd (hsame.enabled.symm.trans hon) hwas

/-! ## Requests -/

/-- Moving to another line requests what the line compared with asks for. -/
theorem goToLine_snd {s : Screen} (h : s.Compared) {line : UInt8} (hne : s.line ≠ line) :
    (s.goToLine line).2 = Interrupt.stat.requestIf (s.CoincidesAt line.toNat) := by
  have hcause : ((line == s.lineCompare && !s.coincidence && s.coincidenceInterrupts) = true) ↔
      s.CoincidesAt line.toNat := by
    rw [h, CoincidesAt, UInt8.toNat_inj]
    simp only [Bool.and_eq_true, beq_iff_eq, Bool.not_eq_true', beq_eq_false_iff_ne]
    constructor
    · rintro ⟨⟨rfl, -⟩, hinterrupts⟩
      exact ⟨hinterrupts, rfl⟩
    · rintro ⟨hinterrupts, rfl⟩
      exact ⟨⟨rfl, hne⟩, hinterrupts⟩
  exact Interrupt.stat.requestIf_congr hcause

theorem goToLine_next_snd {s : Screen} (h : s.Compared) {line : Nat} (hline : s.line.toNat = line)
    (hlt : line < 255) :
    (s.goToLine (s.line + 1)).2 = Interrupt.stat.requestIf (s.CoincidesAt (line + 1)) := by
  have hnext : (s.line + 1).toNat = line + 1 := by rw [toNat_add_one (by omega), hline]
  have hne : s.line ≠ s.line + 1 := by
    intro heq
    rw [← heq] at hnext
    omega
  rw [goToLine_snd h hne, hnext]

/-- A dot requests what the place that it comes to asks for. -/
theorem DotStep.snd {s : Screen} {place : Nat} {changes : List ModeChange}
    {after : Screen × UInt8} (h : DotStep s place changes after) (hcompared : s.Compared) :
    after.2 = Interrupt.vblank.requestIf ((place + 1) % frameDots = visibleDots) |||
      Interrupt.stat.requestIf (s.RequestsStatAt ((place + 1) % frameDots)) := by
  have hV : visibleDots = 65520 := rfl
  have hF : frameDots = 70080 := rfl
  cases h with
  | quiet _ hquiet =>
    have hnext := hquiet.bounds
    rw [next_eq rfl hnext.1, Interrupt.requestIf_false _ hnext.2,
      Interrupt.requestIf_false _ (s.not_requestsStatAt_of_quiet hquiet)]
    rfl
  | drawBegins hline hnext =>
    have hnone : ¬ s.RequestsStatAt (455 * s.line.toNat + 80) := by
      rw [requestsStatAt_visible s hline (by omega) (by omega)]
      exact fun hend => absurd hend.1 (by decide)
    rw [next_eq hnext (by omega), Interrupt.requestIf_false _ (by omega),
      Interrupt.requestIf_false _ hnone]
    rfl
  | lineDrawn hline hnext =>
    have hend : s.RequestsStatAt (455 * s.line.toNat + 310) ↔
        s.modeInterrupts .hblank = true := by
      rw [requestsStatAt_visible s hline (by omega) (by omega)]
      exact and_iff_right rfl
    rw [next_eq hnext (by omega), Interrupt.requestIf_false _ (by omega),
      Interrupt.stat.requestIf_congr hend, UInt8.zero_or]
    rfl
  | lineBegins hline hnext =>
    have hstart : lineStart (s.line.toNat + 1) = 455 * (s.line.toNat + 1) := if_pos (by omega)
    rw [next_eq hnext (by omega), Interrupt.requestIf_false _ (by omega), UInt8.zero_or,
      ← hstart, requestIf_visibleLine s (by omega),
      goToLine_next_snd hcompared rfl (by omega)]
  | vblankBegins hline hnext =>
    have hstart : lineStart 144 = visibleDots := rfl
    have hstat := requestIf_firstVblankLine s
    rw [hstart] at hstat
    rw [next_eq hnext (by omega), Interrupt.requestIf_true _ rfl, hstat,
      goToLine_next_snd hcompared hline (by omega), UInt8.or_comm Interrupt.vblank.mask]
  | vblankLine hline hlast hnext =>
    have hstart : lineStart (s.line.toNat + 1) =
        visibleDots + 456 * (s.line.toNat - 143) := by
      rw [lineStart, if_neg (by omega), vblankLineDots]
      omega
    rw [next_eq hnext (by omega), Interrupt.requestIf_false _ (by omega), UInt8.zero_or,
      ← hstart, requestIf_laterVblankLine s (by omega) (by omega),
      goToLine_next_snd hcompared rfl (by omega)]
  | frameBegins hline hnext =>
    have hstart : lineStart 0 = 0 := rfl
    have hne : s.line ≠ 0 := by
      intro hzero
      rw [hzero] at hline
      contradiction
    have hstat := requestIf_visibleLine s (show 0 < 144 by omega)
    rw [hstart] at hstat
    rw [hnext, Nat.mod_self, Interrupt.requestIf_false _ (by omega), UInt8.zero_or, hstat,
      goToLine_snd hcompared hne]
    rfl

theorem SameSettings.requestsStatAt {s t : Screen} (h : s.SameSettings t) :
    t.RequestsStatAt = s.RequestsStatAt := by
  rw [h]
  rfl

/-- Dots request what the places that they come to ask for. -/
theorem passAll_snd (dots : Nat) {s : Screen} {before since : Nat} (h : s.OnCourse before since)
    (hcompared : s.Compared) (raised : UInt8) :
    (s.passAll dots raised).2 = raised |||
      (Interrupt.vblank.requestIf (Within since dots (· = visibleDots)) |||
        Interrupt.stat.requestIf (Within since dots s.RequestsStatAt)) := by
  induction dots generalizing s since raised with
  | zero =>
    rw [passAll_zero, Interrupt.requestIf_false _ (not_within_zero _ _),
      Interrupt.requestIf_false _ (not_within_zero _ _)]
    exact UInt8.or_zero.symm
  | succ dots ih =>
    have hnow := h.dotStep.snd hcompared
    rw [Nat.mod_add_mod] at hnow
    rw [passAll_succ, ih h.dot (h.dotStep.compared hcompared), hnow,
      Interrupt.vblank.requestIf_congr within_succ, Interrupt.stat.requestIf_congr within_succ,
      Interrupt.requestIf_or, Interrupt.requestIf_or]
    simp only [s.sameSettings_dot.requestsStatAt]
    ac_rfl

/-- Bit `n` of the status register, as it is read. -/
def statusBit (s : Screen) (n : Nat) : Bool :=
  (s.readAt 0xFF41).toNat.testBit n

/-- Beside the enables, bits 3 to 6 of the status register are clear. -/
theorem statusBit_eq (s : Screen) {n : Nat} (h : 3 ≤ n) (hle : n ≤ 6) :
    s.statusBit n = s.statusEnables.toNat.testBit n := by
  have hread : s.readAt 0xFF41 = s.status := by
    rw [readAt, show ScreenRegister.ofAddress? 0xFF41 = some .status from
      ScreenRegister.ofAddress?_address .status]
    rfl
  have hclear : ∀ bits : UInt8, bits &&& 0x78 = 0 → bits.toNat.testBit n = false := by
    intro bits hbits
    have hbit : (bits.toNat &&& 0x78).testBit n = false := by
      rw [show bits.toNat &&& 0x78 = 0 from congrArg UInt8.toNat hbits, Nat.zero_testBit]
    have hmask : Nat.testBit 0x78 n = true := by
      obtain rfl | rfl | rfl | rfl : n = 3 ∨ n = 4 ∨ n = 5 ∨ n = 6 := by omega
      all_goals rfl
    rwa [Nat.testBit_and, hmask, Bool.and_true] at hbit
  have hone := hclear 0x80 (by decide)
  have hflag := hclear (if s.coincidence then 0x04 else 0) (by cases s.coincidence <;> decide)
  have hmode := hclear s.mode.code (by cases s.mode <;> decide)
  rw [statusBit, hread, status]
  simp only [UInt8.toNat_or, Nat.testBit_or, hone, hflag, hmode, Bool.false_or, Bool.or_false]

/-- The enables are bits 3, 4, 5 and 6 of the status register. -/
theorem interrupts_eq_statusBit (s : Screen) :
    s.modeInterrupts .hblank = s.statusBit 3 ∧ s.modeInterrupts .vblank = s.statusBit 4 ∧
      s.modeInterrupts .oamScan = s.statusBit 5 ∧ s.coincidenceInterrupts = s.statusBit 6 := by
  have henable : ∀ (mask : UInt8) (n : Nat), mask.toNat = 1 <<< n → 3 ≤ n → n ≤ 6 →
      (s.statusEnables &&& mask != 0) = s.statusBit n := by
    intro mask n hmask h hle
    rw [and_mask_eq_testBit _ _ _ hmask, s.statusBit_eq h hle]
  exact ⟨henable 0x08 3 rfl (by decide) (by decide), henable 0x10 4 rfl (by decide) (by decide),
    henable 0x20 5 rfl (by decide) (by decide), henable 0x40 6 rfl (by decide) (by decide)⟩

/-- The screen requests the status interrupt while it goes on for some dots from a
place of the frame: a visible line ends its drawing, the vertical blank begins, a
visible line begins, or the line compared with begins.  Bits 3 to 6 of the status
register enable these. -/
def RequestsStat (s : Screen) (place dots : Nat) : Prop :=
  s.statusBit 3 = true ∧ (∃ y < 144, Within place dots (· = 455 * y + 310)) ∨
  s.statusBit 4 = true ∧ Within place dots (· = 65520) ∨
  s.statusBit 5 = true ∧ (∃ y < 144, Within place dots (· = 455 * y)) ∨
  s.statusBit 6 = true ∧ s.lineCompare.toNat ≤ 153 ∧
    Within place dots (· = lineStart s.lineCompare.toNat)

instance instDecidableRequestsStat (s : Screen) (place dots : Nat) :
    Decidable (s.RequestsStat place dots) :=
  inferInstanceAs (Decidable (_ ∧ _ ∨ _ ∧ _ ∨ _ ∧ _ ∨ _ ∧ _ ∧ _))

/-- A place with a remainder in a visible line is a place of one of the lines. -/
theorem visible_iff_exists {place q : Nat} (hq : q < 455) :
    place < visibleDots ∧ place % lineDots = q ↔ ∃ y < 144, place = 455 * y + q := by
  have hV : visibleDots = 65520 := rfl
  rw [hV, lineDots]
  constructor
  · rintro ⟨hlt, hrest⟩
    exact ⟨place / 455, by omega, by omega⟩
  · rintro ⟨y, hy, rfl⟩
    omega

theorem within_requestsStatAt (s : Screen) (place dots : Nat) :
    Within place dots s.RequestsStatAt ↔ s.RequestsStat place dots := by
  obtain ⟨hhblank, hvblank, hoamScan, hcompare⟩ := s.interrupts_eq_statusBit
  unfold RequestsStatAt RequestsStat
  rw [hhblank, hvblank, hoamScan, hcompare]
  simp only [visible_iff_exists (show 310 < 455 by decide),
    visible_iff_exists (show 0 < 455 by decide), within_or, within_and_left, within_exists]
  rfl

/-- While a reachable screen is on, the interrupts that it requests as time passes
are those of the places that it comes to.  The vertical blank is requested, and
seen to begin, if and only if its first place is among them.  The status
interrupt is requested for the four causes of `RequestsStat` and for no other.
Nothing else changes in the request register.  The checked screen, to which its
changes of mode answer that the vertical blank begins, gives the same. -/
theorem requests_advanceScreen {b : Bus} (hreach : b.screen.Reachable)
    (hon : b.screen.enabled = true) (cycles : Nat) :
    let place := b.screen.position.phase
    place < 70080 ∧ b.screen.position = positionAt place ∧
    (b.advanceScreen cycles).requests = b.requests |||
      Interrupt.vblank.requestIf (Within place (4 * cycles) (· = 65520)) |||
      Interrupt.stat.requestIf (b.screen.RequestsStat place (4 * cycles)) ∧
    (b.screen.entersVblank cycles = true ↔ Within place (4 * cycles) (· = 65520)) ∧
    (4 * cycles < UInt32.size → (b.advanceScreen cycles).screen.frameCount < UInt64.size →
      Checked.advance b.screen cycles =
        .ok ((b.advanceScreen cycles).screen, (b.screen.advance cycles).2,
          b.screen.entersVblank cycles)) := by
  obtain ⟨before, since, hcourse⟩ := hreach.onCourse hon
  have hplace : b.screen.position.phase = since % frameDots := hcourse.phase_eq
  have hdots : cycles * dotsPerCycle = 4 * cycles := Nat.mul_comm _ _
  have hraised : (b.screen.advance cycles).2 =
      Interrupt.vblank.requestIf (Within (since % frameDots) (4 * cycles) (· = 65520)) |||
        Interrupt.stat.requestIf (b.screen.RequestsStat (since % frameDots) (4 * cycles)) := by
    have hstat : Within since (4 * cycles) b.screen.RequestsStatAt ↔
        b.screen.RequestsStat (since % frameDots) (4 * cycles) :=
      within_mod.symm.trans (within_requestsStatAt b.screen _ _)
    rw [Interrupt.vblank.requestIf_congr within_mod, ← Interrupt.stat.requestIf_congr hstat,
      Screen.advance, if_pos hon, hdots, passAll_snd _ hcourse (hreach.compared hon),
      UInt8.zero_or]
    rfl
  dsimp only
  rw [hplace]
  refine ⟨Nat.mod_lt _ (by decide), hcourse.phase.position, ?_, ?_, ?_⟩
  · rw [UInt8.or_assoc, ← hraised]
    rfl
  · rw [entersVblank, hraised, Interrupt.isSet_or, Interrupt.isSet_requestIf,
      Interrupt.isSet_requestIf]
    simp
  · intro hcycles hcount
    exact Checked.advance_eq_ok hreach (hdots ▸ hcycles) hcount

/-- The bus after boot, with line 150 to compare with and these enables. -/
def enabling (enables : UInt8) : Bus :=
  (Bus.postBoot.write 0xFF45 150).write 0xFF41 enables

/-- From the start of a frame, the first causes of the status interrupt come after
310, 65520, 455 and 68256 dots. -/
theorem requestsStat_enabling (enables : UInt8) {dots : Nat} (h : dots < frameDots) :
    (enabling enables).screen.RequestsStat 0 dots ↔
      enables &&& 0x08 ≠ 0 ∧ 310 ≤ dots ∨ enables &&& 0x10 ≠ 0 ∧ 65520 ≤ dots ∨
        enables &&& 0x20 ≠ 0 ∧ 455 ≤ dots ∨ enables &&& 0x40 ≠ 0 ∧ 68256 ≤ dots := by
  have hbit : ∀ (mask : UInt8) (n : Nat), mask.toNat = 1 <<< n → 0x78 &&& mask = mask →
      3 ≤ n → n ≤ 6 →
      ((enabling enables).screen.statusBit n = true ↔ enables &&& mask ≠ 0) := by
    intro mask n hmask hplace hge hle
    have henables : (enabling enables).screen.statusEnables = enables &&& 0x78 := rfl
    rw [statusBit_eq _ hge hle, henables, ← and_mask_eq_testBit _ _ _ hmask, UInt8.and_assoc,
      hplace, bne_iff_ne]
  have hcompare : (enabling enables).screen.lineCompare.toNat = 150 := rfl
  have hstart : lineStart 150 = 68256 := rfl
  unfold RequestsStat
  rw [hbit 0x08 3 rfl rfl (by decide) (by decide), hbit 0x10 4 rfl rfl (by decide) (by decide),
    hbit 0x20 5 rfl rfl (by decide) (by decide), hbit 0x40 6 rfl rfl (by decide) (by decide),
    hcompare, hstart]
  simp only [within_zero_eq h]
  refine or_congr (and_congr_right' ?_) (or_congr (and_congr_right' ?_)
    (or_congr (and_congr_right' ?_) (and_congr_right' ?_)))
  · exact ⟨fun ⟨y, _, _, hle⟩ => by omega,
      fun hle => ⟨0, by omega, by omega, by omega⟩⟩
  · omega
  · exact ⟨fun ⟨y, _, hpos, hle⟩ => by omega,
      fun hle => ⟨1, by omega, by omega, by omega⟩⟩
  · omega

/-- Each cause of the status interrupt with no other enabled: in the cycle before
it, and in the one that comes to it.  The vertical blank is requested besides. -/
theorem requests_enabling :
    (enabling 0x08).screen.Reachable ∧ (enabling 0x08).screen.enabled = true ∧
      ((enabling 0x08).advanceScreen 77).requests = 0x00 ∧
      ((enabling 0x08).advanceScreen 78).requests = 0x02 ∧
      ((enabling 0x20).advanceScreen 113).requests = 0x00 ∧
      ((enabling 0x20).advanceScreen 114).requests = 0x02 ∧
      ((enabling 0x10).advanceScreen 16379).requests = 0x00 ∧
      ((enabling 0x10).advanceScreen 16380).requests = 0x03 ∧
      ((enabling 0x40).advanceScreen 17063).requests = 0x01 ∧
      ((enabling 0x40).advanceScreen 17064).requests = 0x03 ∧
      (·.2.2) <$> Checked.advance (enabling 0x10).screen 16379 = .ok false ∧
      (·.2.2) <$> Checked.advance (enabling 0x10).screen 16380 = .ok true := by
  have hreach : ∀ enables, (enabling enables).screen.Reachable := fun enables =>
    Reachable.postBoot.run [.writeRegister 0xFF45 150, .writeRegister 0xFF41 enables]
  have hon : ∀ enables, (enabling enables).screen.enabled = true := fun enables =>
    show postBoot.enabled = true from rfl
  have hplace : ∀ enables, (enabling enables).screen.position.phase = 0 := fun _ => rfl
  have hvblank : ∀ cycles, 4 * cycles < frameDots →
      (Within 0 (4 * cycles) (· = 65520) ↔ 65520 ≤ 4 * cycles) := by
    intro cycles h
    rw [within_zero_eq h]
    omega
  have hrequests : ∀ enables cycles, 4 * cycles < frameDots →
      ((enabling enables).advanceScreen cycles).requests =
        Interrupt.vblank.requestIf (65520 ≤ 4 * cycles) |||
        Interrupt.stat.requestIf
          (enables &&& 0x08 ≠ 0 ∧ 310 ≤ 4 * cycles ∨
            enables &&& 0x10 ≠ 0 ∧ 65520 ≤ 4 * cycles ∨
            enables &&& 0x20 ≠ 0 ∧ 455 ≤ 4 * cycles ∨
            enables &&& 0x40 ≠ 0 ∧ 68256 ≤ 4 * cycles) := by
    intro enables cycles h
    have hclear : (enabling enables).requests = 0 := rfl
    have hall := (requests_advanceScreen (hreach enables) (hon enables) cycles).2.2.1
    rw [hall, hplace, hclear, UInt8.zero_or,
      Interrupt.vblank.requestIf_congr (hvblank cycles h),
      Interrupt.stat.requestIf_congr (requestsStat_enabling enables h)]
  have hseen : ∀ enables cycles, 4 * cycles < frameDots →
      (·.2.2) <$> Checked.advance (enabling enables).screen cycles =
        .ok (decide (65520 ≤ 4 * cycles)) := by
    intro enables cycles h
    have hF : frameDots = 70080 := rfl
    have hcourse : (enabling enables).screen.OnCourse 0 0 := ⟨atPhase_zero rfl, rfl⟩
    have hcount := (hcourse.advance (hon enables) cycles).frameCount
    have hall := requests_advanceScreen (hreach enables) (hon enables) cycles
    have henters := hall.2.2.2.1
    rw [hplace, hvblank cycles h] at henters
    have hsize : UInt32.size = 4294967296 ∧ UInt64.size = 18446744073709551616 := ⟨rfl, rfl⟩
    have hfew : ((enabling enables).advanceScreen cycles).screen.frameCount < UInt64.size := by
      refine Nat.lt_of_le_of_lt (Nat.le_of_eq hcount) ?_
      rw [picturesIn, hF, vblankLineDots]
      omega
    rw [hall.2.2.2.2 (by omega) hfew, Bool.eq_iff_iff.2 (henters.trans decide_eq_true_iff.symm)]
    rfl
  refine ⟨hreach 0x08, hon 0x08, ?_, ?_, ?_, ?_, ?_, ?_, ?_, ?_, ?_, ?_⟩
  case refine_9 => exact hseen 0x10 16379 (by decide)
  case refine_10 => exact hseen 0x10 16380 (by decide)
  all_goals rw [hrequests _ _ (by decide)]; decide

end Screen
end Handheld
