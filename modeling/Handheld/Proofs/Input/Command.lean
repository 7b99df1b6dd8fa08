import Mathlib
import Handheld.Input.Command
import Handheld.Proofs.Text.Words

/-!
# How a command is written

`ButtonEvent.Writing` holds one way to write an event as a line: which blanks stand
around and between the two words, and in which case the letters of the name are.
`ofCommand?` reads a line as an event where the line is a writing of it, and reads
nothing else.

There are four groups.

* Letters and their case.  `foldCase_eq_iff` says what the fold of a letter identifies.
* Names.  `ofName?_eq_some_iff`: a name is read as the button that it spells.
* Writings, and the words of a line that is one.
* The result: `ofCommand?_eq_some_iff` and what follows from it.
-/

namespace Handheld

open Text

/-! ## Letters and their case -/

theorem isUpper_iff (c : Char) : c.isUpper = true ↔ 65 ≤ c.toNat ∧ c.toNat ≤ 90 := by
  simp only [Char.isUpper, decide_eq_true_eq, ge_iff_le, UInt32.le_iff_toNat_le]
  rfl

theorem isLower_iff (c : Char) : c.isLower = true ↔ 97 ≤ c.toNat ∧ c.toNat ≤ 122 := by
  simp only [Char.isLower, Bool.and_eq_true, decide_eq_true_eq, ge_iff_le,
    UInt32.le_iff_toNat_le]
  rfl

theorem isAlpha_iff (c : Char) : c.isAlpha = true ↔
    (65 ≤ c.toNat ∧ c.toNat ≤ 90) ∨ (97 ≤ c.toNat ∧ c.toNat ≤ 122) := by
  rw [Char.isAlpha, Bool.or_eq_true, isUpper_iff, isLower_iff]

theorem toNat_toLower (c : Char) :
    c.toLower.toNat = if 65 ≤ c.toNat ∧ c.toNat ≤ 90 then c.toNat + 32 else c.toNat := by
  by_cases h : c.isUpper = true
  · have hcode := (isUpper_iff c).1 h
    have hvalid : (c.toNat + 32).isValidChar := .inl (by omega)
    rw [Char.toLower_eq_of_isUpper h, Char.toNat_ofNat, if_pos hvalid, if_pos hcode]
  · rw [Char.toLower_eq_of_not_isUpper h, if_neg (mt (isUpper_iff c).2 h)]

theorem toNat_toUpper (c : Char) :
    c.toUpper.toNat = if 97 ≤ c.toNat ∧ c.toNat ≤ 122 then c.toNat - 32 else c.toNat := by
  by_cases h : c.isLower = true
  · have hcode := (isLower_iff c).1 h
    have hvalid : (c.toNat - 32).isValidChar := .inl (by omega)
    rw [Char.toUpper_eq_of_isLower h, Char.toNat_ofNat, if_pos hvalid, if_pos hcode]
  · rw [Char.toUpper_eq_of_not_isLower h, if_neg (mt (isLower_iff c).2 h)]

/-- The character is the letter in lower case or in upper case. -/
def IsCaseOf (letter c : Char) : Prop :=
  c = letter.toLower ∨ c = letter.toUpper

instance (letter c : Char) : Decidable (IsCaseOf letter c) :=
  inferInstanceAs (Decidable (_ ∨ _))

namespace Button

/-- The fold of the case is the one of the library. -/
theorem foldCase_eq (c : Char) : foldCase c = c.toLower := by
  have hupper : ('A' ≤ c ∧ c ≤ 'Z') ↔ 65 ≤ c.toNat ∧ c.toNat ≤ 90 := by
    rw [Char.le_def, Char.le_def, UInt32.le_iff_toNat_le, UInt32.le_iff_toNat_le]
    rfl
  rw [← isUpper_iff] at hupper
  rw [foldCase]
  simp only [hupper]
  split_ifs with h
  · exact (Char.toLower_eq_of_isUpper h).symm
  · exact (Char.toLower_eq_of_not_isUpper h).symm

/-- A letter is folded like a character just where that is the letter in some case.  So no
character outside of ASCII is folded like a letter. -/
theorem foldCase_eq_iff {letter : Char} (h : letter.isAlpha = true) (c : Char) :
    foldCase letter = foldCase c ↔ IsCaseOf letter c := by
  have hcode := (isAlpha_iff letter).1 h
  rw [foldCase_eq, foldCase_eq, IsCaseOf, ← Char.toNat_inj, ← Char.toNat_inj,
    ← Char.toNat_inj, toNat_toLower, toNat_toLower, toNat_toUpper]
  split_ifs <;> omega

theorem map_foldCase_eq_iff {letters : List Char}
    (h : ∀ letter ∈ letters, letter.isAlpha = true) (cs : List Char) :
    letters.map foldCase = cs.map foldCase ↔ List.Forall₂ IsCaseOf letters cs := by
  induction letters generalizing cs with
  | nil => rw [List.forall₂_nil_left_iff, List.map_nil, eq_comm, List.map_eq_nil_iff]
  | cons letter letters ih =>
    obtain ⟨hletter, hletters⟩ := List.forall_mem_cons.1 h
    cases cs with
    | nil => exact ⟨nofun, nofun⟩
    | cons c cs =>
      rw [List.map_cons, List.map_cons, List.cons.injEq, List.forall₂_cons,
        foldCase_eq_iff hletter, ih hletters]

end Button

theorem IsCaseOf.isBlank_eq_false {letter c : Char} (h : IsCaseOf letter c)
    (hletter : letter.isAlpha = true) : isBlank c = false := by
  have hcode := (isAlpha_iff letter).1 hletter
  rw [IsCaseOf, ← Char.toNat_inj, ← Char.toNat_inj, toNat_toLower, toNat_toUpper] at h
  have hbounds : (65 ≤ c.toNat ∧ c.toNat ≤ 90) ∨ (97 ≤ c.toNat ∧ c.toNat ≤ 122) := by
    split_ifs at h <;> omega
  rw [← Bool.not_eq_true, isBlank_iff, whiteSpace]
  simp only [List.mem_cons, List.not_mem_nil, or_false]
  omega

theorem isBlank_eq_false_of_cases {letters cs : List Char} (h : List.Forall₂ IsCaseOf letters cs)
    (hletters : ∀ letter ∈ letters, letter.isAlpha = true) :
    ∀ c ∈ cs, isBlank c = false := by
  induction h with
  | nil => nofun
  | cons hc _ ih =>
    obtain ⟨hletter, hrest⟩ := List.forall_mem_cons.1 hletters
    exact List.forall_mem_cons.2 ⟨hc.isBlank_eq_false hletter, ih hrest⟩

/-! ## Names -/

namespace Button

variable {button : Button} {name : String}

/-- The eight buttons with their names. -/
def names : List (Button × String) :=
  [(a, "A"), (b, "B"), (select, "Select"), (start, "Start"), (right, "Right"),
    (left, "Left"), (up, "Up"), (down, "Down")]

theorem name_eq_iff (button : Button) (name : String) :
    button.name = name ↔ (button, name) ∈ names := by
  cases button <;> simp [names, Button.name, eq_comm]

/-- The characters are the button's name, each letter in lower case or in upper case. -/
def Spells (button : Button) (cs : List Char) : Prop :=
  List.Forall₂ IsCaseOf button.name.toList cs

instance (button : Button) (cs : List Char) : Decidable (button.Spells cs) :=
  inferInstanceAs (Decidable (List.Forall₂ IsCaseOf button.name.toList cs))

theorem isAlpha_of_mem_name (button : Button) :
    ∀ letter ∈ button.name.toList, letter.isAlpha = true := by
  rw [← List.all_eq_true]
  cases button <;> decide

theorem eq_of_foldName_eq {button other : Button}
    (h : foldName button.name = foldName other.name) : button = other := by
  revert h
  cases button <;> cases other <;> decide

theorem Spells.isWord {cs : List Char} (h : button.Spells cs) : IsWord cs where
  ne_nil := by
    rintro rfl
    have hname : button.name.toList = [] := List.forall₂_nil_right_iff.1 h
    revert hname
    cases button <;> decide
  solid := isBlank_eq_false_of_cases h button.isAlpha_of_mem_name

theorem foldName_of_ofName? (h : ofName? name = some button) :
    foldName button.name = foldName name := by
  rw [ofName?] at h
  simpa only [decide_eq_true_eq] using List.find?_some h

/-- A name is read as the button that it spells. -/
theorem ofName?_eq_some_iff : ofName? name = some button ↔ button.Spells name.toList := by
  rw [Spells, ← map_foldCase_eq_iff button.isAlpha_of_mem_name]
  constructor
  · exact foldName_of_ofName?
  · intro h
    have hfound : (ofName? name).isSome = true := by
      rw [ofName?, List.find?_isSome]
      exact ⟨button, by cases button <;> decide, decide_eq_true h⟩
    obtain ⟨other, hother⟩ := Option.isSome_iff_exists.1 hfound
    rw [hother, eq_of_foldName_eq ((foldName_of_ofName? hother).trans h.symm)]

end Button

/-! ## Writings -/

/-- The verb that stands for the button going down or up. -/
def verbOf (pressed : Bool) : String :=
  if pressed then "press" else "release"

theorem pressedOfVerb?_eq_some_iff {verb : String} {pressed : Bool} :
    pressedOfVerb? verb = some pressed ↔ verb = verbOf pressed := by
  rw [pressedOfVerb?]
  split_ifs with hpress hrelease
  · subst hpress
    cases pressed <;> decide
  · subst hrelease
    cases pressed <;> decide
  · cases pressed with
    | false => exact ⟨nofun, fun h => absurd h hrelease⟩
    | true => exact ⟨nofun, fun h => absurd h hpress⟩

theorem isWord_verbOf (pressed : Bool) : IsWord (verbOf pressed).toList := by
  cases pressed <;> decide

namespace ButtonEvent

/-- A way to write an event as a line: the verb and the name of the button, in any
case, with blanks between them and, if any, around them. -/
structure Writing (event : ButtonEvent) where
  lead : List Char
  gap : List Char
  name : List Char
  trail : List Char
  lead_blank : IsGap lead
  gap_ne_nil : gap ≠ []
  gap_blank : IsGap gap
  name_spelled : event.button.Spells name
  trail_blank : IsGap trail

/-- The line that is written. -/
def Writing.text {event : ButtonEvent} (w : event.Writing) : String :=
  .ofList (w.lead ++ (verbOf event.pressed).toList ++ (w.gap ++ w.name ++ w.trail))

variable {event : ButtonEvent} {line : String}

/-- The words of a writing are the verb and the name. -/
theorem Writing.words_text (w : event.Writing) :
    words w.text = [verbOf event.pressed, .ofList w.name] := by
  have hname : HasWords [w.name] (w.gap ++ w.name ++ w.trail) :=
    .word w.gap_blank w.name_spelled.isWord (.blank w.trail_blank) w.trail_blank.opensApart
  have hgap : OpensApart (w.gap ++ w.name ++ w.trail) := by
    rw [List.append_assoc]
    exact w.gap_blank.opensApart.append w.gap_ne_nil _
  rw [words_eq_iff, text, String.toList_ofList, List.map_cons, List.map_cons, List.map_nil,
    String.toList_ofList]
  exact .word w.lead_blank (isWord_verbOf event.pressed) hname hgap

/-- A line of the verb and a name that spells the button is a writing. -/
theorem exists_writing_of_words {name : String} (h : words line = [verbOf event.pressed, name])
    (hname : event.button.Spells name.toList) : ∃ w : event.Writing, w.text = line := by
  rw [words_eq_iff, List.map_cons, List.map_cons, List.map_nil] at h
  obtain ⟨lead, rest, hline, hlead, -, hopens, hrest⟩ := HasWords.cons_iff.1 h
  obtain ⟨gap, trail, rfl, hgap, hword, -, htrail⟩ := HasWords.cons_iff.1 hrest
  have hgap_ne : gap ≠ [] := by
    rintro rfl
    exact hword.not_opensApart_append trail hopens
  refine ⟨⟨lead, gap, name.toList, trail, hlead, hgap_ne, hgap, hname,
    HasWords.nil_iff.1 htrail⟩, ?_⟩
  rw [Writing.text, ← hline, String.ofList_toList]

/-- A command is read off the words of the line. -/
theorem ofCommand?_eq_some_iff_words : ofCommand? line = some event ↔
    ∃ name, words line = [verbOf event.pressed, name] ∧ event.button.Spells name.toList := by
  rw [ofCommand?]
  constructor
  · intro h
    split at h
    · next verb name hwords =>
      obtain ⟨pressed, hverb, h⟩ := Option.bind_eq_some_iff.1 h
      obtain ⟨button, hname, h⟩ := Option.bind_eq_some_iff.1 h
      cases h
      rw [pressedOfVerb?_eq_some_iff] at hverb
      exact ⟨name, hverb ▸ hwords, Button.ofName?_eq_some_iff.1 hname⟩
    · cases h
  · rintro ⟨name, hwords, hname⟩
    rw [hwords]
    simp only [pressedOfVerb?_eq_some_iff.2 rfl, Button.ofName?_eq_some_iff.2 hname]
    rfl

/-! ## What is read -/

/-- A line is read as an event where it is a writing of the event. -/
theorem ofCommand?_eq_some_iff :
    ofCommand? line = some event ↔ ∃ w : event.Writing, w.text = line := by
  rw [ofCommand?_eq_some_iff_words]
  constructor
  · rintro ⟨name, hwords, hname⟩
    exact exists_writing_of_words hwords hname
  · rintro ⟨w, rfl⟩
    refine ⟨.ofList w.name, w.words_text, ?_⟩
    rw [String.toList_ofList]
    exact w.name_spelled

theorem ofCommand?_eq_none_iff :
    ofCommand? line = none ↔ ∀ (event : ButtonEvent) (w : event.Writing), w.text ≠ line := by
  rw [Option.eq_none_iff_forall_ne_some]
  exact forall_congr' fun event => by rw [ne_eq, ofCommand?_eq_some_iff, not_exists]

/-- A command has two words. -/
theorem length_words_of_ofCommand? (h : ofCommand? line = some event) :
    (words line).length = 2 := by
  obtain ⟨name, hwords, -⟩ := ofCommand?_eq_some_iff_words.1 h
  rw [hwords]
  rfl

/-- A command into which a text with a word is put, apart from what stands before it and
behind it, is no command any more. -/
theorem ofCommand?_added {before added after : List Char} {ws : List (List Char)}
    (h : ofCommand? (.ofList (before ++ after)) = some event) (hadded : HasWords ws added)
    (hws : ws ≠ []) (hfront : EndsApart before ∨ OpensApart added)
    (hback : EndsApart added ∨ OpensApart after) :
    ofCommand? (.ofList (before ++ added ++ after)) = none := by
  have htwo := length_words_of_ofCommand? h
  have hmore := length_lt_of_added hadded hws hfront hback
  rw [length_words_ofList] at htwo
  refine Option.eq_none_iff_forall_ne_some.2 fun other hother => ?_
  have htwo' := length_words_of_ofCommand? hother
  rw [length_words_ofList] at htwo'
  omega

/-- The commands are the writings of the events: a line is read as an event where it is one
of the event's, in every spacing and every case of the name, and as nothing where it is
none.  The blanks are the characters with the property White_Space, the buttons have the
names of a list, and one word more spoils a command. -/
theorem ofCommand?_reads_writings :
    (∀ c : Char, isBlank c = true ↔ c.toNat ∈ whiteSpace) ∧
    (∀ (button : Button) (name : String),
      button.name = name ↔ (button, name) ∈ Button.names) ∧
    (∀ (line : String) (event : ButtonEvent),
      ofCommand? line = some event ↔ ∃ w : event.Writing, w.text = line) ∧
    (∀ line : String, ofCommand? line = none ↔
      ∀ (event : ButtonEvent) (w : event.Writing), w.text ≠ line) ∧
    (∀ (event : ButtonEvent) (w : event.Writing), ofCommand? w.text = some event) ∧
    ∀ (event : ButtonEvent) (before added after : List Char) (ws : List (List Char)),
      ofCommand? (.ofList (before ++ after)) = some event →
      HasWords ws added → ws ≠ [] →
      EndsApart before ∨ OpensApart added → EndsApart added ∨ OpensApart after →
      ofCommand? (.ofList (before ++ added ++ after)) = none := by
  refine ⟨isBlank_iff, Button.name_eq_iff, fun line event => ofCommand?_eq_some_iff,
    fun line => ofCommand?_eq_none_iff, fun event w => ofCommand?_eq_some_iff.2 ⟨w, rfl⟩, ?_⟩
  intro event before added after ws h hadded hws hfront hback
  exact ofCommand?_added h hadded hws hfront hback

/-- A writing with blanks outside of ASCII and letters of both cases. -/
def pressStart : Writing { button := .start, pressed := true } where
  lead := [' ', '\u3000']
  gap := ['\u00A0', '\t']
  name := ['s', 'T', 'A', 'r', 'T']
  trail := ['\u2028']
  lead_blank := by decide
  gap_ne_nil := by decide
  gap_blank := by decide
  name_spelled := by decide
  trail_blank := by decide

/-- It is read as its event, and a word between its two words spoils it. -/
theorem ofCommand?_pressStart :
    ofCommand? pressStart.text = some { button := .start, pressed := true } ∧
    ofCommand? (.ofList ([' ', '\u3000', 'p', 'r', 'e', 's', 's', '\u00A0'] ++
      ['n', 'o', 't'] ++ ['\t', 's', 'T', 'A', 'r', 'T', '\u2028'])) = none := by
  obtain ⟨-, -, -, -, hread, hadded⟩ := ofCommand?_reads_writings
  have hpress := hread _ pressStart
  exact ⟨hpress, hadded _ [' ', '\u3000', 'p', 'r', 'e', 's', 's', '\u00A0'] ['n', 'o', 't']
    ['\t', 's', 'T', 'A', 'r', 'T', '\u2028'] [['n', 'o', 't']] hpress (by decide) (by decide)
    (by decide) (by decide)⟩

end ButtonEvent
end Handheld
