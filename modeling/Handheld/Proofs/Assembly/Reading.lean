import Mathlib.Algebra.Ring.Nat
import Handheld.Assembly.Statement

/-!
# Reading back what is written

A term is read off its text, and so is a statement: `Statement.ofText?_text`.

There are three groups.

* Numbers, decimal and hexadecimal.
* Terms.  No text of a term has a comma or a space in it.
* Statements.
-/

namespace Handheld

/-! ## Numbers -/

namespace Text

theorem hexValue?_hexDigit {n : Nat} (h : n < 16) : hexValue? (hexDigit n) = some n := by
  have hall : ∀ n < 16, hexValue? (hexDigit n) = some n := by decide
  exact hall n h

theorem hexNumber?_append_singleton (digits : List Char) (last : Char) :
    hexNumber? (digits ++ [last]) =
      (hexNumber? digits).bind fun n => (hexValue? last).map (n * 16 + ·) := by
  simp only [hexNumber?, List.foldl_append, List.foldl_cons, List.foldl_nil]
  cases digits.foldl _ _ with
  | none => rfl
  | some n => cases hexValue? last <;> rfl

theorem hexNumber?_hexDigits (width n : Nat) :
    hexNumber? (hexDigits width n) = some (n % 16 ^ width) := by
  induction width generalizing n with
  | zero => simp [hexDigits, hexNumber?, Nat.mod_one]
  | succ width ih =>
    have hsplit : n % 16 ^ (width + 1) = n / 16 % 16 ^ width * 16 + n % 16 := by
      rw [Nat.pow_succ, Nat.mul_comm (16 ^ width), Nat.mod_mul, Nat.add_comm, Nat.mul_comm 16]
    rw [hexDigits, hexNumber?_append_singleton, ih, hexValue?_hexDigit (Nat.mod_lt n (by decide)),
      hsplit]
    rfl

theorem length_hexDigits (width n : Nat) : (hexDigits width n).length = width := by
  induction width generalizing n with
  | zero => rfl
  | succ width ih => rw [hexDigits, List.length_append, ih, List.length_singleton]

/-- A hexadecimal digit is no comma and no space. -/
theorem ne_of_mem_hexDigits {width n : Nat} {c : Char} (h : c ∈ hexDigits width n) :
    c ≠ ',' := by
  have hall : ∀ n < 16, hexDigit n ≠ ',' := by decide
  induction width generalizing n with
  | zero => cases h
  | succ width ih =>
    rcases List.mem_append.1 h with h | h
    · exact ih h
    · rw [List.mem_singleton.1 h]
      exact hall _ (Nat.mod_lt n (by decide))

end Text

namespace Assembly

namespace Term

open Text

theorem isDigit_of_mem {n : Nat} {c : Char} (h : c ∈ Nat.toDigits 10 n) : c.isDigit = true :=
  Nat.isDigit_of_mem_toDigits (by decide) (by decide) h

theorem decimal?_toDigits (n : Nat) : decimal? (Nat.toDigits 10 n) = some n := by
  have hdigits : (Nat.toDigits 10 n).all Char.isDigit = true :=
    List.all_eq_true.2 fun _ => isDigit_of_mem
  rw [decimal?, if_pos ⟨Nat.toDigits_ne_nil, hdigits⟩, Nat.ofDigitChars_ten_toDigits]

theorem toList_ofNat (n : Nat) : (toString (Int.ofNat n)).toList = Nat.toDigits 10 n :=
  Nat.toList_repr

theorem toList_negSucc (n : Nat) :
    (toString (Int.negSucc n)).toList = '-' :: Nat.toDigits 10 (n + 1) := by
  change ("-" ++ Nat.repr (n + 1)).toList = _
  rw [String.toList_append, Nat.toList_repr]
  rfl

/-- A list of digits is read as a number and as nothing else. -/
theorem ofChars?_of_digits {digits : List Char} (h : ∀ c ∈ digits, c.isDigit = true) {n : Nat}
    (hn : decimal? digits = some n) : ofChars? digits = some (number n) := by
  have hsigned : signed? digits = some (n : Int) := by
    unfold signed?
    split
    · exact absurd (h '-' List.mem_cons_self) (by decide)
    · rw [hn]
      rfl
  unfold ofChars?
  split
  · exact absurd (h '$' List.mem_cons_self) (by decide)
  · exact absurd (h '(' List.mem_cons_self) (by decide)
  · exact absurd (h 'S' List.mem_cons_self) (by decide)
  · exact absurd (h 'S' List.mem_cons_self) (by decide)
  · rw [hsigned]
    rfl

theorem ofChars?_number (n : Int) : ofChars? (toString n).toList = some (number n) := by
  cases n with
  | ofNat n =>
    rw [toList_ofNat]
    exact ofChars?_of_digits (fun _ => isDigit_of_mem) (decimal?_toDigits n)
  | negSucc n =>
    rw [toList_negSucc]
    have hsigned : signed? ('-' :: Nat.toDigits 10 (n + 1)) = some (Int.negSucc n) := by
      rw [signed?, decimal?_toDigits]
      rfl
    change ((signed? _).map number <|> _) = _
    rw [hsigned]
    rfl

theorem ofChars?_spPlus (n : Int) : ofChars? (spPlus n).text.toList = some (spPlus n) := by
  cases n with
  | ofNat n =>
    have htext : (spPlus (Int.ofNat n)).text.toList = 'S' :: 'P' :: '+' :: Nat.toDigits 10 n := by
      rw [text, if_neg (by simp), String.toList_append, toList_ofNat]
      rfl
    rw [htext, ofChars?, decimal?_toDigits]
    rfl
  | negSucc n =>
    have htext : (spPlus (Int.negSucc n)).text.toList =
        'S' :: 'P' :: '-' :: Nat.toDigits 10 (n + 1) := by
      rw [text, if_pos (Int.negSucc_lt_zero n), String.toList_append, toList_negSucc]
      rfl
    rw [htext, ofChars?, decimal?_toDigits]
    rfl

theorem ofChars?_byte (value : UInt8) : ofChars? (byte value).text.toList = some (byte value) := by
  have hlt : value.toNat % 16 ^ 2 = value.toNat := Nat.mod_eq_of_lt value.toNat_lt
  have htext : (byte value).text.toList = '$' :: hexDigits 2 value.toNat := by
    simp [text, hexByte]
  rw [htext]
  change hex? _ = _
  rw [hex?, hexNumber?_hexDigits, length_hexDigits, hlt]
  exact congrArg (fun value => some (byte value)) UInt8.ofNat_toNat

theorem ofChars?_word (value : UInt16) : ofChars? (word value).text.toList = some (word value) := by
  have hlt : value.toNat % 16 ^ 4 = value.toNat := Nat.mod_eq_of_lt value.toNat_lt
  have htext : (word value).text.toList = '$' :: hexDigits 4 value.toNat := by
    simp [text, hexWord]
  rw [htext]
  change hex? _ = _
  rw [hex?, hexNumber?_hexDigits, length_hexDigits, hlt]
  exact congrArg (fun value => some (word value)) UInt16.ofNat_toNat

theorem ofChars?_memory (address : UInt16) :
    ofChars? (memory address).text.toList = some (memory address) := by
  have hlt : address.toNat % 16 ^ 4 = address.toNat := Nat.mod_eq_of_lt address.toNat_lt
  have htext : (memory address).text.toList =
      '(' :: '$' :: (hexDigits 4 address.toNat ++ [')']) := by
    simp [text, hexWord]
  have hlength : (hexDigits 4 address.toNat ++ [')']).length = 5 := by
    rw [List.length_append, length_hexDigits]
    rfl
  have hother : hexDigits 4 address.toNat ++ [')'] ≠ "FF00+C)".toList := by
    intro heq
    rw [heq] at hlength
    exact absurd hlength (by decide)
  rw [htext]
  change place? _ = _
  rw [place?, if_neg hother, if_pos ⟨hlength, List.getLast?_concat⟩, List.dropLast_concat,
    hexNumber?_hexDigits, hlt]
  exact congrArg (fun address => some (memory address)) UInt16.ofNat_toNat

/-- A term is read off its text. -/
theorem ofChars?_text (t : Term) : ofChars? t.text.toList = some t := by
  cases t with
  | memory address => exact ofChars?_memory address
  | byte value => exact ofChars?_byte value
  | word value => exact ofChars?_word value
  | number n => exact ofChars?_number n
  | spPlus n => exact ofChars?_spPlus n
  | _ => rfl

theorem comma_not_mem_text (t : Term) : ',' ∉ t.text.toList := by
  have hdecimal : ∀ n : Int, ',' ∉ (toString n).toList := by
    intro n hmem
    cases n with
    | ofNat n =>
      rw [toList_ofNat] at hmem
      exact absurd (isDigit_of_mem hmem) (by decide)
    | negSucc n =>
      rw [toList_negSucc] at hmem
      rcases List.mem_cons.1 hmem with hmem | hmem
      · exact absurd hmem (by decide)
      · exact absurd (isDigit_of_mem hmem) (by decide)
  have hhex : ∀ width n : Nat, ',' ∉ hexDigits width n := fun _ _ h => ne_of_mem_hexDigits h rfl
  cases t with
  | memory address =>
    simp [text, hexWord, hhex]
  | byte value => simp [text, hexByte, hhex]
  | word value => simp [text, hexWord, hhex]
  | number n => exact hdecimal n
  | spPlus n => 
    rw [text, String.toList_append, List.mem_append]
    rintro (hmem | hmem)
    · split at hmem <;> exact absurd hmem (by decide)
    · exact hdecimal n hmem
  | _ => decide

end Term

/-! ## Statements -/

namespace Mnemonic

/-- A mnemonic is read off its text. -/
theorem ofChars?_text (m : Mnemonic) : ofChars? m.text.toList = some m := by
  cases m <;> rfl

theorem space_not_mem_text (m : Mnemonic) : ' ' ∉ m.text.toList := by
  cases m <;> decide

end Mnemonic

namespace Statement

theorem terms?_cons (space : Char) {terms : List Term} (h : terms ≠ []) :
    terms? (space :: (",".intercalate (terms.map (·.text))).toList) = some terms := by
  have hcomma : ∀ text ∈ terms.map (·.text.toList), ',' ∉ text := by
    intro text htext
    obtain ⟨t, _, rfl⟩ := List.mem_map.1 htext
    exact t.comma_not_mem_text
  have hsplit : ((",".intercalate (terms.map (·.text))).toList).splitOn ',' =
      terms.map (·.text.toList) := by
    rw [String.toList_intercalate, List.map_map]
    exact List.splitOn_intercalate ',' hcomma (by simpa using h)
  have hread : ∀ ts : List Term, (ts.map (·.text.toList)).mapM Term.ofChars? = some ts := by
    intro ts
    induction ts with
    | nil => rfl
    | cons t ts ih => simp [Term.ofChars?_text, ih]
  rw [terms?, hsplit, hread]

/-- A statement is read off its text. -/
theorem ofText?_text (s : Statement) : ofText? s.text = some s := by
  obtain ⟨mnemonic, terms⟩ := s
  have hspace : ∀ c ∈ mnemonic.text.toList, (c != ' ') = true := fun c hc =>
    bne_iff_ne.2 fun heq => mnemonic.space_not_mem_text (heq ▸ hc)
  have hread : ∀ list : List Char, (∀ c ∈ list.head?, c = ' ') →
      terms? list = some terms →
      (text ⟨mnemonic, terms⟩).toList = mnemonic.text.toList ++ list →
      ofText? (text ⟨mnemonic, terms⟩) = some ⟨mnemonic, terms⟩ := by
    intro list hhead hterms htext
    have htake : list.takeWhile (· != ' ') = [] := by
      cases list with
      | nil => rfl
      | cons c list => simp [hhead c rfl]
    have hdrop : list.dropWhile (· != ' ') = list := by
      cases list with
      | nil => rfl
      | cons c list => simp [hhead c rfl]
    rw [ofText?, htext, List.takeWhile_append_of_pos hspace, List.dropWhile_append_of_pos hspace,
      htake, hdrop, List.append_nil, Mnemonic.ofChars?_text, hterms]
    rfl
  by_cases hterms : terms = []
  · refine hread [] (by simp) (by rw [hterms]; rfl) ?_
    rw [text, if_pos hterms, List.append_nil]
  · have hspaced : (" ".toList : List Char) = [' '] := rfl
    refine hread _ ?_ (terms?_cons ' ' hterms) ?_
    · intro c hc
      exact (Option.some.inj hc).symm
    · rw [text, if_neg hterms, String.toList_append, String.toList_append, List.append_assoc,
        hspaced, List.singleton_append]

end Statement
end Assembly
end Handheld
