import Handheld.Text.Blank

/-!
# The words of a text

A text is read as words with blanks around them.  `HasWords` says in which texts
given words stand in given order: two words are parted by one blank at least, and
before the first word and behind the last one there may be blanks.

There are three groups.

* Blanks and words, and `HasWords`.  `HasWords.append` puts two texts together.
* Splitting a text.  `words_eq_iff` says that it answers the words that stand in it.
* The blanks.  `isBlank_iff` lists them one by one.
-/

namespace Handheld.Text

/-! ## Blanks and words -/

/-- A run of blanks, which may be empty. -/
def IsGap (cs : List Char) : Prop :=
  ∀ c ∈ cs, isBlank c = true

/-- A word: at least one character, and no blank. -/
structure IsWord (cs : List Char) : Prop where
  ne_nil : cs ≠ []
  solid : ∀ c ∈ cs, isBlank c = false

/-- A text that a word can stand before: it is empty or begins with a blank. -/
def OpensApart (cs : List Char) : Prop :=
  ∀ c ∈ cs.head?, isBlank c = true

/-- A text that a word can stand behind: it is empty or ends with a blank. -/
def EndsApart (cs : List Char) : Prop :=
  ∀ c ∈ cs.getLast?, isBlank c = true

theorem opensApart_nil : OpensApart [] :=
  nofun

theorem IsGap.opensApart {gap : List Char} (h : IsGap gap) : OpensApart gap :=
  fun c hc => h c (List.mem_of_head? hc)

theorem OpensApart.append {cs : List Char} (h : OpensApart cs) (hne : cs ≠ [])
    (ds : List Char) : OpensApart (cs ++ ds) := by
  obtain ⟨c, cs, rfl⟩ := List.exists_cons_of_ne_nil hne
  exact h

/-- A word does not stand before a word. -/
theorem IsWord.not_opensApart_append {word : List Char} (h : IsWord word) (cs : List Char) :
    ¬OpensApart (word ++ cs) := by
  obtain ⟨c, word, rfl⟩ := List.exists_cons_of_ne_nil h.ne_nil
  intro hopens
  have hblank : isBlank c = true := hopens c rfl
  rw [h.solid c List.mem_cons_self] at hblank
  cases hblank

instance (cs : List Char) : Decidable (IsGap cs) :=
  decidable_of_iff (cs.all isBlank = true) List.all_eq_true

instance (cs : List Char) : Decidable (IsWord cs) :=
  decidable_of_iff (cs.isEmpty = false ∧ cs.any isBlank = false)
    ⟨fun h => ⟨List.isEmpty_eq_false_iff.1 h.1, by simpa using h.2⟩,
      fun h => ⟨List.isEmpty_eq_false_iff.2 h.ne_nil, by simpa using h.solid⟩⟩

instance (cs : List Char) : Decidable (OpensApart cs) :=
  decidable_of_iff (cs.head?.all isBlank = true) (Option.all_eq_true _ _)

instance (cs : List Char) : Decidable (EndsApart cs) :=
  decidable_of_iff (cs.getLast?.all isBlank = true) (Option.all_eq_true _ _)

/-- The words that stand in a text. -/
inductive HasWords : List (List Char) → List Char → Prop where
  | blank {gap : List Char} (hgap : IsGap gap) : HasWords [] gap
  | word {gap word rest : List Char} {words : List (List Char)} (hgap : IsGap gap)
      (hword : IsWord word) (hrest : HasWords words rest) (hapart : OpensApart rest) :
      HasWords (word :: words) (gap ++ word ++ rest)

theorem IsWord.hasWords {cs : List Char} (h : IsWord cs) : HasWords [cs] cs := by
  have hword : HasWords [cs] ([] ++ cs ++ []) := .word nofun h (.blank nofun) opensApart_nil
  rwa [List.nil_append, List.append_nil] at hword

namespace HasWords

variable {cs ds gap : List Char} {ws vs : List (List Char)}

theorem nil_iff : HasWords [] cs ↔ IsGap cs :=
  ⟨fun h => by cases h with | blank hgap => exact hgap, .blank⟩

theorem cons_iff {word : List Char} : HasWords (word :: ws) cs ↔ ∃ gap rest,
    cs = gap ++ word ++ rest ∧
      IsGap gap ∧ IsWord word ∧ OpensApart rest ∧ HasWords ws rest := by
  constructor
  · intro h
    cases h with
    | @word gap _ rest _ hgap hword hrest hapart =>
      exact ⟨gap, rest, rfl, hgap, hword, hapart, hrest⟩
  · rintro ⟨gap, rest, rfl, hgap, hword, hapart, hrest⟩
    exact .word hgap hword hrest hapart

theorem cons_blank {c : Char} (hc : isBlank c = true) (h : HasWords ws cs) :
    HasWords ws (c :: cs) := by
  have hcons : ∀ gap : List Char, IsGap gap → IsGap (c :: gap) := fun gap hgap =>
    List.forall_mem_cons.2 ⟨hc, hgap⟩
  cases h with
  | blank hgap => exact .blank (hcons _ hgap)
  | word hgap hword hrest hapart => exact .word (hcons _ hgap) hword hrest hapart

theorem gap_append (hgap : IsGap gap) (h : HasWords ws cs) : HasWords ws (gap ++ cs) := by
  induction gap with
  | nil => exact h
  | cons c gap ih =>
    obtain ⟨hc, hrest⟩ := List.forall_mem_cons.1 hgap
    exact (ih hrest).cons_blank hc

end HasWords

/-- A text that ends with a blank goes on behind its last word. -/
theorem EndsApart.of_append_word {cs word rest : List Char} (h : EndsApart (cs ++ word ++ rest))
    (hword : IsWord word) : rest ≠ [] ∧ EndsApart rest := by
  have hlast : ∀ (before more : List Char) (hmore : more ≠ []),
      (before ++ more).getLast? = some (more.getLast hmore) := by
    intro before more hmore
    rw [List.getLast?_append, List.getLast?_eq_some_getLast hmore]
    rfl
  have hrest : rest ≠ [] := by
    rintro rfl
    rw [List.append_nil, EndsApart, hlast cs word hword.ne_nil] at h
    have hblank := h _ rfl
    rw [hword.solid _ (List.getLast_mem hword.ne_nil)] at hblank
    cases hblank
  rw [EndsApart, hlast (cs ++ word) rest hrest] at h
  exact ⟨hrest, by rwa [EndsApart, List.getLast?_eq_some_getLast hrest]⟩

/-- Two texts put together have the words of both, if a blank parts them. -/
theorem HasWords.append {cs ds : List Char} {ws vs : List (List Char)} (h : HasWords ws cs)
    (h' : HasWords vs ds) (hapart : EndsApart cs ∨ OpensApart ds) :
    HasWords (ws ++ vs) (cs ++ ds) := by
  induction h with
  | blank hgap => exact h'.gap_append hgap
  | @word gap word rest words hgap hword _ hopens ih =>
    have hrest : EndsApart rest ∨ OpensApart ds :=
      hapart.imp_left fun hends => (hends.of_append_word hword).2
    have hnext : OpensApart (rest ++ ds) := by
      cases rest with
      | nil =>
        rcases hapart with hends | hds
        · exact absurd rfl (hends.of_append_word hword).1
        · exact hds
      | cons c rest => exact hopens
    rw [List.append_assoc (gap ++ word)]
    exact .word hgap hword (ih hrest) hnext

/-! ## Splitting a text -/

section

variable {cs gap word : List Char}

theorem wordsFrom_of_blank {c : Char} (hc : isBlank c = true) (read cs : List Char) :
    wordsFrom read (c :: cs) =
      if read = [] then wordsFrom [] cs else read.reverse :: wordsFrom [] cs := by
  cases read <;> simp [wordsFrom, hc]

theorem wordsFrom_of_solid {c : Char} (hc : isBlank c = false) (read cs : List Char) :
    wordsFrom read (c :: cs) = wordsFrom (c :: read) cs := by
  cases read <;> simp [wordsFrom, hc]

theorem wordsFrom_gap_append (hgap : IsGap gap) (cs : List Char) :
    wordsFrom [] (gap ++ cs) = wordsFrom [] cs := by
  induction gap with
  | nil => rfl
  | cons c gap ih =>
    obtain ⟨hc, hrest⟩ := List.forall_mem_cons.1 hgap
    rw [List.cons_append, wordsFrom_of_blank hc, if_pos rfl]
    exact ih hrest

/-- A word is read up to its end. -/
theorem wordsFrom_solid_append (hword : ∀ c ∈ word, isBlank c = false) (read cs : List Char) :
    wordsFrom read (word ++ cs) = wordsFrom (word.reverse ++ read) cs := by
  induction word generalizing read with
  | nil => rfl
  | cons c word ih =>
    obtain ⟨hc, hrest⟩ := List.forall_mem_cons.1 hword
    rw [List.cons_append, wordsFrom_of_solid hc, ih hrest, List.reverse_cons, List.append_assoc]
    rfl

/-- Where a blank follows, or nothing, a word is complete. -/
theorem wordsFrom_of_opensApart {read : List Char} (hread : read ≠ []) (h : OpensApart cs) :
    wordsFrom read cs = read.reverse :: wordsFrom [] cs := by
  cases cs with
  | nil =>
    obtain ⟨last, before, rfl⟩ := List.exists_cons_of_ne_nil hread
    rfl
  | cons c cs =>
    have hc : isBlank c = true := h c rfl
    rw [wordsFrom_of_blank hc, wordsFrom_of_blank hc, if_neg hread, if_pos rfl]

theorem wordsFrom_of_hasWords {ws : List (List Char)} (h : HasWords ws cs) :
    wordsFrom [] cs = ws := by
  induction h with
  | @blank gap hgap =>
    have hsplit := wordsFrom_gap_append hgap []
    rwa [List.append_nil] at hsplit
  | @word gap word rest words hgap hword _ hapart ih =>
    have hread : word.reverse ++ [] ≠ [] := by simpa using hword.ne_nil
    rw [List.append_assoc, wordsFrom_gap_append hgap, wordsFrom_solid_append hword.solid,
      wordsFrom_of_opensApart hread hapart, ih, List.append_nil, List.reverse_reverse]

/-- The words that are split off stand in the text, behind the characters of the word
that was being read. -/
theorem hasWords_wordsFrom (cs : List Char) : ∀ read : List Char,
    (∀ c ∈ read, isBlank c = false) → HasWords (wordsFrom read cs) (read.reverse ++ cs) := by
  have hreversed : ∀ read : List Char, read ≠ [] → (∀ c ∈ read, isBlank c = false) →
      IsWord read.reverse := fun read hne hread =>
    ⟨by simpa using hne, fun c hc => hread c (List.mem_reverse.1 hc)⟩
  induction cs with
  | nil =>
    intro read hread
    cases read with
    | nil => exact .blank nofun
    | cons c read =>
      rw [List.append_nil]
      exact (hreversed _ (List.cons_ne_nil c read) hread).hasWords
  | cons c cs ih =>
    intro read hread
    cases hc : isBlank c with
    | true =>
      have hrest : HasWords (wordsFrom [] cs) (c :: cs) := (ih [] nofun).cons_blank hc
      have hopens : OpensApart (c :: cs) := by
        rintro _ ⟨⟩
        exact hc
      rw [wordsFrom_of_blank hc]
      split
      · next hnone =>
        rw [hnone]
        exact hrest
      · next hsome =>
        have hword : HasWords (read.reverse :: wordsFrom [] cs) ([] ++ read.reverse ++ (c :: cs)) :=
          .word nofun (hreversed read hsome hread) hrest hopens
        rwa [List.nil_append] at hword
    | false =>
      have hrest := ih (c :: read) (List.forall_mem_cons.2 ⟨hc, hread⟩)
      rw [List.reverse_cons, List.append_assoc] at hrest
      rw [wordsFrom_of_solid hc]
      exact hrest

theorem hasWords_iff {ws : List (List Char)} : HasWords ws cs ↔ wordsFrom [] cs = ws := by
  constructor
  · exact wordsFrom_of_hasWords
  · rintro rfl
    exact hasWords_wordsFrom cs [] nofun

instance (ws : List (List Char)) (cs : List Char) : Decidable (HasWords ws cs) :=
  decidable_of_iff _ hasWords_iff.symm

/-- How many words follow does not depend on how much of the present one has been read. -/
theorem length_wordsFrom_congr (cs : List Char) : ∀ {read read' : List Char}, read ≠ [] →
    read' ≠ [] → (wordsFrom read cs).length = (wordsFrom read' cs).length := by
  induction cs with
  | nil =>
    intro read read' hread hread'
    rw [wordsFrom_of_opensApart hread opensApart_nil, wordsFrom_of_opensApart hread' opensApart_nil,
      List.length_cons, List.length_cons]
  | cons c cs ih =>
    intro read read' hread hread'
    cases hc : isBlank c with
    | true =>
      rw [wordsFrom_of_blank hc, wordsFrom_of_blank hc, if_neg hread, if_neg hread',
        List.length_cons, List.length_cons]
    | false =>
      rw [wordsFrom_of_solid hc, wordsFrom_of_solid hc]
      exact ih (List.cons_ne_nil c read) (List.cons_ne_nil c read')

/-- A word that has been begun makes one word more at most, for it may go on. -/
theorem length_wordsFrom_le {read : List Char} (hread : read ≠ []) (cs : List Char) :
    (wordsFrom read cs).length ≤ (wordsFrom [] cs).length + 1 := by
  cases cs with
  | nil =>
    rw [wordsFrom_of_opensApart hread opensApart_nil]
    exact Nat.le_refl 1
  | cons c cs =>
    cases hc : isBlank c with
    | true =>
      rw [wordsFrom_of_blank hc, wordsFrom_of_blank hc, if_neg hread, if_pos rfl]
      exact Nat.le_refl _
    | false =>
      rw [wordsFrom_of_solid hc, wordsFrom_of_solid hc,
        length_wordsFrom_congr cs (List.cons_ne_nil c read) (List.cons_ne_nil c [])]
      exact Nat.le_add_right ..

/-- Two texts put together have no more words than both have apart. -/
theorem length_wordsFrom_append_le (cs ds : List Char) : ∀ read : List Char,
    (wordsFrom read (cs ++ ds)).length ≤
      (wordsFrom [] ds).length + (wordsFrom read cs).length := by
  induction cs with
  | nil =>
    intro read
    cases read with
    | nil => exact Nat.le_refl _
    | cons c read => exact length_wordsFrom_le (List.cons_ne_nil c read) ds
  | cons c cs ih =>
    intro read
    cases hc : isBlank c with
    | true =>
      rw [List.cons_append, wordsFrom_of_blank hc, wordsFrom_of_blank hc]
      split
      · exact ih []
      · exact Nat.succ_le_succ (ih [])
    | false =>
      rw [List.cons_append, wordsFrom_of_solid hc, wordsFrom_of_solid hc]
      exact ih (c :: read)

end

/-- A text into which another with a word is put, apart from what stands before it and
behind it, has more words. -/
theorem length_lt_of_added {before added after : List Char} {ws : List (List Char)}
    (hadded : HasWords ws added) (hws : ws ≠ []) (hfront : EndsApart before ∨ OpensApart added)
    (hback : EndsApart added ∨ OpensApart after) :
    (wordsFrom [] (before ++ after)).length <
      (wordsFrom [] (before ++ added ++ after)).length := by
  have hadded_ne : added ≠ [] := by
    rintro rfl
    exact hws (wordsFrom_of_hasWords hadded).symm
  have hrest : HasWords (ws ++ wordsFrom [] after) (added ++ after) :=
    hadded.append (hasWords_wordsFrom after [] nofun) hback
  have hall : HasWords (wordsFrom [] before ++ (ws ++ wordsFrom [] after))
      (before ++ (added ++ after)) :=
    HasWords.append (hasWords_wordsFrom before [] nofun) hrest
      (hfront.imp_right fun hopens => hopens.append hadded_ne after)
  have hmore : 0 < ws.length := List.length_pos_iff.2 hws
  have hapart := length_wordsFrom_append_le before after []
  rw [List.append_assoc, wordsFrom_of_hasWords hall, List.length_append, List.length_append]
  omega

/-- The words that a text is split into are those that stand in it. -/
theorem words_eq_iff {s : String} {ws : List String} :
    words s = ws ↔ HasWords (ws.map String.toList) s.toList := by
  have hcancel : String.toList ∘ String.ofList = id := funext fun _ => String.toList_ofList
  have hcancel' : String.ofList ∘ String.toList = id := funext fun _ => String.ofList_toList
  rw [hasWords_iff, words]
  constructor
  · rintro rfl
    rw [List.map_map, hcancel, List.map_id]
  · intro h
    rw [h, List.map_map, hcancel', List.map_id]

theorem length_words_ofList (cs : List Char) :
    (words (.ofList cs)).length = (wordsFrom [] cs).length := by
  rw [words, List.length_map, String.toList_ofList]

/-! ## The blanks -/

/-- The code points with the property White_Space. -/
def whiteSpace : List Nat :=
  [0x09, 0x0A, 0x0B, 0x0C, 0x0D, 0x20, 0x85, 0xA0, 0x1680, 0x2000, 0x2001, 0x2002, 0x2003,
    0x2004, 0x2005, 0x2006, 0x2007, 0x2008, 0x2009, 0x200A, 0x2028, 0x2029, 0x202F, 0x205F,
    0x3000]

theorem isBlank_iff (c : Char) : isBlank c = true ↔ c.toNat ∈ whiteSpace := by
  simp only [isBlank, blankRanges, whiteSpace, List.any_cons, List.any_nil, Bool.or_eq_true,
    Bool.and_eq_true, decide_eq_true_eq, Bool.false_eq_true, List.mem_cons, List.not_mem_nil,
    or_false]
  generalize c.toNat = n
  constructor
  · rintro (h | h | h | h | h | h | h | h | h | h) <;> omega
  · rintro (h | h | h | h | h | h | h | h | h | h | h | h | h | h | h | h | h | h | h | h | h |
      h | h | h | h) <;> omega

end Handheld.Text
