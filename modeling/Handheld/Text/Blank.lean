/-!
# Blanks

The characters with the Unicode property White_Space, and the two operations
on texts that depend on them: trimming and splitting into words.
-/

namespace Handheld.Text

/-- The ranges of code points with the property White_Space. -/
def blankRanges : List (Nat × Nat) :=
  [(0x09, 0x0D), (0x20, 0x20), (0x85, 0x85), (0xA0, 0xA0), (0x1680, 0x1680),
    (0x2000, 0x200A), (0x2028, 0x2029), (0x202F, 0x202F), (0x205F, 0x205F),
    (0x3000, 0x3000)]

/-- Whether the character has the property White_Space. -/
def isBlank (c : Char) : Bool :=
  blankRanges.any fun range => range.1 ≤ c.toNat && c.toNat ≤ range.2

/-- The characters without the blanks at both ends. -/
def trimList (cs : List Char) : List Char :=
  ((cs.dropWhile isBlank).reverse.dropWhile isBlank).reverse

/-- The text without the blanks at both ends. -/
def trim (s : String) : String :=
  .ofList (trimList s.toList)

/-- The words among the characters, where `word` holds the characters of the
word that is being read, the last one first. -/
def wordsFrom : (word : List Char) → List Char → List (List Char)
  | [], [] => []
  | word@(_ :: _), [] => [word.reverse]
  | word, c :: rest =>
    if isBlank c then
      match word with
      | [] => wordsFrom [] rest
      | _ :: _ => word.reverse :: wordsFrom [] rest
    else wordsFrom (c :: word) rest

/-- The longest pieces of the text that hold no blank. -/
def words (s : String) : List String :=
  (wordsFrom [] s.toList).map String.ofList

end Handheld.Text
