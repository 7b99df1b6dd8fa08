/-!
# Sets of characters

A set is given by ranges of code points, which may overlap.
-/

namespace Handheld.Pattern

/-- A set of characters. -/
structure CharSet where
  /-- The ranges, each with its first and its last code point. -/
  ranges : List (Nat × Nat)
  deriving DecidableEq, Repr, Inhabited

namespace CharSet

/-- The set without characters. -/
def none : CharSet := ⟨[]⟩

/-- The set of all characters. -/
def all : CharSet := ⟨[(0, 0xD7FF), (0xE000, 0x10FFFF)]⟩

/-- The set of all numbers of bytes. -/
def bytes : CharSet := ⟨[(0, 0xFF)]⟩

/-- The characters from one to another. -/
def range (first last : Char) : CharSet := ⟨[(first.toNat, last.toNat)]⟩

/-- The set of one character. -/
def single (c : Char) : CharSet := range c c

/-- Whether a code point lies in a range. -/
def inRange (n : Nat) (r : Nat × Nat) : Bool := r.1 ≤ n && n ≤ r.2

/-- Whether the set has a code point. -/
def has (s : CharSet) (n : Nat) : Bool := s.ranges.any (inRange n)

/-- Whether the set has a character. -/
def contains (s : CharSet) (c : Char) : Bool := s.has c.toNat

/-- Whether there is nothing in the set. -/
def isEmpty (s : CharSet) : Bool := s.ranges.isEmpty

/-- Whether all characters of the set belong to ASCII. -/
def isAscii (s : CharSet) : Bool := s.ranges.all (·.2 ≤ 0x7F)

/-- What two sets have together. -/
def union (s t : CharSet) : CharSet := ⟨s.ranges ++ t.ranges⟩

/-- The range, if it has a code point. -/
def proper (r : Nat × Nat) : List (Nat × Nat) := if r.1 ≤ r.2 then [r] else []

/-- What is left of a range without another one. -/
def cut (r hole : Nat × Nat) : List (Nat × Nat) :=
  if hole.1 = 0 then proper (max r.1 (hole.2 + 1), r.2)
  else proper (r.1, min r.2 (hole.1 - 1)) ++ proper (max r.1 (hole.2 + 1), r.2)

/-- The set without another one. -/
def difference (s t : CharSet) : CharSet :=
  ⟨t.ranges.foldl (fun ranges hole => ranges.flatMap (cut · hole)) s.ranges⟩

/-- What two sets have in common. -/
def intersection (s t : CharSet) : CharSet :=
  ⟨s.ranges.flatMap fun r => t.ranges.flatMap fun q => proper (max r.1 q.1, min r.2 q.2)⟩

/-- What one of two sets has, and not the other. -/
def symmetricDifference (s t : CharSet) : CharSet :=
  (s.difference t).union (t.difference s)

/-- The lower-case letters of ASCII. -/
def lower : CharSet := range 'a' 'z'

/-- The upper-case letters of ASCII. -/
def upper : CharSet := range 'A' 'Z'

/-- The set with each code point moved. -/
def shift (f : Nat → Nat) (s : CharSet) : CharSet :=
  ⟨s.ranges.map fun r => (f r.1, f r.2)⟩

/-- The set with the letters of ASCII in both cases, where it has one of them. -/
def foldCase (s : CharSet) : CharSet :=
  (s.union ((s.intersection lower).shift (· - 32))).union ((s.intersection upper).shift (· + 32))

end CharSet
end Handheld.Pattern
