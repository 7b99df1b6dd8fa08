/-!
# Text in a field

A text is laid out in a field of a given width: it may first be cut to a
number of characters, and is then filled up with spaces.
-/

namespace Handheld.Text

/-- Where a text stands in a field that is wider than it. -/
inductive Alignment where
  | left
  | right
  | center
  deriving DecidableEq, Repr, Inhabited

/-- How a text is laid out. -/
structure Field where
  alignment : Alignment := .left
  width : Nat := 0
  /-- The most characters of the text that are kept. -/
  limit : Option Nat := none
  deriving Repr, Inhabited

/-- The text `n` blanks long. -/
def blanks (n : Nat) : String :=
  .ofList (List.replicate n ' ')

/-- Lays a text out in a field.  Around a centred text an odd blank goes to
the right. -/
def Field.lay (field : Field) (text : String) : String :=
  let kept := match field.limit with
    | some limit => String.ofList (text.toList.take limit)
    | none => text
  let missing := field.width - kept.length
  match field.alignment with
  | .left => kept ++ blanks missing
  | .right => blanks missing ++ kept
  | .center => blanks (missing / 2) ++ kept ++ blanks (missing - missing / 2)

end Handheld.Text
