/-!
# Keeping pace

A paced session shows its pictures at the rate of the handheld.  Each picture
has a deadline one frame after that of the picture before; a session that is
late starts counting anew.  Times are in nanoseconds.
-/

namespace Handheld

/-- The time from one picture to the next. -/
def frameTime : Nat := 16742706

/-- The deadline of the next picture, if one was set. -/
structure Pacer where
  deadline : Option Nat := none
  deriving DecidableEq, Repr, Inhabited

/-- How long to wait after a picture at time `now`. -/
def Pacer.wait (p : Pacer) (now : Nat) : Nat × Pacer :=
  let deadline := p.deadline.getD (now + frameTime)
  if now < deadline then (deadline - now, { deadline := some (deadline + frameTime) })
  else (0, { deadline := some (now + frameTime) })

end Handheld
