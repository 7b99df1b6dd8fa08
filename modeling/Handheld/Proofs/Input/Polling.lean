import Handheld.Machine.Frame

/-!
# Asking for events one at a time

A source of events is asked again and again until it answers that there is none.
`Drains` says what it has given then, and in which state it is left.
-/

namespace Handheld

/-- Asked until there is none, a source in the first state gives these events and is
left in the last state. -/
inductive Drains {σ α : Type} (poll : σ → Option α × σ) :
    σ → List α → σ → Prop where
  | none {s s' : σ} (h : poll s = (.none, s')) : Drains poll s [] s'
  | some {s s' s'' : σ} {event : α} {events : List α} (h : poll s = (.some event, s'))
      (rest : Drains poll s' events s'') : Drains poll s (event :: events) s''

namespace Drains

variable {σ α : Type} {poll : σ → Option α × σ} {s t t' : σ} {events events' : List α}

/-- What a source gives is determined by its state. -/
theorem unique (h : Drains poll s events t) (h' : Drains poll s events' t') :
    events = events' ∧ t = t' := by
  induction h generalizing events' with
  | none hask =>
    cases h' with
    | none hask' =>
      rw [hask] at hask'
      exact ⟨rfl, (Prod.mk.inj hask').2⟩
    | some hask' =>
      rw [hask] at hask'
      cases (Prod.mk.inj hask').1
  | some hask _ ih =>
    cases h' with
    | none hask' =>
      rw [hask] at hask'
      cases (Prod.mk.inj hask').1
    | some hask' rest' =>
      rw [hask] at hask'
      obtain ⟨hevent, rfl⟩ := Prod.mk.inj hask'
      obtain ⟨rfl, rfl⟩ := ih rest'
      exact ⟨by rw [Option.some.inj hevent], rfl⟩

end Drains
end Handheld
