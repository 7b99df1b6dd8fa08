import Mathlib.Data.List.Sort
import Handheld.Input.Replay

/-!
# Replayed events

A replay keeps its events in the order of their frames.  When a frame is reached,
it hands out those that are due and were not due at a frame reached before, and
keeps those that are due later than all of them.

* `scheduled` are the events of a script in the order in which they are replayed.
* `later` and `dueFirst` are the events that are still to come, and those that are
  due for the first time, when some frames have been reached.
* `drain_later` says that a replay hands out the latter and keeps the former.
-/

namespace Handheld

/-- The events of a script, each with its frame, in the order in which they are
replayed. -/
def scheduled (entries : List ScriptEntry) : List (Nat × ButtonEvent) :=
  (entries.filterMap (·.dated?)).mergeSort fun x y => x.1 ≤ y.1

/-- The events in the order of their frames. -/
def InOrder (events : List (Nat × ButtonEvent)) : Prop :=
  events.Pairwise fun x y => x.1 ≤ y.1

theorem frame_le_trans (x y z : Nat × ButtonEvent) (hxy : decide (x.1 ≤ y.1) = true)
    (hyz : decide (y.1 ≤ z.1) = true) : decide (x.1 ≤ z.1) = true :=
  decide_eq_true (Nat.le_trans (of_decide_eq_true hxy) (of_decide_eq_true hyz))

theorem frame_le_total (x y : Nat × ButtonEvent) :
    (decide (x.1 ≤ y.1) || decide (y.1 ≤ x.1)) = true := by
  simpa using Nat.le_total x.1 y.1

theorem inOrder_scheduled (entries : List ScriptEntry) : InOrder (scheduled entries) :=
  (List.pairwise_mergeSort frame_le_trans frame_le_total _).imp of_decide_eq_true

theorem mem_scheduled {entries : List ScriptEntry} {e : Nat × ButtonEvent} :
    e ∈ scheduled entries ↔ ∃ entry ∈ entries, entry.dated? = some e := by
  rw [scheduled, List.mem_mergeSort, List.mem_filterMap]

/-- The events that are due later than all these frames. -/
def later (events : List (Nat × ButtonEvent)) (frames : List Nat) : List (Nat × ButtonEvent) :=
  events.filter fun e => frames.all (· < e.1)

/-- The events that are due at a frame, and were not due at the earlier ones. -/
def dueFirst (events : List (Nat × ButtonEvent)) (earlier : List Nat) (frame : Nat) :
    List (Nat × ButtonEvent) :=
  (later events earlier).filter fun e => e.1 ≤ frame

theorem later_nil (events : List (Nat × ButtonEvent)) : later events [] = events :=
  List.filter_eq_self.2 fun _ _ => rfl

theorem later_concat (events : List (Nat × ButtonEvent)) (earlier : List Nat) (frame : Nat) :
    later events (earlier ++ [frame]) = (later events earlier).filter (frame < ·.1) := by
  unfold later
  rw [List.filter_filter]
  refine List.filter_congr fun e _ => ?_
  rw [List.all_append, List.all_cons, List.all_nil, Bool.and_true, Bool.and_comm]

theorem mem_dueFirst {events : List (Nat × ButtonEvent)} {earlier : List Nat} {frame : Nat}
    {e : Nat × ButtonEvent} :
    e ∈ dueFirst events earlier frame ↔
      e ∈ events ∧ (∀ f ∈ earlier, f < e.1) ∧ e.1 ≤ frame := by
  simp only [dueFirst, later, List.mem_filter, List.all_eq_true, decide_eq_true_eq, and_assoc]

namespace Replay

/-- What is taken from events in order are those that are due. -/
theorem takeDue_of_inOrder {events : List (Nat × ButtonEvent)} (h : InOrder events) (frame : Nat) :
    takeDue frame events =
      ((events.filter (·.1 ≤ frame)).map Prod.snd, events.filter (frame < ·.1)) := by
  induction events with
  | nil => rfl
  | cons e events ih =>
    obtain ⟨hfirst, hrest⟩ := List.pairwise_cons.1 h
    by_cases hdue : e.1 ≤ frame
    · have hnot : ¬ frame < e.1 := Nat.not_lt.2 hdue
      simp only [takeDue, ih hrest, List.filter_cons, hdue, hnot, decide_true,
        decide_false, if_true, Bool.false_eq_true, if_false, List.map_cons]
    · -- behind an event that is not due none is
      have hnone : (e :: events).filter (·.1 ≤ frame) = [] := by
        rw [List.filter_eq_nil_iff]
        intro other hother
        rcases List.mem_cons.1 hother with rfl | hmem
        · simpa using hdue
        · have hle := hfirst other hmem
          simp only [decide_eq_true_eq]
          omega
      have hall : (e :: events).filter (frame < ·.1) = e :: events := by
        rw [List.filter_eq_self]
        intro other hother
        rcases List.mem_cons.1 hother with rfl | hmem
        · simpa using hdue
        · have hle := hfirst other hmem
          simp only [decide_eq_true_eq]
          omega
      rw [hnone, hall, takeDue, if_neg hdue]
      rfl

/-- When a frame is reached, a replay hands out the events that are due for the first
time, and keeps those that are due later. -/
theorem drain_later {events : List (Nat × ButtonEvent)} (h : InOrder events)
    (earlier : List Nat) (frame : Nat) :
    drain { pending := later events earlier, frame } =
      ((dueFirst events earlier frame).map Prod.snd,
        { pending := later events (earlier ++ [frame]), frame }) := by
  have hlater : InOrder (later events earlier) := List.Pairwise.filter _ h
  rw [drain, takeDue_of_inOrder hlater, later_concat]
  rfl

/-- Until the next frame is reached, there is nothing more to hand out. -/
theorem drain_dry {events : List (Nat × ButtonEvent)} (h : InOrder events)
    (earlier : List Nat) (frame : Nat) :
    drain { pending := later events (earlier ++ [frame]), frame } =
      ([], { pending := later events (earlier ++ [frame]), frame }) := by
  have hlater : InOrder (later events (earlier ++ [frame])) := List.Pairwise.filter _ h
  have hnone : dueFirst events (earlier ++ [frame]) frame = [] := by
    rw [List.eq_nil_iff_forall_not_mem]
    intro e he
    obtain ⟨-, hearlier, hle⟩ := mem_dueFirst.1 he
    have hlt := hearlier frame (by simp)
    omega
  have hstill :
      later events (earlier ++ [frame] ++ [frame]) = later events (earlier ++ [frame]) := by
    rw [later_concat, List.filter_eq_self]
    intro e he
    rw [later_concat, List.mem_filter] at he
    exact he.2
  rw [drain_later h, hnone, hstill]
  rfl

end Replay
end Handheld
