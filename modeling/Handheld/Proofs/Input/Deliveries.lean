import Handheld.Proofs.Input.Polling
import Handheld.Proofs.Input.Replay

/-!
# What a replay delivers

A replay is set to one frame after another, forwards or backwards, and asked each time
until nothing is due.  What it delivers can be read off the script: frame by frame, and
within a frame in the order in which the entries are written down.

There are four groups.

* Scripts.  `eventsAt` are the events of one frame.  The sort leaves them in their
  order, `filter_scheduled`.
* Events in order are those of one frame after another, `InOrder.filter_eq_flatMap`.
* Replays.  `Plays` says what a replay delivers at some frames, and `plays_iff` that
  this is `dueEach`.
* The result, `replayed_once_in_order`.
-/

namespace Handheld

/-! ## Scripts -/

/-- The events of one frame, in the order in which they are written down.  An entry
without a known button has none. -/
def eventsAt (entries : List ScriptEntry) (frame : Nat) : List ButtonEvent :=
  (entries.filter (·.frame = frame)).filterMap (·.event?)

/-- Picking entries by their frames and picking their events is the same. -/
theorem map_filter_dated (entries : List ScriptEntry) (p : Nat → Bool) :
    ((entries.filterMap (·.dated?)).filter fun e => p e.1).map Prod.snd =
      (entries.filter fun entry => p entry.frame).filterMap (·.event?) := by
  rw [List.filter_filterMap, List.map_filterMap, List.filterMap_filter]
  refine List.filterMap_congr fun entry _ => ?_
  unfold ScriptEntry.dated?
  cases entry.event? with
  | none => cases p entry.frame <;> rfl
  | some event => cases hp : p entry.frame <;> simp [Option.filter, hp]

theorem perm_scheduled (entries : List ScriptEntry) :
    (scheduled entries).Perm (entries.filterMap (·.dated?)) :=
  List.mergeSort_perm _ _

/-- The events of one frame stay in their order when the script is sorted. -/
theorem filter_scheduled (entries : List ScriptEntry) (frame : Nat) :
    (scheduled entries).filter (·.1 = frame) =
      (entries.filterMap (·.dated?)).filter (·.1 = frame) := by
  have hsorted : ((entries.filterMap (·.dated?)).filter (·.1 = frame)).Pairwise
      fun x y => decide (x.1 ≤ y.1) = true := by
    refine List.pairwise_of_forall_mem_list fun x hx y hy => ?_
    have hxframe := of_decide_eq_true (List.mem_filter.1 hx).2
    have hyframe := of_decide_eq_true (List.mem_filter.1 hy).2
    exact decide_eq_true (by omega)
  have hsub := List.sublist_mergeSort frame_le_trans frame_le_total hsorted List.filter_sublist
  have hkept := hsub.filter (·.1 = frame)
  simp only [List.filter_filter, Bool.and_self] at hkept
  exact (hkept.eq_of_length ((perm_scheduled entries).filter _).length_eq.symm).symm

/-! ## Events in order -/

namespace InOrder

variable {events : List (Nat × ButtonEvent)}

/-- Of events in order, those before a frame come first. -/
theorem filter_append (h : InOrder events) (q : Nat × ButtonEvent → Bool) (n : Nat) :
    events.filter q =
      (events.filter fun e => q e && decide (e.1 < n)) ++
        events.filter fun e => q e && decide (n ≤ e.1) := by
  induction events with
  | nil => rfl
  | cons e events ih =>
    obtain ⟨hfirst, hrest⟩ := List.pairwise_cons.1 h
    by_cases hbefore : e.1 < n
    · have hnot : ¬ n ≤ e.1 := Nat.not_le.2 hbefore
      simp only [List.filter_cons, hbefore, hnot, decide_true, decide_false, Bool.and_true,
        Bool.and_false, Bool.false_eq_true, if_false, ih hrest]
      cases q e <;> rfl
    · -- behind an event that is not before the frame none is
      have hnone : (e :: events).filter (fun e => q e && decide (e.1 < n)) = [] := by
        rw [List.filter_eq_nil_iff]
        intro other hother
        rcases List.mem_cons.1 hother with rfl | hmem
        · simp [hbefore]
        · have hle := hfirst other hmem
          have hlate : ¬ other.1 < n := by omega
          simp [hlate]
      have hall : ∀ other ∈ e :: events, (q other && decide (n ≤ other.1)) = q other := by
        intro other hother
        have hle : n ≤ other.1 := by
          rcases List.mem_cons.1 hother with rfl | hmem
          · omega
          · have hle := hfirst other hmem
            omega
        rw [decide_eq_true hle, Bool.and_true]
      rw [hnone, List.nil_append, List.filter_congr hall]

/-- Events in order are those of one frame after another. -/
theorem filter_eq_flatMap (h : InOrder events) (p : Nat → Bool) (n : Nat) :
    (events.filter fun e => p e.1 && decide (e.1 < n)) =
      ((List.range n).filter p).flatMap fun frame => events.filter (·.1 = frame) := by
  induction n with
  | zero =>
    rw [List.range_zero, List.filter_nil, List.flatMap_nil, List.filter_eq_nil_iff]
    simp
  | succ n ih =>
    have hbefore : ∀ e ∈ events,
        (p e.1 && decide (e.1 < n + 1) && decide (e.1 < n)) = (p e.1 && decide (e.1 < n)) := by
      intro e _
      by_cases hlt : e.1 < n
      · simp [hlt, Nat.lt_succ_of_lt hlt]
      · simp [hlt]
    have hlast : ∀ e ∈ events,
        (p e.1 && decide (e.1 < n + 1) && decide (n ≤ e.1)) = (p n && decide (e.1 = n)) := by
      intro e _
      by_cases heq : e.1 = n
      · simp [heq]
      · have hnot : ¬ (e.1 < n + 1 ∧ n ≤ e.1) := by omega
        by_cases hlt : e.1 < n + 1 <;> simp_all
    rw [h.filter_append _ n, List.filter_congr hbefore, List.filter_congr hlast, ih,
      List.range_succ, List.filter_append, List.flatMap_append]
    cases hp : p n <;> simp [hp]

end InOrder

/-- The events of some of the frames before one, frame by frame. -/
theorem map_filter_scheduled (entries : List ScriptEntry) (p : Nat → Bool) (n : Nat) :
    ((scheduled entries).filter fun e => p e.1 && decide (e.1 < n)).map Prod.snd =
      ((List.range n).filter p).flatMap (eventsAt entries) := by
  rw [(inOrder_scheduled entries).filter_eq_flatMap, List.map_flatMap]
  refine List.flatMap_congr fun frame _ => ?_
  rw [filter_scheduled]
  exact map_filter_dated entries (decide <| · = frame)

/-- The events that are due for the first time at a frame, frame by frame. -/
theorem map_dueFirst (entries : List ScriptEntry) (earlier : List Nat) (frame : Nat) :
    (dueFirst (scheduled entries) earlier frame).map Prod.snd =
      ((List.range (frame + 1)).filter fun f => earlier.all (· < f)).flatMap
        (eventsAt entries) := by
  have hdue : dueFirst (scheduled entries) earlier frame =
      (scheduled entries).filter fun e => earlier.all (· < e.1) && decide (e.1 < frame + 1) := by
    rw [dueFirst, later, List.filter_filter]
    refine List.filter_congr fun e _ => ?_
    simp only [Bool.and_comm, Nat.lt_succ_iff]
  rw [hdue]
  exact map_filter_scheduled entries (fun f => earlier.all (· < f)) _

/-! ## Replays -/

/-- What is due at each of some frames, and was not due at an earlier one. -/
def dueEach (events : List (Nat × ButtonEvent)) :
    (earlier frames : List Nat) → List (List ButtonEvent)
  | _, [] => []
  | earlier, frame :: frames =>
    (dueFirst events earlier frame).map Prod.snd :: dueEach events (earlier ++ [frame]) frames

section DueEach

variable {events : List (Nat × ButtonEvent)}

theorem length_dueEach (earlier frames : List Nat) :
    (dueEach events earlier frames).length = frames.length := by
  induction frames generalizing earlier with
  | nil => rfl
  | cons frame frames ih => rw [dueEach, List.length_cons, List.length_cons, ih]

theorem take_dueEach (earlier frames : List Nat) (j : Nat) :
    (dueEach events earlier frames).take j = dueEach events earlier (frames.take j) := by
  induction frames generalizing earlier j with
  | nil => cases j <;> rfl
  | cons frame frames ih =>
    cases j with
    | zero => rfl
    | succ j => rw [dueEach, List.take_succ_cons, List.take_succ_cons, dueEach, ih]

theorem getElem?_dueEach (earlier : List Nat) {frames : List Nat} {j frame : Nat}
    (h : frames[j]? = some frame) :
    (dueEach events earlier frames)[j]? =
      some ((dueFirst events (earlier ++ frames.take j) frame).map Prod.snd) := by
  induction frames generalizing earlier j with
  | nil => cases h
  | cons first frames ih =>
    cases j with
    | zero =>
      obtain rfl := Option.some.inj h
      rw [List.take_zero, List.append_nil]
      rfl
    | succ j =>
      rw [dueEach, List.getElem?_cons_succ, ih _ h, List.take_succ_cons, List.append_assoc]
      rfl

/-- Together, what is due at some frames is what is due at one of them and was not due
before. -/
theorem flatten_dueEach (h : InOrder events) (earlier frames : List Nat) :
    (dueEach events earlier frames).flatten =
      (events.filter fun e => earlier.all (· < e.1) && !frames.all (· < e.1)).map Prod.snd := by
  induction frames generalizing earlier with
  | nil => simp [dueEach]
  | cons frame frames ih =>
    have hfirst : ∀ e ∈ events,
        (earlier.all (· < e.1) && !(frame :: frames).all (· < e.1) && decide (e.1 < frame + 1)) =
          (decide (e.1 ≤ frame) && earlier.all (· < e.1)) := by
      intro e _
      by_cases hdue : e.1 ≤ frame
      · have hnot : ¬ frame < e.1 := Nat.not_lt.2 hdue
        simp [hdue, hnot, Nat.lt_succ_of_le hdue]
      · have hnot : ¬ e.1 < frame + 1 := by omega
        simp [hdue, hnot]
    have hrest : ∀ e ∈ events,
        (earlier.all (· < e.1) && !(frame :: frames).all (· < e.1) &&
            decide (frame + 1 ≤ e.1)) =
          ((earlier ++ [frame]).all (· < e.1) && !frames.all (· < e.1)) := by
      intro e _
      by_cases hlate : frame < e.1
      · simp [hlate, Nat.succ_le_of_lt hlate]
      · have hnot : ¬ frame + 1 ≤ e.1 := by omega
        simp [hlate, hnot]
    have hsplit := h.filter_append
      (fun e => earlier.all (· < e.1) && !(frame :: frames).all (· < e.1)) (frame + 1)
    rw [List.filter_congr hfirst, List.filter_congr hrest] at hsplit
    rw [dueEach, List.flatten_cons, ih, hsplit, List.map_append, dueFirst, later,
      List.filter_filter]

end DueEach

theorem dueEach_congr {entries other : List ScriptEntry}
    (h : ∀ frame, eventsAt other frame = eventsAt entries frame) (earlier frames : List Nat) :
    dueEach (scheduled other) earlier frames = dueEach (scheduled entries) earlier frames := by
  induction frames generalizing earlier with
  | nil => rfl
  | cons frame frames ih =>
    rw [dueEach, dueEach, map_dueFirst, map_dueFirst, ih,
      List.flatMap_congr fun f _ => h f]

namespace Replay

/-- Asks a replay for one event. -/
def poll (r : Replay) : Option ButtonEvent × Replay :=
  match r.next? with
  | some (event, rest) => (some event, rest)
  | none => (none, r)

/-- To drain a replay is to ask it until nothing is due. -/
theorem drains_drain (r : Replay) : Drains poll r r.drain.1 r.drain.2 := by
  obtain ⟨pending, frame⟩ := r
  induction pending with
  | nil => exact .none rfl
  | cons e pending ih =>
    by_cases hdue : e.1 ≤ frame
    · have hdrain : drain ⟨e :: pending, frame⟩ =
          (e.2 :: (drain ⟨pending, frame⟩).1, (drain ⟨pending, frame⟩).2) := by
        simp [drain, takeDue, hdue]
      rw [hdrain]
      exact .some (by simp [poll, next?, hdue]) ih
    · have hdrain : drain ⟨e :: pending, frame⟩ = ([], ⟨e :: pending, frame⟩) := by
        simp [drain, takeDue, hdue]
      rw [hdrain]
      exact .none (by simp [poll, next?, hdue])

/-- What a replay delivers when it is set to one frame after another and asked each
time until nothing is due. -/
inductive Plays : Replay → List Nat → List (List ButtonEvent) → Prop where
  | nil (r : Replay) : Plays r [] []
  | cons {r rest : Replay} {frame : Nat} {frames : List Nat} {events : List ButtonEvent}
      {deliveries : List (List ButtonEvent)} (asked : Drains poll (r.goTo frame) events rest)
      (others : Plays rest frames deliveries) : Plays r (frame :: frames) (events :: deliveries)

/-- A replay delivers what is due at each of the frames. -/
theorem plays_later_iff {events : List (Nat × ButtonEvent)} (h : InOrder events)
    (earlier : List Nat) (last : Nat) (frames : List Nat) (deliveries : List (List ButtonEvent)) :
    Plays { pending := later events earlier, frame := last } frames deliveries ↔
      deliveries = dueEach events earlier frames := by
  induction frames generalizing earlier last deliveries with
  | nil =>
    constructor
    · rintro ⟨⟩
      rfl
    · rintro rfl
      exact .nil _
  | cons frame frames ih =>
    have hdrain := drains_drain { pending := later events earlier, frame }
    rw [drain_later h] at hdrain
    constructor
    · rintro (_ | ⟨hasked, hothers⟩)
      obtain ⟨hevents, rfl⟩ := hasked.unique hdrain
      rw [dueEach, hevents, (ih _ _ _).1 hothers]
    · rintro rfl
      exact .cons hdrain ((ih _ _ _).2 rfl)

theorem plays_iff (entries : List ScriptEntry) (frames : List Nat)
    (deliveries : List (List ButtonEvent)) :
    (ofEntries entries).Plays frames deliveries ↔
      deliveries = dueEach (scheduled entries) [] frames := by
  have hstart : ofEntries entries = { pending := later (scheduled entries) [], frame := 0 } := by
    rw [later_nil]
    rfl
  rw [hstart, plays_later_iff (inOrder_scheduled entries)]

/-- Scripts with the same events at every frame are played alike. -/
theorem plays_congr {entries other : List ScriptEntry}
    (h : ∀ frame, eventsAt other frame = eventsAt entries frame) (frames : List Nat)
    (deliveries : List (List ButtonEvent)) :
    (ofEntries other).Plays frames deliveries ↔ (ofEntries entries).Plays frames deliveries := by
  rw [plays_iff, plays_iff, dueEach_congr h]

end Replay

/-! ## The result -/

/-- What is delivered at some frames, one after another, as the script tells it. -/
structure ReplayedOnce (entries : List ScriptEntry) (frames : List Nat)
    (deliveries : List (List ButtonEvent)) : Prop where
  length : deliveries.length = frames.length
  /-- At each frame come the events that are due then and were not due at an earlier
  one, frame by frame. -/
  each : ∀ j frame, frames[j]? = some frame →
    deliveries[j]? = some (((List.range (frame + 1)).filter fun f =>
      (frames.take j).all (· < f)).flatMap (eventsAt entries))
  /-- So far there came all events up to the latest of the frames, frame by frame. -/
  inOrder : ∀ j latest, (frames.take j).max? = some latest →
    (deliveries.take j).flatten = (List.range (latest + 1)).flatMap (eventsAt entries)
  /-- Each of them came once. -/
  once : ∀ j latest, (frames.take j).max? = some latest →
    (deliveries.take j).flatten.Perm
      ((entries.filter (·.frame ≤ latest)).filterMap (·.event?))

theorem filter_of_max {events : List (Nat × ButtonEvent)} {frames : List Nat} {latest : Nat}
    (h : frames.max? = some latest) :
    (events.filter fun e => ([] : List Nat).all (· < e.1) && !frames.all (· < e.1)) =
      events.filter fun e => decide (e.1 ≤ latest) := by
  obtain ⟨hmem, hle⟩ := List.max?_eq_some_iff.1 h
  refine List.filter_congr fun e _ => ?_
  by_cases hdue : e.1 ≤ latest
  · have hnot : frames.all (· < e.1) = false :=
      List.all_eq_false.2 ⟨latest, hmem, by simpa using hdue⟩
    rw [hnot, decide_eq_true hdue]
    rfl
  · have hall : frames.all (· < e.1) = true := by
      refine List.all_eq_true.2 fun f hf => decide_eq_true ?_
      have hlatest := hle f hf
      omega
    rw [hall, decide_eq_false hdue]
    rfl

theorem replayedOnce_dueEach (entries : List ScriptEntry) (frames : List Nat) :
    ReplayedOnce entries frames (dueEach (scheduled entries) [] frames) where
  length := length_dueEach [] frames
  each := by
    intro j frame hframe
    rw [getElem?_dueEach [] hframe, List.nil_append, map_dueFirst]
  inOrder := by
    intro j latest hlatest
    have hall := map_filter_scheduled entries (fun _ => true) (latest + 1)
    simp only [Bool.true_and, Nat.lt_succ_iff, List.filter_true] at hall
    rw [take_dueEach, flatten_dueEach (inOrder_scheduled entries), filter_of_max hlatest, hall]
  once := by
    intro j latest hlatest
    rw [take_dueEach, flatten_dueEach (inOrder_scheduled entries), filter_of_max hlatest,
      ← map_filter_dated entries (decide <| · ≤ latest)]
    exact ((perm_scheduled entries).filter _).map _

/-- Entries without a known button have no events. -/
theorem eventsAt_known (entries : List ScriptEntry) (frame : Nat) :
    eventsAt (entries.filter (·.event?.isSome)) frame = eventsAt entries frame := by
  unfold eventsAt
  rw [List.filter_filter, List.filterMap_filter, List.filterMap_filter]
  refine List.filterMap_congr fun entry _ => ?_
  cases entry.event? with
  | none => simp
  | some event => simp

/-- There is at most one entry at a frame if no two entries have the same frame. -/
theorem eq_of_perm {xs ys : List ScriptEntry} {frame : Nat} (h : xs.Perm ys)
    (hdiffer : ys.Pairwise (·.frame ≠ ·.frame))
    (hsame : ∀ entry ∈ ys, entry.frame = frame) : xs = ys := by
  match ys with
  | [] => exact h.eq_nil
  | [entry] => exact h.eq_singleton
  | x :: y :: rest =>
    have hne : x.frame ≠ y.frame := (List.pairwise_cons.1 hdiffer).1 y List.mem_cons_self
    have hx : x.frame = frame := hsame x List.mem_cons_self
    have hy : y.frame = frame := hsame y (List.mem_cons_of_mem x List.mem_cons_self)
    exact absurd (hx.trans hy.symm) hne

theorem filter_eq_of_perm {entries other : List ScriptEntry} (h : other.Perm entries)
    (hdiffer : entries.Pairwise (·.frame ≠ ·.frame)) (frame : Nat) :
    other.filter (·.frame = frame) = entries.filter (·.frame = frame) :=
  eq_of_perm (h.filter _) (hdiffer.filter _) fun _ hentry =>
    of_decide_eq_true (List.mem_filter.1 hentry).2

/-- A script is replayed once and in order: whenever a replay of it is set to one frame
after another, forwards or backwards, and asked each time until nothing is due, it
delivers all events up to the latest frame, frame by frame and as they are written down,
each at the first frame that reaches it.  Entries without a known button do not matter,
nor does the order of entries of different frames. -/
theorem replayed_once_in_order (entries : List ScriptEntry) (frames : List Nat) :
    (∃ deliveries, (Replay.ofEntries entries).Plays frames deliveries) ∧
    (∀ deliveries, (Replay.ofEntries entries).Plays frames deliveries →
      ReplayedOnce entries frames deliveries) ∧
    (∀ deliveries,
      (Replay.ofEntries (entries.filter (·.event?.isSome))).Plays frames deliveries ↔
        (Replay.ofEntries entries).Plays frames deliveries) ∧
    (∀ other : List ScriptEntry,
      (∀ frame, other.filter (·.frame = frame) = entries.filter (·.frame = frame)) ∨
        other.Perm entries ∧ entries.Pairwise (·.frame ≠ ·.frame) →
      ∀ deliveries, (Replay.ofEntries other).Plays frames deliveries ↔
        (Replay.ofEntries entries).Plays frames deliveries) := by
  refine ⟨⟨_, (Replay.plays_iff entries frames _).2 rfl⟩, ?_, ?_, ?_⟩
  · intro deliveries hplays
    rw [(Replay.plays_iff entries frames _).1 hplays]
    exact replayedOnce_dueEach entries frames
  · exact Replay.plays_congr (eventsAt_known entries) frames
  · intro other hother
    have hsame : ∀ frame,
        other.filter (·.frame = frame) = entries.filter (·.frame = frame) := by
      rcases hother with hsame | ⟨hperm, hframes⟩
      · exact hsame
      · exact filter_eq_of_perm hperm hframes
    refine Replay.plays_congr (fun frame => ?_) frames
    rw [eventsAt, eventsAt, hsame]

/-- Two buttons are pressed at a frame and one is released at a later one.  Writing the
release down last changes nothing, nor does going back to an earlier frame. -/
theorem replayed_once_of_reordered :
    (Replay.ofEntries [⟨5, "a", false⟩, ⟨2, "A", true⟩,
          ⟨3, "turbo", true⟩, ⟨2, "b", true⟩]).Plays
        [2, 1, 9] [[⟨.a, true⟩, ⟨.b, true⟩], [], [⟨.a, false⟩]] ∧
      (Replay.ofEntries [⟨2, "A", true⟩, ⟨3, "turbo", true⟩,
          ⟨2, "b", true⟩, ⟨5, "a", false⟩]).Plays
        [2, 1, 9] [[⟨.a, true⟩, ⟨.b, true⟩], [], [⟨.a, false⟩]] := by
  obtain ⟨⟨deliveries, hplays⟩, honce, -, hreordered⟩ := replayed_once_in_order
    [⟨5, "a", false⟩, ⟨2, "A", true⟩, ⟨3, "turbo", true⟩, ⟨2, "b", true⟩] [2, 1, 9]
  have hdeliveries : deliveries = [[⟨.a, true⟩, ⟨.b, true⟩], [], [⟨.a, false⟩]] := by
    obtain ⟨hlength, heach, -, -⟩ := honce deliveries hplays
    refine List.ext_getElem? fun j => ?_
    match j with
    | 0 => rw [heach 0 2 rfl]; rfl
    | 1 => rw [heach 1 1 rfl]; rfl
    | 2 => rw [heach 2 9 rfl]; rfl
    | j + 3 => exact List.getElem?_eq_none (hlength ▸ Nat.le_add_left 3 j)
  subst hdeliveries
  refine ⟨hplays, (hreordered _ (.inl fun frame => ?_) _).2 hplays⟩
  -- the release alone is moved past entries, and it is alone at its frame
  by_cases hmoved : frame = 5
  · subst hmoved
    decide
  · have hne : ¬ 5 = frame := Ne.symm hmoved
    simp [List.filter_cons, hne]

end Handheld
