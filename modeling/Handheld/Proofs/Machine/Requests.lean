import Handheld.Proofs.Bus.Requests
import Handheld.Proofs.Machine.Events

/-!
# Requests over a run

A request stays until its interrupt is dispatched, or the program writes the
request register.  So no request is lost, and none is served twice: as long as
the register is not written, an interrupt is dispatched once for each time that
its request appears.

* What events do to requests.  `requested_undergo` is the step and
  `requested_undergoAll` follows a request through a list of events.
* Dispatches.  `ServesRequests` says that only requested interrupts are
  dispatched; `servesRequests_runEvents` says it of every run.
* The count.  `balance_undergo` balances what appears and what is dispatched over
  one event, and `balance_undergoAll` over a list of them.
* The result, `requests_of_run`.
-/

namespace Handheld

/-! ## What events do to requests -/

namespace Bus

/-- Whether an interrupt is requested. -/
def requested (b : Bus) (i : Interrupt) : Bool :=
  i.isSet b.requests

/-- An event beside the request register leaves a request, unless it is the
dispatch of that very interrupt. -/
theorem requested_undergo {b : Bus} {i : Interrupt} {e : BusEvent}
    (hdispatch : e ≠ .dispatch i) (hwrite : ∀ value, e ≠ .write 0xFF0F value)
    (h : b.requested i = true) : (b.undergo e).requested i = true := by
  cases e with
  | write address value =>
    have haddress : address ≠ 0xFF0F := by
      rintro rfl
      exact hwrite value rfl
    exact (b.raises_write value haddress).isSet h
  | runTimer cycles => exact (b.raises_advanceTimer cycles).isSet h
  | dispatch other =>
    have hother : i ≠ other := by
      rintro rfl
      exact hdispatch rfl
    show i.isSet (other.clear b.requests) = true
    rw [i.isSet_clear, bne_iff_ne.2 hother, Bool.and_true]
    exact h
  | runScreen cycles => exact (b.raises_advanceScreen cycles).isSet h

theorem requested_undergoAll {b : Bus} {i : Interrupt} {events : List BusEvent}
    (hevents : ∀ e ∈ events, e ≠ .dispatch i ∧ ∀ value, e ≠ .write 0xFF0F value)
    (h : b.requested i = true) : (b.undergoAll events).requested i = true := by
  induction events generalizing b with
  | nil => exact h
  | cons e events ih =>
    obtain ⟨hdispatch, hwrite⟩ := hevents e List.mem_cons_self
    exact ih (fun e he => hevents e (List.mem_cons_of_mem _ he))
      (requested_undergo hdispatch hwrite h)

theorem not_requested_dispatch (b : Bus) (i : Interrupt) :
    (b.undergo (.dispatch i)).requested i = false := by
  show i.isSet (i.clear b.requests) = false
  rw [i.isSet_clear, bne_self_eq_false, Bool.and_false]

/-! ## Dispatches -/

/-- Only interrupts that are requested are dispatched. -/
def ServesRequests : Bus → List BusEvent → Prop
  | _, [] => True
  | b, e :: events =>
    (∀ i, e = .dispatch i → b.requested i = true) ∧ (b.undergo e).ServesRequests events

theorem servesRequests_append {b : Bus} {events more : List BusEvent} :
    b.ServesRequests (events ++ more) ↔
      b.ServesRequests events ∧ (b.undergoAll events).ServesRequests more := by
  induction events generalizing b with
  | nil => simp [ServesRequests]
  | cons e events ih => simp only [List.cons_append, ServesRequests, ih, undergoAll_cons, and_assoc]

theorem servesRequests_writeEvents (b : Bus) (writes : List (UInt16 × UInt8)) :
    b.ServesRequests (writeEvents writes) := by
  induction writes generalizing b with
  | nil => trivial
  | cons w writes ih => exact ⟨nofun, ih _⟩

theorem ServesRequests.requested {b : Bus} {events before after : List BusEvent} {i : Interrupt}
    (h : b.ServesRequests events) (hsplit : events = before ++ .dispatch i :: after) :
    (b.undergoAll before).requested i = true := by
  rw [hsplit, servesRequests_append] at h
  exact h.2.1 i rfl

end Bus

namespace Machine

theorem requested_of_pending {m : Machine} {i : Interrupt} (h : m.pending = some i) :
    m.bus.requested i = true := by
  unfold pending at h
  split at h
  · exact Interrupt.isSet_of_nextPending h
  · cases h

theorem servesRequests_serviceEvents (m : Machine) : m.bus.ServesRequests m.serviceEvents := by
  unfold serviceEvents
  cases hpending : m.pending with
  | none => trivial
  | some i =>
    simp only
    split
    · -- the request is withdrawn before the stack is written, so that a write to
      -- the request register cannot come between
      have hrequested := requested_of_pending hpending
      refine ⟨?_, ?_⟩
      · rintro _ ⟨⟩
        exact hrequested
      · rw [List.append_eq, Bus.servesRequests_append]
        exact ⟨Bus.servesRequests_writeEvents _ _, nofun, trivial⟩
    · trivial

/-- A step dispatches an interrupt only if it is requested when the step comes to
it. -/
theorem servesRequests_stepEvents (m : Machine) : m.bus.ServesRequests m.stepEvents := by
  have hserved := servesRequests_serviceEvents (m.executeOrIdle.1.runTimer m.executeOrIdle.2)
  rw [runTimer_executeOrIdle_bus] at hserved
  unfold stepEvents
  rw [Bus.servesRequests_append, Bus.servesRequests_append]
  exact ⟨⟨Bus.servesRequests_writeEvents _ _, nofun, hserved⟩, nofun, trivial⟩

theorem servesRequests_runEvents (n : Nat) (m : Machine) :
    m.bus.ServesRequests (runEvents n m) := by
  induction n generalizing m with
  | zero => trivial
  | succ n ih =>
    rw [runEvents, Bus.servesRequests_append, ← step_bus]
    exact ⟨m.servesRequests_stepEvents, ih m.step.1⟩

end Machine

/-! ## The count -/

namespace Bus

/-- How many of the events find an interrupt not requested and leave it
requested.  Time only sets requests, so that a request can appear but once in the
course of an event. -/
def rises (i : Interrupt) : Bus → List BusEvent → Nat
  | _, [] => 0
  | b, e :: events =>
    (!b.requested i && (b.undergo e).requested i).toNat + rises i (b.undergo e) events

/-- Over one event, a request that is dispatched or left was there before or has
appeared. -/
theorem balance_undergo {b : Bus} {e : BusEvent} (i : Interrupt)
    (hserves : ∀ i, e = .dispatch i → b.requested i = true)
    (hwrite : ∀ value, e ≠ .write 0xFF0F value) :
    (e == .dispatch i).toNat + ((b.undergo e).requested i).toNat =
      (!b.requested i && (b.undergo e).requested i).toNat + (b.requested i).toNat := by
  by_cases hdispatch : e = .dispatch i
  · have hbefore := hserves i hdispatch
    have hafter : (b.undergo e).requested i = false := by
      rw [hdispatch]
      exact b.not_requested_dispatch i
    rw [hbefore, hafter, hdispatch, beq_self_eq_true]
    rfl
  · have hnone : (e == .dispatch i) = false := beq_false_of_ne hdispatch
    rw [hnone]
    cases hbefore : b.requested i with
    | false => simp
    | true =>
      rw [requested_undergo hdispatch hwrite hbefore]
      rfl

theorem balance_undergoAll {b : Bus} {events : List BusEvent} (i : Interrupt)
    (hserves : b.ServesRequests events)
    (hwrite : ∀ value, BusEvent.write 0xFF0F value ∉ events) :
    events.count (.dispatch i) + ((b.undergoAll events).requested i).toNat =
      b.rises i events + (b.requested i).toNat := by
  induction events generalizing b with
  | nil => rfl
  | cons e events ih =>
    obtain ⟨hnow, hlater⟩ := hserves
    have hfirst := balance_undergo i hnow fun value he => hwrite value (he ▸ List.mem_cons_self)
    have hrest := ih hlater fun value he => hwrite value (List.mem_cons_of_mem _ he)
    have hcount : (e :: events).count (.dispatch i) =
        events.count (.dispatch i) + (e == .dispatch i).toNat := by
      rw [List.count_cons]
      cases e == .dispatch i <;> rfl
    rw [hcount, undergoAll_cons, rises]
    omega

end Bus

namespace Machine

/-- No request is lost and none is served twice.  The bus after a run is the bus
after its events.  A request stays until the interrupt is dispatched or the
request register is written, every dispatch withdraws a request that was there,
and without a write to the register there are no more dispatches than requests
that appeared, not counting one that was there at the start. -/
theorem requests_of_run (n : Nat) (m : Machine) (i : Interrupt) :
    let events := runEvents n m
    (steps n m).bus = m.bus.undergoAll events ∧
    (∀ before during after, events = before ++ during ++ after →
      (m.bus.undergoAll before).requested i = true →
      (∀ e ∈ during, e ≠ .dispatch i ∧ ∀ value, e ≠ .write 0xFF0F value) →
      (m.bus.undergoAll (before ++ during)).requested i = true) ∧
    (∀ before after, events = before ++ .dispatch i :: after →
      (m.bus.undergoAll before).requested i = true ∧
      (m.bus.undergoAll (before ++ [.dispatch i])).requested i = false) ∧
    ((∀ value, BusEvent.write 0xFF0F value ∉ events) →
      events.count (.dispatch i) ≤ m.bus.rises i events + (m.bus.requested i).toNat) := by
  intro events
  have hserves : m.bus.ServesRequests events := servesRequests_runEvents n m
  refine ⟨steps_bus n m, ?_, ?_, ?_⟩
  · intro before during after _ hbefore hduring
    rw [Bus.undergoAll_append]
    exact Bus.requested_undergoAll hduring hbefore
  · intro before after hsplit
    refine ⟨hserves.requested hsplit, ?_⟩
    rw [Bus.undergoAll_append]
    exact Bus.not_requested_dispatch _ i
  · intro hwrite
    have hbalance := Bus.balance_undergoAll i hserves hwrite
    omega

/-- A machine that sleeps although two interrupts are requested, of which it heeds
one. -/
def sleeping : Machine :=
  { postBoot with
    cpu := { postBoot.cpu with halted := true, ime := true }
    bus := { postBoot.bus with requests := 0x05, enables := 0x01 } }

theorem runEvents_sleeping : runEvents 1 sleeping =
    [.runTimer 1, .dispatch .vblank, .write 0xFFFD 0x01, .write 0xFFFC 0x00, .runTimer 5,
      .runScreen 6] := by
  rw [runEvents, runEvents, List.append_nil]
  rfl

/-- The next step serves one of the two interrupts and withdraws its request; the
request of the other stays. -/
theorem requests_of_run_sleeping :
    (steps 1 sleeping).bus.requested .timer = true ∧
    (sleeping.bus.undergoAll [.runTimer 1, .dispatch .vblank]).requested .vblank = false ∧
    (runEvents 1 sleeping).count (.dispatch .vblank) ≤
      sleeping.bus.rises .vblank (runEvents 1 sleeping) + 1 := by
  obtain ⟨hbus, hstays, -, -⟩ := requests_of_run 1 sleeping .timer
  obtain ⟨-, -, hdispatch, hcount⟩ := requests_of_run 1 sleeping .vblank
  refine ⟨?_, ?_, hcount ?_⟩
  · rw [hbus]
    refine hstays [] (runEvents 1 sleeping) [] (by simp) rfl ?_
    rw [runEvents_sleeping]
    simp
  · exact (hdispatch [.runTimer 1] _ runEvents_sleeping).2
  · rw [runEvents_sleeping]
    simp

end Machine
end Handheld
