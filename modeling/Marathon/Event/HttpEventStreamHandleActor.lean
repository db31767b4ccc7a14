import Marathon.Lib.Machine
import Mathlib.Data.Int.Notation
import Mathlib.Data.List.Basic

/-!
# The events of one client

`HttpEventStreamHandleActor` sends the events of the bus to one client. A future sends a batch, and
what is published meanwhile is outstanding.
-/

namespace Marathon.HttpEventStreamHandleActor

open Lib

/-- The receive functions of the actor; `stopped` after its end. -/
inductive Behavior
  | waitForEvent
  | stashEvents
  | emptyBehavior
  | stopped

/-- What `sendEvent` throws. -/
inductive Thrown
  | eofException
  | nonFatal

/-- What the future pipes to the actor. -/
inductive Message
  | workDone
  | failure (ex : Thrown)

/-- The actor and its future, with a record of what the bus has delivered, what the client has got
and how many events have been given up. The newest outstanding event is the first. -/
structure State (E : Type) where
  behavior : Behavior
  outstanding : List E
  toSend : Option (List E)
  piped : Option Message
  published : List E
  sent : List E
  lost : ℕ

inductive Event (E : Type)
  | event (event : E)
  | sendEvent (thrown : Option Thrown)
  | workDone
  | receive
  | stop

variable {E : Type} (maxOutStanding : ℤ)

namespace State

variable (s : State E)

def sendAllMessages : State E :=
  match s.outstanding with
  | [] => { s with behavior := .waitForEvent }
  | _ :: _ =>
    { s with
      behavior := .stashEvents
      outstanding := []
      toSend := some s.outstanding.reverse }

def handleException : Thrown → State E
  | .eofException => { s with behavior := .emptyBehavior }
  | .nonFatal => s

def dropConnection : State E := { s with behavior := .stopped, lost := s.lost + 1 }

def handleWorkDone : Message → State E
  | .workDone => s.sendAllMessages
  | .failure ex => (s.handleException ex).sendAllMessages

/-- An event of the bus. -/
def handleEvent (event : E) : State E :=
  match s.behavior with
  | .waitForEvent => { s with outstanding := event :: s.outstanding }.sendAllMessages
  | .stashEvents =>
    if maxOutStanding ≤ s.outstanding.length then s.dropConnection
    else { s with outstanding := event :: s.outstanding }
  | .emptyBehavior | .stopped => { s with lost := s.lost + 1 }

end State

/-- The parent can stop the actor at any time; the future goes on. -/
def step (s : State E) : Event E → Option (State E)
  | .event event =>
    match s.behavior with
    | .stopped => none
    | _ => some ({ s with published := s.published ++ [event] }.handleEvent maxOutStanding event)
  | .sendEvent thrown =>
    match s.toSend, thrown with
    | some (event :: rest), none =>
      some { s with toSend := some rest, sent := s.sent ++ [event] }
    | some (_ :: rest), some ex =>
      some { s with toSend := none, piped := some (.failure ex), lost := s.lost + rest.length + 1 }
    | _, _ => none
  | .workDone =>
    match s.toSend with
    | some [] => some { s with toSend := none, piped := some .workDone }
    | _ => none
  | .receive =>
    match s.behavior, s.piped with
    | .stashEvents, some message => some ({ s with piped := none }.handleWorkDone message)
    | _, _ => none
  | .stop => some { s with behavior := .stopped }

def actor : Machine (State E) (Event E) where
  Init s := s = ⟨.waitForEvent, [], none, none, [], [], 0⟩
  step := step maxOutStanding

/-- What the client has got, then what is being sent, then what is outstanding. -/
def State.accepted (s : State E) : List E := s.sent ++ s.toSend.getD [] ++ s.outstanding.reverse

/-- The client gets events in the order in which they are published, each at most once, and what
it does not get has been given up. At most one batch is on its way. Nothing waits when the actor
waits for an event, and an answer is due when it does not. No event is ignored. -/
structure Delivers (s : State E) : Prop where
  inOrder : s.accepted.Sublist s.published
  accounted : s.published.length = s.accepted.length + s.lost
  bounded : s.outstanding.length ≤ maxOutStanding.toNat
  oneBatch : s.toSend = none ∨ s.piped = none
  waits : match s.behavior with
    | .waitForEvent => s.outstanding = [] ∧ s.toSend = none ∧ s.piped = none
    | .stashEvents => s.toSend.isSome ∨ s.piped.isSome
    | .emptyBehavior => False
    | .stopped => True

variable {maxOutStanding} {s s' : State E}

theorem Delivers.sendAllMessages (hsublist : s.accepted.Sublist s.published)
    (haccounted : s.published.length = s.accepted.length + s.lost) (htoSend : s.toSend = none)
    (hpiped : s.piped = none) : Delivers maxOutStanding s.sendAllMessages := by
  obtain ⟨behavior, outstanding, toSend, piped, published, sent, lost⟩ := s
  obtain rfl : toSend = none := htoSend
  obtain rfl : piped = none := hpiped
  cases outstanding with
  | nil => exact ⟨hsublist, haccounted, Nat.zero_le _, .inl rfl, rfl, rfl, rfl⟩
  | cons event rest =>
    simp only [State.accepted, Option.getD_none, List.append_nil] at hsublist haccounted
    refine ⟨?_, ?_, Nat.zero_le _, .inr rfl, .inl rfl⟩
    · simpa [State.sendAllMessages, State.accepted] using hsublist
    · simpa [State.sendAllMessages, State.accepted] using haccounted

theorem delivers_step {e : Event E} (h : Delivers maxOutStanding s)
    (hstep : step maxOutStanding s e = some s') : Delivers maxOutStanding s' := by
  obtain ⟨behavior, outstanding, toSend, piped, published, sent, lost⟩ := s
  obtain ⟨hsublist, haccounted, hbounded, hone, hwaits⟩ := h
  simp only [State.accepted] at hsublist haccounted
  cases e with
  | event event =>
    cases behavior with
    | waitForEvent =>
      obtain ⟨rfl, rfl, rfl⟩ := hwaits
      cases hstep
      show Delivers _ (State.sendAllMessages
        ⟨.waitForEvent, [event], none, none, published ++ [event], sent, lost⟩)
      refine .sendAllMessages ?_ ?_ rfl rfl
      · simpa [State.accepted] using hsublist
      · simp [State.accepted] at haccounted ⊢
        omega
    | stashEvents =>
      simp only [step, State.handleEvent] at hstep
      split_ifs at hstep with hfull
      · cases hstep
        refine ⟨hsublist.trans (List.sublist_append_left _ _), ?_, hbounded, hone, trivial⟩
        simp [State.accepted, State.dropConnection] at haccounted ⊢
        omega
      · cases hstep
        refine ⟨?_, ?_, ?_, hone, hwaits⟩
        · simpa [State.accepted, ← List.append_assoc] using hsublist.append_right [event]
        · simp [State.accepted] at haccounted ⊢
          omega
        · have hroom : (outstanding.length : ℤ) < maxOutStanding := Int.not_le.mp hfull
          simp only [List.length_cons]
          omega
    | emptyBehavior => cases hwaits
    | stopped => cases hstep
  | sendEvent thrown =>
    obtain _ | _ | ⟨event, rest⟩ := toSend
    · cases hstep
    · cases hstep
    · obtain rfl : piped = none := hone.resolve_left (Option.some_ne_none _)
      cases thrown with
      | none =>
        cases hstep
        refine ⟨?_, ?_, hbounded, .inr rfl, ?_⟩
        · simpa [State.accepted] using hsublist
        · simpa [State.accepted] using haccounted
        · cases behavior <;> simp_all
      | some ex =>
        cases hstep
        refine ⟨?_, ?_, hbounded, .inl rfl, ?_⟩
        · refine List.Sublist.trans ?_ hsublist
          simp [State.accepted]
        · simp [State.accepted] at haccounted ⊢
          omega
        · cases behavior <;> simp_all
  | workDone =>
    obtain _ | _ | ⟨event, rest⟩ := toSend
    · cases hstep
    · cases hstep
      refine ⟨hsublist, haccounted, hbounded, .inl rfl, ?_⟩
      cases behavior <;> simp_all
    · cases hstep
  | receive =>
    cases behavior with
    | stashEvents =>
      obtain _ | message := piped
      · cases hstep
      · obtain rfl : toSend = none := hone.resolve_right (Option.some_ne_none _)
        -- What is left of a failed batch does not come back, and the next one is sent all the same.
        cases message with
        | workDone =>
          cases hstep
          exact .sendAllMessages hsublist haccounted rfl rfl
        | failure ex =>
          cases ex <;>
          · cases hstep
            exact .sendAllMessages hsublist haccounted rfl rfl
    | waitForEvent | emptyBehavior | stopped => cases hstep
  | stop =>
    cases hstep
    exact ⟨hsublist, haccounted, hbounded, hone, trivial⟩

/-- When no event has been given up, the client has got all that is neither being sent nor
outstanding. -/
theorem delivers_of_reachable (h : (actor maxOutStanding).Reachable s) :
    Delivers maxOutStanding s ∧ (s.lost = 0 → s.accepted = s.published) := by
  have hdelivers : Delivers maxOutStanding s := by
    induction h with
    | init h =>
      obtain rfl := h
      exact ⟨.slnil, rfl, Nat.zero_le _, .inl rfl, rfl, rfl, rfl⟩
    | step _ _ hstep ih => exact delivers_step ih hstep
  refine ⟨hdelivers, fun hlost => hdelivers.inOrder.eq_of_length ?_⟩
  rw [hdelivers.accounted, hlost, Nat.add_zero]

/-- The client is gone, but the event after that is sent all the same. -/
theorem delivers_afterEof :
    Delivers 1 (⟨.stashEvents, [], some [2], none, [1, 2], [], 1⟩ : State ℕ) :=
  (delivers_of_reachable (Machine.reachableIf_of_runIf
    [.event 1, .event 2, .sendEvent (some .eofException), .receive] (.init rfl) rfl)).1

end Marathon.HttpEventStreamHandleActor
