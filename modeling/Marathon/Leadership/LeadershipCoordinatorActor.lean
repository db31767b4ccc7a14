import Marathon.Lib.Machine
import Mathlib.Data.Finset.Sort

/-!
# The actors that run while this instance leads

`LeadershipCoordinatorActor` has every `WhenLeaderActor` start its child before it tells who asked
that the instance is prepared, and stops them when the leadership is lost. A `WhenLeaderActor`
stashes what it is sent while it has no child.
-/

namespace Marathon.Leadership

open Lib

/-! ## The wrapper of an actor -/

/-- What a `WhenLeaderActor` is sent. Of a `PrepareForStart` it is known how many the coordinator
had sent by then; the actor does not read it. -/
inductive Message (μ : Type*)
  | prepareForStart (cycle : ℕ)
  | stop
  | user (m : μ)

inductive Behavior
  | suspended
  | active (childRef : ℕ)
  | dying (childRef : ℕ)

/-- A `WhenLeaderActor`, with the `PrepareForStart` that its last child was started for, the messages
that it was sent and the ones that it has handled. -/
structure WhenLeaderActor (μ : Type*) where
  alive : Bool
  leadershipCycle : ℕ
  behavior : Behavior
  mailbox : List (Message μ)
  stash : List (Message μ)
  startedFor : Option ℕ
  sent : List (Message μ)
  handled : List (Message μ)

/-- What the coordinator hears of a `WhenLeaderActor`. -/
inductive Reply
  | prepared
  | stopped
  | terminated
deriving DecidableEq

namespace WhenLeaderActor

variable {μ : Type*}

def new : WhenLeaderActor μ := ⟨true, 1, .suspended, [], [], none, [], []⟩

def tell (w : WhenLeaderActor μ) (m : Message μ) : WhenLeaderActor μ :=
  if w.alive then { w with mailbox := w.mailbox ++ [m], sent := w.sent ++ [m] } else w

def unstashAll (w : WhenLeaderActor μ) : WhenLeaderActor μ :=
  { w with mailbox := w.stash ++ w.mailbox, stash := [] }

def stashed (w : WhenLeaderActor μ) (m : Message μ) : WhenLeaderActor μ :=
  { w with stash := w.stash ++ [m] }

variable (deferrable : μ → Bool)

/-- The actor after a message, and what it answers to the coordinator. -/
def receive (w : WhenLeaderActor μ) (m : Message μ) : WhenLeaderActor μ × List Reply :=
  match w.behavior, m with
  | .suspended, .prepareForStart cycle =>
    ({ w.unstashAll with
       behavior := .active w.leadershipCycle
       leadershipCycle := w.leadershipCycle + 1
       startedFor := some cycle
       handled := w.handled ++ [m] }, [.prepared])
  | .suspended, .stop => ({ w with handled := w.handled ++ [m] }, [.stopped])
  | .suspended, .user u =>
    -- a message that is not deferrable is answered with a failure
    if deferrable u then (w.stashed m, []) else ({ w with handled := w.handled ++ [m] }, [])
  | .active _, .prepareForStart _ => ({ w with handled := w.handled ++ [m] }, [.prepared])
  | .active childRef, .stop =>
    ({ w.unstashAll with behavior := .dying childRef, handled := w.handled ++ [m] }, [])
  | .active _, .user _ => ({ w with handled := w.handled ++ [m] }, [])
  | .dying _, m => (w.stashed m, [])

/-- The actor handles the first message of its mailbox. -/
def process (w : WhenLeaderActor μ) : Option (WhenLeaderActor μ × List Reply) :=
  match w.mailbox with
  | m :: mailbox => if w.alive then some (receive deferrable { w with mailbox := mailbox } m) else none
  | [] => none

/-- The child that was to die has terminated. -/
def childTerminated (w : WhenLeaderActor μ) : Option (WhenLeaderActor μ × List Reply) :=
  match w.behavior with
  | .dying _ =>
    if w.alive then some ({ w.unstashAll with behavior := .suspended }, [.stopped]) else none
  | _ => none

end WhenLeaderActor

/-! ## The coordinator -/

inductive CoordinatorBehavior (ι : Type*)
  | suspended
  | preparingForStart (ackStartRefs : Finset ℕ) (whenLeaderActorsWithoutAck : Finset ι)
  | active

/-- Who has asked for the preparation is called by the number of the request. -/
inductive Answer
  | prepared (request : ℕ)
  | failed (request : ℕ)
deriving DecidableEq

def Answer.request : Answer → ℕ
  | prepared r | failed r => r

/-- The coordinator, the number of requests, and how often it has sent `PrepareForStart`. -/
structure Coordinator (ι : Type*) where
  whenLeaderActors : Finset ι
  behavior : CoordinatorBehavior ι
  requests : ℕ
  cycle : ℕ
  answers : List Answer

/-- The coordinator and the actors. The replies of an actor arrive in their order. -/
structure System (ι μ : Type*) where
  coordinator : Coordinator ι
  actors : ι → WhenLeaderActor μ
  replies : ι → List Reply

inductive Event (ι μ : Type*)
  /-- Someone asks the coordinator to prepare for the start. -/
  | prepareForStart
  | stop
  /-- The next reply of an actor arrives. -/
  | reply (w : ι)
  | tell (w : ι) (m : μ)
  | process (w : ι)
  | childTerminated (w : ι)
  | die (w : ι)

variable {ι μ : Type*} [DecidableEq ι]

namespace Coordinator

/-- `preparingForStart`: when all have answered, so has the coordinator. -/
def preparingForStart (c : Coordinator ι) (ackStartRefs : Finset ℕ) (withoutAck : Finset ι) :
    Coordinator ι :=
  if withoutAck = ∅ then
    { c with
      behavior := .active
      answers := c.answers ++ (ackStartRefs.sort (· ≤ ·)).map .prepared }
  else { c with behavior := .preparingForStart ackStartRefs withoutAck }

/-- A reply of the actor `w`. -/
def receive (c : Coordinator ι) (w : ι) (reply : Reply) : Coordinator ι :=
  match reply, c.behavior with
  | .prepared, .preparingForStart ackStartRefs withoutAck =>
    c.preparingForStart ackStartRefs (withoutAck.erase w)
  | .terminated, .preparingForStart ackStartRefs withoutAck =>
    { c with whenLeaderActors := c.whenLeaderActors.erase w }.preparingForStart ackStartRefs
      (withoutAck.erase w)
  | .terminated, _ => { c with whenLeaderActors := c.whenLeaderActors.erase w }
  | _, _ => c

end Coordinator

namespace System

/-- A message to all actors of the coordinator. -/
def tellAll (s : System ι μ) (m : Message μ) : ι → WhenLeaderActor μ := fun w =>
  if w ∈ s.coordinator.whenLeaderActors then (s.actors w).tell m else s.actors w

def prepareForStart (s : System ι μ) : System ι μ :=
  let c := { s.coordinator with requests := s.coordinator.requests + 1 }
  let request := s.coordinator.requests
  match c.behavior with
  | .suspended =>
    let c := { c with cycle := c.cycle + 1 }
    { s with
      coordinator := c.preparingForStart {request} c.whenLeaderActors
      actors := s.tellAll (.prepareForStart c.cycle) }
  | .preparingForStart ackStartRefs withoutAck =>
    { s with coordinator := c.preparingForStart (insert request ackStartRefs) withoutAck }
  | .active => { s with coordinator := { c with answers := c.answers ++ [.prepared request] } }

def stop (s : System ι μ) : System ι μ :=
  match s.coordinator.behavior with
  | .suspended => s
  | .preparingForStart ackStartRefs _ =>
    { s with
      coordinator :=
        { s.coordinator with
          behavior := .suspended
          answers := s.coordinator.answers ++ (ackStartRefs.sort (· ≤ ·)).map .failed }
      actors := s.tellAll .stop }
  | .active =>
    { s with
      coordinator := { s.coordinator with behavior := .suspended }
      actors := s.tellAll .stop }

/-- An actor has done something, and its replies are on their way. -/
def acted (s : System ι μ) (w : ι) (result : WhenLeaderActor μ × List Reply) : System ι μ :=
  { s with
    actors := Function.update s.actors w result.1
    replies := Function.update s.replies w (s.replies w ++ result.2) }

def step (deferrable : μ → Bool) (s : System ι μ) : Event ι μ → Option (System ι μ)
  | .prepareForStart => some s.prepareForStart
  | .stop => some s.stop
  | .reply w =>
    match s.replies w with
    | reply :: replies =>
      some { s with
        coordinator := s.coordinator.receive w reply
        replies := Function.update s.replies w replies }
    | [] => none
  | .tell w m => some (s.acted w ((s.actors w).tell (.user m), []))
  | .process w => ((s.actors w).process deferrable).map (s.acted w)
  | .childTerminated w => (s.actors w).childTerminated.map (s.acted w)
  | .die w =>
    if (s.actors w).alive then some (s.acted w ({ s.actors w with alive := false }, [.terminated]))
    else none

end System

/-- The coordinator and the actors it was given. -/
def leadership (deferrable : μ → Bool) : Machine (System ι μ) (Event ι μ) where
  Init s := ∃ whenLeaderActors : Finset ι, s =
    { coordinator := ⟨whenLeaderActors, .suspended, 0, 0, []⟩
      actors := fun w => { WhenLeaderActor.new with alive := decide (w ∈ whenLeaderActors) }
      replies := fun _ => [] }
  step := System.step deferrable

end Marathon.Leadership
