import Mathlib.Data.Nat.Notation

/-!
# The election stream

`CuratorElectionStream` polls ZooKeeper for the leader: a loop checks that it is the current one,
registers a watch, reads the participants of the election and offers what they say to a queue. When
the connection is lost, a callback offers that the leader is unknown. The callback runs on a thread
of its own.
-/

namespace Marathon.Election

inductive LeadershipState
  | electedAsLeader
  | standby (currentLeader : Option String)
deriving DecidableEq

/-- `EnrichedFlow.dedup`: the last element after `e`, and what is emitted. -/
def dedup {T : Type*} [DecidableEq T] (lastElement e : T) : T × List T :=
  if lastElement = e then (lastElement, []) else (e, [e])

/-! ## ZooKeeper -/

inductive ConnectionState
  | connected
  | suspended
  | reconnected
  | lost
  | readOnly
deriving DecidableEq

inductive EventType
  | none
  | nodeCreated
  | nodeDeleted
  | nodeDataChanged
  | nodeChildrenChanged
deriving DecidableEq

structure Participant where
  id : String
  isLeader : Bool

/-- What comes of the registration of a watch. -/
inductive WatchResult
  | registered
  | noNode
  | connectionLoss
  | failed

/-! ## The stream -/

/-- Where a loop is, after it has checked its id. -/
inductive LoopStep
  | registering (loopId retries : ℕ)
  | reading (loopId : ℕ)
  | offering (loopId : ℕ) (participants : List Participant)

/-- A queue that is completing still gives away what it holds, and at last that the leader is
unknown. -/
inductive Phase
  | running
  | completing
  | completed
  | failed
deriving DecidableEq

inductive Happening
  | connectionLost
  | reconnected
  | participantsRead
  | enqueued (state : LeadershipState)

/-- The loops that wait for the thread of the election are given by their id and their retries, and
a watch by the id of the loop that registered it. In `history` the last comes first. -/
structure CuratorElectionStream where
  currentLoopId : ℕ
  listening : Bool
  waiting : List (ℕ × ℕ)
  loop : Option LoopStep
  watches : List ℕ
  queue : List LeadershipState
  phase : Phase
  lastElement : LeadershipState
  history : List Happening

namespace CuratorElectionStream

/-- `startLeaderEventsPoll`. -/
def start : CuratorElectionStream where
  currentLoopId := 1
  listening := true
  waiting := [(1, 0)]
  loop := none
  watches := []
  queue := []
  phase := .running
  lastElement := .standby none
  history := []

/-! ### The queue -/

def bufferSize : ℕ := 16

/-- `sq.offer`, with `OverflowStrategy.dropHead`. -/
def offer (s : CuratorElectionStream) (state : LeadershipState) : CuratorElectionStream :=
  match s.phase with
  | .running =>
    let buffer := if s.queue.length = bufferSize then s.queue.tail else s.queue
    { s with queue := buffer ++ [state], history := .enqueued state :: s.history }
  | _ => s

/-- `sq.fail`, or another stage of the stream fails. -/
def fail (s : CuratorElectionStream) : CuratorElectionStream :=
  if s.phase = .completed then s else { s with phase := .failed }

/-- `sq.complete`. -/
def complete (s : CuratorElectionStream) : CuratorElectionStream :=
  if s.phase = .running then { s with phase := .completing } else s

/-- `sq.watchCompletion().isCompleted` -/
def isCompleted (s : CuratorElectionStream) : Bool :=
  match s.phase with
  | .running => false
  | .completing => s.queue.isEmpty
  | .completed | .failed => true

/-- The next element of the queue, or of what is concatenated to it. -/
def next (s : CuratorElectionStream) : Option (LeadershipState × CuratorElectionStream) :=
  match s.phase, s.queue with
  | .running, state :: queue | .completing, state :: queue => some (state, { s with queue := queue })
  | .completing, [] => some (.standby none, { s with phase := .completed })
  | _, _ => none

/-- What the stream emits for the next element. -/
def pull (s : CuratorElectionStream) : Option (List LeadershipState × CuratorElectionStream) :=
  s.next.map fun (state, s) =>
    let (lastElement, emitted) := dedup s.lastElement state
    (emitted, { s with lastElement := lastElement })

/-! ### The poll loop -/

def longPollLeaderChange (s : CuratorElectionStream) (loopId retries : ℕ) : CuratorElectionStream :=
  { s with waiting := s.waiting ++ [(loopId, retries)] }

/-- The thread of the election takes the next loop, which stops if it is not the current one. -/
def checkLoopId (s : CuratorElectionStream) : Option CuratorElectionStream :=
  match s.loop, s.waiting with
  | none, (loopId, retries) :: waiting =>
    if s.currentLoopId = loopId then
      some { s with waiting := waiting, loop := some (.registering loopId retries) }
    else some { s with waiting := waiting }
  | _, _ => none

def registerWatch (s : CuratorElectionStream) (result : WatchResult) :
    Option CuratorElectionStream :=
  match s.loop with
  | some (.registering loopId retries) =>
    match result with
    | .registered =>
      some { s with watches := loopId :: s.watches, loop := some (.reading loopId) }
    | .noNode =>
      if retries < 10 then some ({ s with loop := none }.longPollLeaderChange loopId (retries + 1))
      else some { s with loop := none }.fail
    | .connectionLoss => some { s with loop := none }
    | .failed => some { s with loop := none }.fail
  | _ => none

/-- There are no participants if the client is stopped or they cannot be read. -/
def readParticipants (s : CuratorElectionStream) (stopped : Bool)
    (getParticipants : Option (List Participant)) : Option CuratorElectionStream :=
  match s.loop with
  | some (.reading loopId) =>
    let participants := if stopped then [] else getParticipants.getD []
    some { s with
      loop := some (.offering loopId participants)
      history := .participantsRead :: s.history }
  | _ => none

/-- The state that the participants tell of. -/
def nextState (hostPort : String) (participants : List Participant) : LeadershipState :=
  match (participants.find? (·.isLeader)).map (·.id) with
  | some leader => if leader = hostPort then .electedAsLeader else .standby (some leader)
  | none => .standby none

/-- The end of `emitLeader`. -/
def offerState (hostPort : String) (s : CuratorElectionStream) : Option CuratorElectionStream :=
  match s.loop with
  | some (.offering _ participants) =>
    let selfParticipantCount := participants.countP (·.id == hostPort)
    if selfParticipantCount > 1 then some { s with loop := none }.fail
    else some ({ s with loop := none }.offer (nextState hostPort participants))
  | _ => none

/-- A watch does not hear of an event twice, but for those of the connection, which it ignores. -/
def watchEvent (s : CuratorElectionStream) (loopId : ℕ) (type : EventType) :
    Option CuratorElectionStream :=
  if loopId ∈ s.watches then
    if type = .none then some s
    else some ({ s with watches := s.watches.erase loopId }.longPollLeaderChange loopId 0)
  else none

/-! ### The callbacks -/

/-- `leaderEmitterListener` -/
def stateChanged (s : CuratorElectionStream) (state : ConnectionState) :
    Option CuratorElectionStream :=
  if s.listening then
    match state with
    | .reconnected =>
      let s := { s with history := .reconnected :: s.history }
      if s.isCompleted then some s
      else
        let nextLoopId := s.currentLoopId + 1
        some ({ s with currentLoopId := nextLoopId }.longPollLeaderChange nextLoopId 0)
    | .lost | .suspended =>
      some ({ s with history := .connectionLost :: s.history }.offer (.standby none))
    | .connected | .readOnly => some s
  else none

/-- The queue is completed: the listener is removed, and the loop is cancelled. -/
def queueCompleted (s : CuratorElectionStream) : Option CuratorElectionStream :=
  if s.isCompleted ∧ s.listening then
    some { s with listening := false, currentLoopId := s.currentLoopId + 1 }
  else none

/-! ## What is enqueued -/

/-- The connection has been lost, and not come back. -/
def disconnected : List Happening → Bool
  | [] => false
  | .connectionLost :: _ => true
  | .reconnected :: _ => false
  | _ :: history => disconnected history

/-- The connection has been lost since the participants were read, and not come back. -/
def lostSinceRead : List Happening → Bool
  | [] => false
  | .connectionLost :: _ => true
  | .reconnected :: _ | .participantsRead :: _ => false
  | _ :: history => lostSinceRead history

/-- `ElectedAsLeader` is not enqueued while the connection is lost. -/
def Quiet : List Happening → Prop
  | [] => True
  | .enqueued .electedAsLeader :: history => disconnected history = false ∧ Quiet history
  | _ :: history => Quiet history

end CuratorElectionStream

end Marathon.Election
