import Marathon.Election.CuratorElectionStream
import Marathon.Lib.Machine

/-!
# The election service

`ElectionServiceImpl` runs the election stream: it starts the leadership of the candidate when this
instance becomes the leader, and stops it when another does. `mapAsync(1)` has one of these calls run
at a time.
-/

namespace Marathon.Election

open Lib

/-! ## The service -/

inductive LeadershipTransition
  | electedAsLeaderAndReady
  | standby
deriving DecidableEq

/-- What a call of the candidate is followed by: `startLeadership` if this instance became leader, and
`stopLeadership` if not. -/
def transitionOf (becameLeader : Bool) : LeadershipTransition :=
  if becameLeader then .electedAsLeaderAndReady else .standby

/-- What happens to the candidate, and with the transitions. -/
inductive CallHappening
  | called (becameLeader : Bool)
  | ended (becameLeader success : Bool)
  | handled (transition : LeadershipTransition)
deriving DecidableEq

/-- The call that runs is in `inFlight`; `transitions` are those on their way to the sink. In
`history` the last comes first. -/
structure ElectionServiceImpl where
  lastState : LeadershipState
  leaderAndReady : Bool
  lastBecameLeader : Bool
  inFlight : Option Bool
  transitions : List LeadershipTransition
  history : List CallHappening

namespace ElectionServiceImpl

def new : ElectionServiceImpl := ⟨.standby none, false, false, none, [], []⟩

def isLeader (s : ElectionServiceImpl) : Bool := s.leaderAndReady

def leaderHostPort (hostPort : String) (s : ElectionServiceImpl) : Option String :=
  match s.lastState with
  | .electedAsLeader => some hostPort
  | .standby currentLeader => currentLeader

/-- The call of the candidate. -/
def call (s : ElectionServiceImpl) (becameLeader : Bool) : ElectionServiceImpl :=
  { s with inFlight := some becameLeader, history := .called becameLeader :: s.history }

/-- `localEventListenerSink` and the first stages of `leadershipTransitionsFlow`. -/
def receive (s : ElectionServiceImpl) (event : LeadershipState) : ElectionServiceImpl :=
  let becameLeader := match event with
    | .electedAsLeader => true
    | .standby _ => false
  let (lastBecameLeader, emitted) := dedup s.lastBecameLeader becameLeader
  emitted.foldl call { s with lastState := event, lastBecameLeader := lastBecameLeader }

/-- The call is over. There is no transition if it failed, or if the stream has. -/
def callEnded (s : ElectionServiceImpl) (success streamFailed : Bool) :
    Option ElectionServiceImpl :=
  s.inFlight.map fun becameLeader =>
    { s with
      inFlight := none
      transitions :=
        if success ∧ ¬ streamFailed then s.transitions ++ [transitionOf becameLeader]
        else s.transitions
      history := .ended becameLeader success :: s.history }

/-- `localTransitionSink`, but for the crash. -/
def handle (s : ElectionServiceImpl) : Option ElectionServiceImpl :=
  match s.transitions with
  | transition :: transitions =>
    let leaderAndReady := match transition with
      | .electedAsLeaderAndReady => true
      | .standby => false
    some { s with
      leaderAndReady := leaderAndReady
      transitions := transitions
      history := .handled transition :: s.history }
  | [] => none

end ElectionServiceImpl

/-! ## The stream and the service -/

structure Candidacy where
  stream : CuratorElectionStream
  service : ElectionServiceImpl

inductive Event
  | stateChanged (state : ConnectionState)
  | watchEvent (loopId : ℕ) (type : EventType)
  | checkLoopId
  | registerWatch (result : WatchResult)
  | readParticipants (stopped : Bool) (getParticipants : Option (List Participant))
  | offerState
  /-- The stream is cancelled, or its client closed. -/
  | close
  | queueCompleted
  /-- The stream fails, as by the initial timeout. -/
  | fail
  /-- The service takes the next element. -/
  | pull
  | callEnded (success : Bool)
  | handle

namespace Candidacy

/-- The stages after `mapAsync` ask for an element when no call runs. -/
def pull (s : Candidacy) : Option Candidacy :=
  if s.service.inFlight = none then
    s.stream.pull.map fun (emitted, stream) =>
      ⟨stream, emitted.foldl ElectionServiceImpl.receive s.service⟩
  else none

/-- A call that fails is the end of the stream. -/
def callEnded (s : Candidacy) (success : Bool) : Option Candidacy :=
  (s.service.callEnded success (s.stream.phase = .failed)).map fun service =>
    ⟨if success then s.stream else s.stream.fail, service⟩

def step (hostPort : String) (s : Candidacy) : Event → Option Candidacy
  | .stateChanged state => (s.stream.stateChanged state).map ({ s with stream := · })
  | .watchEvent loopId type => (s.stream.watchEvent loopId type).map ({ s with stream := · })
  | .checkLoopId => s.stream.checkLoopId.map ({ s with stream := · })
  | .registerWatch result => (s.stream.registerWatch result).map ({ s with stream := · })
  | .readParticipants stopped getParticipants =>
    (s.stream.readParticipants stopped getParticipants).map ({ s with stream := · })
  | .offerState => (s.stream.offerState hostPort).map ({ s with stream := · })
  | .close => some { s with stream := s.stream.complete }
  | .queueCompleted => s.stream.queueCompleted.map ({ s with stream := · })
  | .fail => some { s with stream := s.stream.fail }
  | .pull => s.pull
  | .callEnded success => s.callEnded success
  | .handle =>
    if s.stream.phase = .failed then none else s.service.handle.map ({ s with service := · })

end Candidacy

/-- `offerLeadership` has been called. -/
def election (hostPort : String) : Machine Candidacy Event where
  Init s := s = ⟨.start, .new⟩
  step := Candidacy.step hostPort

/-! ## The calls of the candidate -/

namespace ElectionServiceImpl

/-- A call is made when none runs, and of the kind that is next: `startLeadership` at first, and then
one and the other in turns. -/
inductive Alternates : (next : Bool) → (running : Option Bool) → List CallHappening → Prop
  | nil : Alternates true none []
  | called {next : Bool} {history : List CallHappening} (h : Alternates next none history) :
    Alternates (!next) (some next) (.called next :: history)
  | ended {next becameLeader success : Bool} {history : List CallHappening}
    (h : Alternates next (some becameLeader) history) :
    Alternates next none (.ended becameLeader success :: history)
  | handled {next : Bool} {running : Option Bool} {transition : LeadershipTransition}
    {history : List CallHappening} (h : Alternates next running history) :
    Alternates next running (.handled transition :: history)

/-- The transition that was handled last. -/
def lastHandled : List CallHappening → Option LeadershipTransition
  | [] => none
  | .handled transition :: _ => some transition
  | _ :: history => lastHandled history

/-- The transitions that were handled, and those of the calls that have completed. -/
def handledTransitions (history : List CallHappening) : List LeadershipTransition :=
  history.filterMap fun
    | .handled transition => some transition
    | _ => none

def completedTransitions (history : List CallHappening) : List LeadershipTransition :=
  history.filterMap fun
    | .ended becameLeader true => some (transitionOf becameLeader)
    | _ => none

end ElectionServiceImpl

end Marathon.Election
