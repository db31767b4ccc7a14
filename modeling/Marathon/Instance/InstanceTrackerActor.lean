import Marathon.Instance.InstanceTracker

/-!
# Updates through the queue and the actor

`InstanceTrackerDelegate` sends the updates of a run spec to `InstanceTrackerActor` one at a
time: the next one leaves the queue when the ask before it is answered or has timed out. The
actor resolves an update against the instances it holds, has the repository persist the effect
and then takes it over.
-/

namespace Marathon.Tracking

open Lib

/-- `UpdateContext`. -/
structure Update where
  deadline : Timestamp
  operation : InstanceUpdateOperation

namespace Update

def appId (u : Update) : AbsolutePathId := u.operation.instanceId.runSpecId

def instanceId (u : Update) : InstanceId := u.operation.instanceId

end Update

/-- An update that is sent to the actor, with the number of its ask. -/
structure Ask where
  number : ℕ
  sent : Timestamp

/-- An effect, on record with the update and the instance it was computed from. -/
structure Resolved where
  update : Update
  base : Option Instance
  effect : InstanceUpdateEffect

/-- The messages of the actor; the sender is known by the number of its ask. -/
inductive Message
  | update (ask : ℕ) (u : Update)
  | repositoryStateUpdated (ask : ℕ) (resolved : Resolved)

def Message.ask : Message → ℕ
  | update ask _ | repositoryStateUpdated ask _ => ask

/-- A store or a delete of the repository that has not completed. -/
structure Write where
  ask : ℕ
  resolved : Resolved
  done : Bool

/-- Why an update has no effect. -/
inductive ResolveFailure
  | timeout
  | thrown (t : Thrown)
  | failure (cause : UpdateFailure)

structure State where
  clock : Timestamp
  /-- The updates that wait, for each substream of the queue. -/
  queues : ℕ → List Update
  /-- The ask that each substream waits for. -/
  asks : ℕ → Option Ask
  nextAsk : ℕ
  mailbox : List Message
  /-- `instancesBySpec` of the actor. -/
  instances : InstancesBySpec
  writes : List Write
  /-- The asks that have been answered, until the answer arrives. -/
  replies : List ℕ
  /-- What the repository holds. -/
  stored : InstancesBySpec
  /-- The effects that the repository has persisted, the latest one last. -/
  persisted : List Resolved

inductive Event
  | tick (clock : Timestamp)
  /-- `process`: an update is queued. -/
  | submit (operation : InstanceUpdateOperation)
  /-- The next update of a substream is sent. -/
  | send (substream : ℕ)
  | reply (ask : ℕ)
  | timeout (substream : ℕ)
  /-- The actor handles its next message. -/
  | handle
  /-- The repository does what it has been asked to do. -/
  | write (ask : ℕ)
  | complete (ask : ℕ)
  | fail (ask : ℕ)

/-- The substream of an app id: `hash % numParallelUpdates`; and the timeout of an ask, which
is a whole number of milliseconds. -/
structure Config where
  substream : AbsolutePathId → ℕ
  timeoutMillis : ℕ

def Config.timeout (config : Config) : FiniteDuration := config.timeoutMillis * 1000000

namespace State

variable (config : Config) (s : State)

/-- `resolveUpdateEffect`, and what is thrown as a failure. -/
def resolveUpdateEffect (u : Update) : Except ResolveFailure InstanceUpdateEffect :=
  if u.deadline ≤ s.clock then .error .timeout
  else
    match InstanceUpdateOpResolver.resolve s.clock (s.instances.lookup u.instanceId) u.operation with
    | .error t => .error (.thrown t)
    | .ok (.failure cause) => .error (.failure cause)
    | .ok effect => .ok effect

def submit (operation : InstanceUpdateOperation) : State :=
  let u : Update := ⟨s.clock.plus config.timeout, operation⟩
  let g := config.substream u.appId
  { s with queues := Function.update s.queues g (s.queues g ++ [u]) }

def send (g : ℕ) : Option State :=
  match s.asks g, s.queues g with
  | none, u :: rest =>
    some
      { s with
        queues := Function.update s.queues g rest
        asks := Function.update s.asks g (some ⟨s.nextAsk, s.clock⟩)
        nextAsk := s.nextAsk + 1
        mailbox := s.mailbox ++ [.update s.nextAsk u] }
  | _, _ => none

/-- The substream that waits for an ask goes on; an answer that is too late is dropped. -/
def reply (ask : ℕ) : Option State :=
  if ask ∈ s.replies then
    some
      { s with
        asks := fun g => (s.asks g).filter fun a => a.number ≠ ask
        replies := s.replies.erase ask }
  else none

/-- An ask that has waited for the timeout fails, whatever has become of its update. -/
def timeout (g : ℕ) : Option State :=
  match s.asks g with
  | some a =>
    if a.sent.plus config.timeout ≤ s.clock then
      some { s with asks := Function.update s.asks g none }
    else none
  | none => none

/-- An effect that changes an instance is handed to the repository, any other is passed on. -/
def handleUpdate (ask : ℕ) (u : Update) : State :=
  match s.resolveUpdateEffect u with
  | .error _ => { s with replies := s.replies ++ [ask] }
  | .ok effect =>
    let resolved : Resolved := ⟨u, s.instances.lookup u.instanceId, effect⟩
    if effect.changes then { s with writes := s.writes ++ [⟨ask, resolved, false⟩] }
    else { s with mailbox := s.mailbox ++ [.repositoryStateUpdated ask resolved] }

def handle : Option State :=
  match s.mailbox with
  | .update ask u :: rest => some ({ s with mailbox := rest }.handleUpdate ask u)
  | .repositoryStateUpdated ask resolved :: rest =>
    some
      { s with
        mailbox := rest
        instances := s.instances.update resolved.effect
        replies := s.replies ++ [ask] }
  | [] => none

def write (ask : ℕ) : Option State :=
  match s.writes.find? fun w => w.ask = ask && !w.done with
  | some w =>
    some
      { s with
        writes := s.writes.map fun w' => if w'.ask = ask then { w' with done := true } else w'
        stored := s.stored.update w.resolved.effect
        persisted := s.persisted ++ [w.resolved] }
  | none => none

def complete (ask : ℕ) : Option State :=
  match s.writes.find? fun w => w.ask = ask && w.done with
  | some w =>
    some
      { s with
        writes := s.writes.filter fun w' => w'.ask ≠ ask
        mailbox := s.mailbox ++ [.repositoryStateUpdated ask w.resolved] }
  | none => none

/-- A failure means that nothing has been written. -/
def fail (ask : ℕ) : Option State :=
  match s.writes.find? fun w => w.ask = ask && !w.done with
  | some _ =>
    some
      { s with
        writes := s.writes.filter fun w' => w'.ask ≠ ask
        replies := s.replies ++ [ask] }
  | none => none

def step (s : State) : Event → Option State
  | .tick clock => if s.clock ≤ clock then some { s with clock := clock } else none
  | .submit operation => some (s.submit config operation)
  | .send g => s.send g
  | .reply ask => s.reply ask
  | .timeout g => s.timeout config g
  | .handle => s.handle
  | .write ask => s.write ask
  | .complete ask => s.complete ask
  | .fail ask => s.fail ask

/-- The actor has loaded what the repository holds. -/
def initial (clock : Timestamp) (stored : InstancesBySpec) : State where
  clock := clock
  queues _ := []
  asks _ := none
  nextAsk := 0
  mailbox := []
  instances := stored
  writes := []
  replies := []
  stored := stored
  persisted := []

end State

/-- The delegate, the actor and the repository, under all interleavings. -/
def machine (config : Config) (stored : InstancesBySpec) : Machine State Event where
  Init s := ∃ clock, s = .initial clock stored
  step := State.step config

end Marathon.Tracking
