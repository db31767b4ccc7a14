import Marathon.Deployment.ReadinessBehavior

/-!
# The task start actor

The actor queues as many instances of a run spec as are missing, and goes by what it hears of
them. How many are missing is asked for once, and the answer comes later: whenever something
changes, a look at the sets is put off until the answer is there. Such a look is a task of its
own, which is taken at any time after the message that asked for it.
-/

namespace Marathon.Deployment

open Lib

/-- `looks` are the looks that are still to be taken, `queued` is how many instances have been
queued each time. -/
structure TaskStartActor where
  readiness : ReadinessBehavior
  nrToStart : Option ℤ
  looks : ℕ
  promise : Bool
  thrown : Bool
  queued : List ℤ
deriving DecidableEq

namespace TaskStartActor

/-- `sync` comes with the instances that the tracker has then. -/
inductive Message
  | readiness (message : ReadinessBehavior.Message)
  | sync (instances : List Instance)
  | failure
  | postStart
  | done

def preStart : TaskStartActor where
  readiness := .empty
  nrToStart := none
  looks := 0
  promise := false
  thrown := false
  queued := []

def alreadyLaunched (instances : List Instance) : List Instance :=
  instances.filter fun i => i.isActive || i.isScheduled

def target (scaleTo : ℤ) (instances : List Instance) : ℤ :=
  max 0 (scaleTo - (alreadyLaunched instances).length)

def add (a : TaskStartActor) (count : ℤ) : TaskStartActor := { a with queued := a.queued ++ [count] }

def checkFinished (a : TaskStartActor) : TaskStartActor := { a with looks := a.looks + 1 }

def instanceConditionChanged (a : TaskStartActor) (_ : InstanceId) : TaskStartActor :=
  a.checkFinished

/-- The sets of the behaviour, after the hook has been called. -/
def noted (a : TaskStartActor) (outcome : ReadinessBehavior × Option InstanceId) :
    TaskStartActor :=
  let a := { a with readiness := outcome.1 }
  match outcome.2 with
  | some id => a.instanceConditionChanged id
  | none => a

section

variable (runSpec : RunSpec) (scaleTo : ℤ)

/-- An instance of the run spec that has ended. -/
def isTerminalNew (event : TaskReplaceActor.InstanceChanged) : Bool :=
  event.runSpecVersion = runSpec.version && event.runSpecId = runSpec.id &&
    event.condition.isTerminal

def commonBehavior (a : TaskStartActor) : Message → TaskStartActor
  | .readiness (.instanceChanged event) =>
    if isTerminalNew runSpec event then
      let a := { a with readiness := a.readiness.instanceTerminated event.id }
      if event.changed.state.goal.isTerminal then a.add 1 else a
    else a
  | .sync instances =>
    let instancesToStartNow := target scaleTo instances
    if 0 < instancesToStartNow then a.add instancesToStartNow else a
  | .failure => { a with thrown := true }
  | .postStart => a.checkFinished
  | _ => a

def receive (a : TaskStartActor) (message : Message) : TaskStartActor :=
  match message with
  | .readiness shown =>
    ((a.readiness.readinessBehavior runSpec shown).map a.noted).getD
      (a.commonBehavior runSpec scaleTo message)
  | _ => a.commonBehavior runSpec scaleTo message

/-- The instances are counted, a message is handled, or a look is taken. -/
inductive Event
  | counted (instances : List Instance)
  | received (message : Message)
  | looked

/-- The start is over once the instances are counted and queued. -/
def expects (a : TaskStartActor) : Message → Bool
  | .postStart => a.nrToStart.isSome
  | _ => true

/-- The first instances are queued when they are counted. -/
def initializeStart (a : TaskStartActor) (instances : List Instance) : TaskStartActor :=
  let toStart := target scaleTo instances
  let a := { a with nrToStart := some toStart }
  if 0 < toStart then a.add toStart else a

def look (a : TaskStartActor) (n : ℤ) : TaskStartActor :=
  { a with looks := a.looks - 1, promise := a.promise || a.readiness.targetCountReached n }

def step (a : TaskStartActor) : Event → Option TaskStartActor
  | .counted instances =>
    if a.nrToStart.isNone then some (a.initializeStart scaleTo instances) else none
  | .received message =>
    if !a.thrown && a.expects message then some (a.receive runSpec scaleTo message) else none
  | .looked =>
    match a.nrToStart with
    | some n => if 0 < a.looks then some (a.look n) else none
    | none => none

end

/-! ## What happens to the sets -/

variable {runSpec : RunSpec} {scaleTo : ℤ} {a a' : TaskStartActor}

theorem isTerminalNew_iff {event : TaskReplaceActor.InstanceChanged} :
    isTerminalNew runSpec event = true ↔ event.runSpecVersion = runSpec.version ∧
      event.runSpecId = runSpec.id ∧ event.condition.isTerminal = true := by
  simp only [isTerminalNew, Bool.and_eq_true, decide_eq_true_eq, and_assoc]

theorem readiness_noted (a : TaskStartActor) (outcome : ReadinessBehavior × Option InstanceId) :
    (a.noted outcome).readiness = outcome.1 := by
  unfold noted
  split <;> rfl

theorem readiness_initializeStart (a : TaskStartActor) (instances : List Instance) :
    (a.initializeStart scaleTo instances).readiness = a.readiness := by
  unfold initializeStart
  dsimp only
  split_ifs <;> rfl

theorem nrToStart_initializeStart (a : TaskStartActor) (instances : List Instance) :
    (a.initializeStart scaleTo instances).nrToStart = some (target scaleTo instances) := by
  unfold initializeStart
  dsimp only
  split_ifs <;> rfl

theorem readiness_commonBehavior_of_terminal {event : TaskReplaceActor.InstanceChanged}
    (h : isTerminalNew runSpec event = true) :
    (a.commonBehavior runSpec scaleTo (.readiness (.instanceChanged event))).readiness =
      a.readiness.instanceTerminated event.id := by
  unfold commonBehavior
  dsimp only
  rw [if_pos h]
  split_ifs <;> rfl

theorem tracks_receive (a : TaskStartActor) (shown : ReadinessBehavior.Message) :
    a.readiness.Tracks runSpec shown (a.receive runSpec scaleTo (.readiness shown)).readiness := by
  unfold receive
  dsimp only
  cases hready : a.readiness.readinessBehavior runSpec shown with
  | some outcome =>
    rw [Option.map_some, Option.getD_some, readiness_noted]
    exact .of_eq_some hready
  | none =>
    rw [Option.map_none, Option.getD_none]
    cases shown with
    | instanceChanged event =>
      cases hterminal : isTerminalNew runSpec event with
      | true =>
        rw [readiness_commonBehavior_of_terminal hterminal]
        exact .terminated
      | false =>
        rw [commonBehavior, if_neg (Bool.eq_false_iff.mp hterminal)]
        exact .kept
    | _ => exact .kept

theorem readiness_receive_of_terminal {event : TaskReplaceActor.InstanceChanged}
    (h : isTerminalNew runSpec event = true) :
    (a.receive runSpec scaleTo (.readiness (.instanceChanged event))).readiness =
      a.readiness.instanceTerminated event.id := by
  have hrunning := Condition.ne_running_of_isTerminal (isTerminalNew_iff.mp h).2.2
  unfold receive
  dsimp only
  rw [ReadinessBehavior.readinessBehavior_of_ne_running hrunning, Option.map_none, Option.getD_none]
  exact readiness_commonBehavior_of_terminal h

end TaskStartActor

end Marathon.Deployment
