import Marathon.State.Timestamp

/-!
# Conditions

The condition of a task or an instance, the goal of an instance, and the condition that a
status of Mesos stands for.
-/

namespace Marathon

inductive Condition
  | scheduled
  | provisioned
  | error
  | failed
  | finished
  | killed
  | killing
  | running
  | staging
  | starting
  | unreachable
  | unreachableInactive
  | gone
  | dropped
  | unknown
deriving DecidableEq

namespace Condition

def isLost : Condition → Bool
  | gone | unreachable | unknown | dropped => true
  | _ => false

/-- The conditions with the trait `Failure`. -/
def isFailure : Condition → Bool
  | error | failed | gone | dropped | unknown => true
  | _ => false

def isTerminal : Condition → Bool
  | finished | killed => true
  | condition => condition.isFailure

def isActive : Condition → Bool
  | provisioned | killing | running | staging | starting | unreachable => true
  | _ => false

theorem ne_running_of_isTerminal {condition : Condition} (h : condition.isTerminal) :
    condition ≠ running := by
  rintro rfl
  cases h

end Condition

inductive Goal
  | running
  | stopped
  | decommissioned
deriving DecidableEq

def Goal.isTerminal : Goal → Bool
  | running => false
  | stopped | decommissioned => true

/-! ## What Mesos reports -/

namespace Mesos

inductive TaskState
  | staging
  | starting
  | running
  | killing
  | finished
  | failed
  | killed
  | error
  | lost
  | dropped
  | unreachable
  | gone
  | goneByOperator
  | unknown
deriving DecidableEq

/-- The reasons that a condition depends on, and the others by their names. -/
inductive Reason
  | reconciliation
  | slaveDisconnected
  | slaveRemoved
  | taskUnknown
  | other (name : String)
deriving DecidableEq

structure CheckStatusInfo where
  exitCode : Option ℤ
  statusCode : Option ℤ
  succeeded : Option Bool
deriving DecidableEq

structure IPAddress where
  protocol : Option String
  ipAddress : Option String
deriving DecidableEq

end Mesos

/-! ## The condition of a status -/

namespace TaskConditionMapping

open Mesos

def unreachable (reason : Reason) : Bool :=
  reason = .reconciliation || reason = .slaveDisconnected || reason = .slaveRemoved

def unknown (reason : Reason) : Bool := reason = .taskUnknown

/-- All the other reasons. -/
def gone (reason : Reason) : Bool := !unreachable reason && !unknown reason

end TaskConditionMapping

namespace TaskCondition

open Mesos

def messageIndicatingUnknown : String := "Reconciliation: Task is unknown to the"

def inferStateForLost (reason : Reason) (message : String) : Condition :=
  if messageIndicatingUnknown.isPrefixOf message || TaskConditionMapping.unknown reason then .unknown
  else if TaskConditionMapping.gone reason then .gone
  else if TaskConditionMapping.unreachable reason then .unreachable
  else .dropped

/-- `TaskCondition.apply`, of the state of a status, its reason and its message. -/
def ofState (state : TaskState) (reason : Reason) (message : String) : Condition :=
  match state with
  | .error => .error
  | .failed => .failed
  | .finished => .finished
  | .killed => .killed
  | .killing => .killing
  | .running => .running
  | .staging => .staging
  | .starting => .starting
  | .dropped => .dropped
  | .gone | .goneByOperator => .gone
  | .unknown => .unknown
  | .unreachable => .unreachable
  | .lost => inferStateForLost reason message

/-- No status stands for a condition that only Marathon itself sets. -/
theorem ofState_ne (state : TaskState) (reason : Reason) (message : String) :
    ofState state reason message ≠ .scheduled ∧ ofState state reason message ≠ .provisioned ∧
      ofState state reason message ≠ .unreachableInactive := by
  cases state <;> simp only [ofState, ne_eq, reduceCtorEq, not_false_eq_true, and_self]
  unfold inferStateForLost
  split_ifs <;> simp

end TaskCondition

end Marathon
