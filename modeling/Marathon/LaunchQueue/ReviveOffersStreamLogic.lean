import Marathon.LaunchQueue.WantedOffers

/-!
# Revives

Frames of the state that are next to each other when they are processed are compared role by
role, and the difference is turned into directives. A frame may be dropped: what has happened
to an instance in between shows in the version of its record, which is not below the version of
the frame before.
-/

namespace Marathon.LaunchQueue

open Lib

/-! ## Roles and directives -/

inductive RoleOfferState
  | offersWanted
  | offersNotWanted
deriving DecidableEq

def RoleOfferState.isWanted : RoleOfferState → Bool
  | offersWanted => true
  | offersNotWanted => false

inductive RoleDirective
  | updateFramework (roleState : Dict Role RoleOfferState) (newlyRevived newlySuppressed : Finset Role)
  | issueRevive (roles : Finset Role)

namespace ReviveOffersState

end ReviveOffersState

variable {role defaultRole : Role} {s : ReviveOffersState}
  {event : InstanceChangeOrSnapshot ⊕ DelayedStatus} {id : InstanceId} {info : OffersWantedInfo}

namespace ReviveOffersStreamLogic

open ReviveOffersState

namespace ReviveDirectiveFlowLogicWithoutSuppression

end ReviveDirectiveFlowLogicWithoutSuppression

namespace ReviveDirectiveFlowLogicWithSuppression

end ReviveDirectiveFlowLogicWithSuppression

variable {lastState newState : Dict Role VersionedRoleState} {role : Role} {version : ℕ}

end ReviveOffersStreamLogic

/-! ## Versions -/

namespace ReviveOffersState

/-- With the event an instance starts to want offers for the role, or the delay of one that
wants them ends. -/
def Starts (s : ReviveOffersState) (defaultRole : Role)
    (event : InstanceChangeOrSnapshot ⊕ DelayedStatus) (role : Role) (id : InstanceId) : Prop :=
  s.recordOf role id = none ∧ ((s.follow defaultRole event).recordOf role id).isSome ∨
    ∃ info ∈ s.recordOf role id, event = .inr (.notDelayed info.ref)

end ReviveOffersState

end Marathon.LaunchQueue

namespace Marathon.LaunchQueue.ReviveOffersState.Relieved

/-! ## An instance in the place of another one -/

def runSpec : RunSpec := .app (plainApp ⟨["shop"]⟩ ∅)

def instanceOf (uuid : ℕ) (condition : Condition) : Instance :=
  { Instance.scheduled runSpec ⟨⟨["shop"]⟩, .instance, ⟨uuid⟩⟩ ⟨0⟩ with
    state := ⟨condition, ⟨0⟩, none, none, .running⟩ }

def before : List (InstanceChangeOrSnapshot ⊕ DelayedStatus) :=
  [.inl (.instancesSnapshot ∅), .inl (.instanceUpdated (instanceOf 0 .scheduled))]

/-- The first instance is launched and its run spec delayed. -/
def earlier : List (InstanceChangeOrSnapshot ⊕ DelayedStatus) :=
  [.inl (.instanceUpdated (instanceOf 0 .provisioned)), .inr (.delayed runSpec.configRef)]

/-- The second one starts to want offers before the delay ends. -/
def event : InstanceChangeOrSnapshot ⊕ DelayedStatus :=
  .inl (.instanceUpdated (instanceOf 1 .scheduled))

def later : List (InstanceChangeOrSnapshot ⊕ DelayedStatus) := [.inr (.notDelayed runSpec.configRef)]

end Marathon.LaunchQueue.ReviveOffersState.Relieved
