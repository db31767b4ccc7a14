import Marathon.Instance.InstanceTracker
import Marathon.Launcher.InstanceOp

/-!
# The processing of an offer

`OfferProcessorImpl`: the operations that were matched with an offer are saved one after
another, what has been saved is launched, and what could not be launched is reverted.
-/

namespace Marathon

open Lib

abbrev OfferID := String

structure Offer where
  id : OfferID

/-- An operation with the source that is told what becomes of it. -/
structure InstanceOpWithSource (Source : Type) where
  source : Source
  op : InstanceOp

structure MatchedInstanceOps (Source : Type) where
  offerId : OfferID
  opsWithSource : List (InstanceOpWithSource Source)
  resendThisOffer : Bool

def MatchedInstanceOps.noMatch {Source : Type} (offerId : OfferID) (resendThisOffer : Bool) :
    MatchedInstanceOps Source :=
  ⟨offerId, [], resendThisOffer⟩

namespace OfferProcessor

inductive RejectReason
  | storageError (e : String)
  | driverUnavailable

def RejectReason.text : RejectReason → String
  | storageError e => "storage error: " ++ e
  | driverUnavailable => "driver unavailable"

/-- What the processor calls, with the outcome of a call to the tracker. -/
inductive Call (Source : Type)
  | process (stateOp : InstanceUpdateOperation) (succeeded : Bool)
  | revert (i : Instance) (succeeded : Bool)
  | forceExpunge (instanceId : InstanceId) (succeeded : Bool)
  | accept (x : InstanceOpWithSource Source)
  | reject (x : InstanceOpWithSource Source) (reason : RejectReason)
  | acceptOffer (offerId : OfferID) (ops : List InstanceOp)
  | declineOffer (offerId : OfferID) (refuseMilliseconds : Option ℤ)

/-- The state of the tracker and the calls made so far. -/
structure World (σ Source : Type) where
  tracker : σ
  calls : List (Call Source)

/-- The matcher, the tracker and the launcher that the processor works with. -/
structure Environment (σ Source : Type) where
  matchOffer : Offer → Except String (MatchedInstanceOps Source)
  instanceTracker : InstanceTracker σ
  /-- `TaskLauncher.acceptOffer`: whether Mesos could be told. -/
  acceptOffer : OfferID → List InstanceOp → Bool
  declineOfferDuration : Option ℤ

variable {σ Source : Type}

def World.note (call : Call Source) (w : World σ Source) : World σ Source :=
  { w with calls := w.calls ++ [call] }

def note (call : Call Source) : Future (World σ Source) Unit := modify (World.note call)

/-- A call to the tracker. -/
def callTracker {α : Type} (call : Bool → Call Source) (f : σ → Except String α × σ) :
    Future (World σ Source) α := fun w =>
  match f w.tracker with
  | (.ok a, tracker) => .ok a ⟨tracker, w.calls ++ [call true]⟩
  | (.error e, tracker) => .error e ⟨tracker, w.calls ++ [call false]⟩

variable (env : Environment σ Source)

/-- The effect of one operation on the state of the tracker undone. -/
def revertTaskOp (op : InstanceOp) : Future (World σ Source) Unit :=
  match op.oldInstance with
  | some existingInstance =>
    callTracker (.revert existingInstance) (env.instanceTracker.revert existingInstance)
  | none => callTracker (.forceExpunge op.instanceId) (env.instanceTracker.forceExpunge op.instanceId)

def revertTaskOps (ops : List InstanceOp) : Future (World σ Source) Unit :=
  tryCatch (ops.forM (revertTaskOp env)) fun _ => throw "while reverting task ops"

/-- An operation that could not be stored is rejected and reverted, and yet it is in the result:
the last `map` of the source puts it there again. -/
def saveTask (x : InstanceOpWithSource Source) :
    Future (World σ Source) (Option (InstanceOpWithSource Source)) := do
  tryCatch (discard <| callTracker (.process x.op.stateOp) (env.instanceTracker.process x.op.stateOp))
    fun e => do
      note (.reject x (.storageError e))
      revertTaskOps env [x.op]
  return some x

def saveTasks (ops : List (InstanceOpWithSource Source)) :
    Future (World σ Source) (List (InstanceOpWithSource Source)) :=
  ops.foldlM (fun savedTasks nextTask => do
    let task ← saveTask env nextTask
    return savedTasks ++ task.toList) []

def declineOffer (offerId : OfferID) (resendThisOffer : Bool) : Future (World σ Source) Unit :=
  note (.declineOffer offerId (if resendThisOffer then none else env.declineOfferDuration))

def acceptOffer (offerId : OfferID) (taskOps : List (InstanceOpWithSource Source)) :
    Future (World σ Source) Unit := do
  let ops := taskOps.map InstanceOpWithSource.op
  note (.acceptOffer offerId ops)
  if env.acceptOffer offerId ops then taskOps.forM fun x => note (.accept x)
  else
    taskOps.forM fun x => note (.reject x .driverUnavailable)
    revertTaskOps env ops

/-- The operations matched with an offer; none when the matching fails. -/
def matched (offer : Offer) : MatchedInstanceOps Source :=
  match env.matchOffer offer with
  | .ok matchedOps => matchedOps
  | .error _ => .noMatch offer.id true

def processOffer (offer : Offer) : Future (World σ Source) Unit := do
  let ⟨offerId, opsWithSource, resendThisOffer⟩ := matched env offer
  let savedTasks ← saveTasks env opsWithSource
  let notAllSaved := savedTasks.length != opsWithSource.length
  match savedTasks with
  | [] => declineOffer env offerId (resendThisOffer || notAllSaved)
  | tasks => acceptOffer env offerId tasks

end OfferProcessor

end Marathon
