import Marathon.LaunchQueue.TaskLaunches

/-!
# One launch at a time

The launcher marks an instance as provisioned when it issues a launch, so that the instance is not
launched twice. The mark is lost when the instance is fetched from the tracker before the launch
has been persisted there.
-/

namespace Marathon.LaunchQueue.TaskLaunches

open Lib State Shop

/-- A launch of the instance has been issued and is not over. -/
def Outstanding (s : State) (id : InstanceId) : Prop :=
  ∃ o ∈ s.ops, o.op.instanceId = id ∧ o.op.isLaunch ∧ o.status ≠ .ended

/-- The tracker does not hold an instance as scheduled when a launch of it has been persisted. -/
def Saved (s : State) : Prop :=
  ∀ o ∈ s.ops, o.op.isLaunch → o.status = .persisted →
    ∀ i, s.tracker.lookup o.op.instanceId = some i → ¬i.isScheduled

/-- An instance with an outstanding launch is marked: the launcher does not have it as scheduled,
and is not going to. -/
structure Marked (s : State) : Prop where
  marked : ∀ i, s.launcher.instanceMap.lookup i.instanceId = some i →
    Outstanding s i.instanceId → ¬i.isScheduled
  answered : ∀ i, s.answer = some (.synchronizedInstance (some i)) →
    Outstanding s i.instanceId → ¬i.isScheduled
  saved : Saved s
  idle : s.launcher.receive = .active → s.answer = none
  loading : s.launcher.receive = .loading → s.ops = []

variable {s s' : State} {id : InstanceId} {effect : InstanceUpdateEffect}

/-! ## The tracker -/

variable {stateOp : InstanceUpdateOperation} {o : IssuedOp} {position : ℕ}

/-- Something happens to the operations and in the tracker, not to the launcher. -/
theorem Marked.changed (h : Marked s) (hlauncher : s'.launcher = s.launcher)
    (hanswer : s'.answer = s.answer) (houtstanding : ∀ id, Outstanding s' id → Outstanding s id)
    (hsaved : Saved s') (hops : s.ops = [] → s'.ops = []) : Marked s' where
  marked := fun i hi hout => h.marked i (hlauncher ▸ hi) (houtstanding _ hout)
  answered := fun i hi hout => h.answered i (hanswer ▸ hi) (houtstanding _ hout)
  saved := hsaved
  idle := by
    rw [hlauncher, hanswer]
    exact h.idle
  loading := by
    rw [hlauncher]
    exact fun hloading => hops (h.loading hloading)

/-- A message leaves the marks of the active launcher where they are. -/
theorem Marked.received (h : Marked s) (hactive : s.launcher.receive = .active)
    (hmap : ∀ i, s'.launcher.instanceMap.lookup i.instanceId = some i →
      s.launcher.instanceMap.lookup i.instanceId = some i)
    (hreceive : s'.launcher.receive ≠ .loading) (hops : s'.ops = s.ops)
    (htracker : s'.tracker = s.tracker) (hanswer : s'.answer = s.answer) : Marked s' where
  marked := fun i hi hout => by
    unfold Outstanding at hout
    rw [hops] at hout
    exact h.marked i (hmap i hi) hout
  answered := fun i hi => by
    rw [hanswer, h.idle hactive] at hi
    cases hi
  saved := by
    unfold Saved
    rw [hops, htracker]
    exact h.saved
  idle := fun _ => hanswer.trans (h.idle hactive)
  loading := fun hloading => absurd hloading hreceive

namespace Relaunched

/-! The launcher loads an instance, and is told of it after it has issued a launch. -/

def events : List Event :=
  [.process (.schedule (scheduled 0)), .read, .answered, .getDelay 0, .deliver 1, offer, .deliver 0,
    .read, .answered]

/-- The operations that are issued, and what has become of them. -/
def issued (s : State) : List (InstanceId × Bool × OpStatus) :=
  s.ops.map fun o => (o.op.instanceId, o.op.isLaunch, o.status)

end Relaunched

end Marathon.LaunchQueue.TaskLaunches
