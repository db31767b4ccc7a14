import Marathon.Deployment.ScaleLocks
import Marathon.Deployment.ScalingProposition
import Marathon.State.RootGroup
import Marathon.Termination.KillStreamWatcher

/-!
# What a scale check waits for

A scale check changes the goals of the instances it chooses, and waits until the instances that it
has loaded are gone. Its run spec is locked as long as it waits.
-/

namespace Marathon

open Lib KillStreamWatcher

namespace MarathonSchedulerActor

/-- Every scale check has a lock version of its own. -/
structure Versioned (s : State) : Prop where
  le : ∀ o ∈ s.scales, o.lockVersion ≤ s.locks.currentLockVersion
  nodup : (s.scales.map Scale.lockVersion).Nodup

variable {s s' : State} {o : Scale}

theorem Versioned.step {e : Event} (h : Versioned s) (hs : schedulerActor.step s e = some s') :
    Versioned s' := by
  cases e with
  | scaleRunSpec id =>
    cases hs
    unfold scaleRunSpec
    split_ifs
    · constructor
      · intro o ho
        obtain rfl | ho := List.mem_cons.mp ho
        · exact Nat.le_refl _
        · exact Nat.le_succ_of_le (h.le o ho)
      · rw [List.map_cons, List.nodup_cons]
        refine ⟨fun hmem => ?_, h.nodup⟩
        obtain ⟨o, ho, hversion⟩ := List.mem_map.mp hmem
        have hle := h.le o ho
        rw [hversion] at hle
        exact absurd hle (Nat.not_succ_le_self _)
    · exact h
  | deploy plan force =>
    cases hs
    exact ⟨fun o ho => Nat.le_succ_of_le (h.le o ho), h.nodup⟩
  | removeLocks position =>
    obtain ⟨m, -, rfl⟩ := Option.map_eq_some_iff.mp hs
    exact ⟨h.le, h.nodup⟩
  | accepted lockVersion =>
    obtain ⟨-, heq⟩ := Option.ite_none_right_eq_some.mp hs
    cases heq
    exact ⟨h.le, h.nodup⟩
  | startCompleted lockVersion result =>
    obtain ⟨a, -, rfl⟩ := Option.map_eq_some_iff.mp hs
    exact ⟨h.le, h.nodup⟩
  | scaleCompleted lockVersion =>
    obtain ⟨o, -, rfl⟩ := Option.map_eq_some_iff.mp hs
    exact ⟨fun o' ho' => h.le o' (List.mem_of_mem_erase ho'),
      h.nodup.sublist (List.erase_sublist.map _)⟩

theorem versioned (h : schedulerActor.Reachable s) : Versioned s := by
  refine Machine.ReachableIf.invariant (I := Versioned) ?_ ?_ h
  · rintro s ⟨-, -, hscales, -⟩
    constructor <;> simp [hscales]
  · exact fun s e s' hI _ hs => hI.step hs

theorem Versioned.find?_eq_some (h : Versioned s) (ho : o ∈ s.scales) :
    s.scales.find? (·.lockVersion = o.lockVersion) = some o := by
  cases hfind : s.scales.find? (·.lockVersion = o.lockVersion) with
  | none =>
    have hnot := List.find?_eq_none.mp hfind o ho
    simp at hnot
  | some o' =>
    have hversion : o'.lockVersion = o.lockVersion := by simpa using List.find?_some hfind
    rw [List.inj_on_of_nodup_map h.nodup (List.mem_of_find?_eq_some hfind) ho hversion]

theorem unlocks (h : schedulerActor.Reachable s) (ho : o ∈ s.scales) :
    ∃ s', schedulerActor.run s [.scaleCompleted o.lockVersion, .removeLocks s.mailbox.length] =
        some s' ∧ s'.locks.lockedRunSpecs o.runSpecId ≠ some o.lockVersion := by
  have hcompleted : schedulerActor.step s (.scaleCompleted o.lockVersion) =
      some (completeScale s o) := by
    show (s.scales.find? (·.lockVersion = o.lockVersion)).map (completeScale s) = _
    rw [(versioned h).find?_eq_some ho]
    rfl
  have hmail : (completeScale s o).mailbox[s.mailbox.length]? =
      some ⟨{o.runSpecId}, o.lockVersion⟩ := List.getElem?_concat_length
  let unlocked : State :=
    { completeScale s o with
      locks := s.locks.removeLocks {o.runSpecId} o.lockVersion
      mailbox := (completeScale s o).mailbox.eraseIdx s.mailbox.length }
  have hremoved : schedulerActor.step (completeScale s o) (.removeLocks s.mailbox.length) =
      some unlocked := by
    show ((completeScale s o).mailbox[s.mailbox.length]?).map _ = _
    rw [hmail]
    rfl
  refine ⟨unlocked, ?_, fun hlocked => ?_⟩
  · simp only [Machine.run, Machine.runIf, if_true, hcompleted, hremoved, Option.bind_some]
  · obtain ⟨-, hkept⟩ := lockedRunSpecs_removeLocks.mp hlocked
    exact hkept ⟨Finset.mem_singleton_self _, rfl⟩

end MarathonSchedulerActor

namespace SchedulerActions

/-- What surrounds a scale check. A call is answered with whether it has succeeded, when it is. -/
structure Surroundings where
  /-- The instances that the tracker has when the watch subscribes to it. -/
  snapshot : InstancesById
  updates : List InstanceChange
  setGoal : InstanceId → Goal → Option Bool
  add : RunSpec → ℤ → Option Bool

/-- One future, and then another one if the first has succeeded. -/
def andThen : Option Bool → Option Bool → Option Bool
  | some true, after => after
  | some false, _ => some false
  | none, _ => none

/-- `Future.sequence`. -/
def sequence (futures : List (Option Bool)) : Option Bool := futures.foldr andThen (some true)

/-- The instances are watched that were loaded, whichever of them are chosen. -/
def instancesAreTerminal (w : Surroundings) (instances : List Instance) : Option Bool :=
  if ∅ ∈ watchForKilledTasks w.snapshot w.updates instances then some true else none

variable (order : InstancesById.Order) (now : Timestamp)
  (selectInstancesToKill : RunSpec → List Instance → ℤ → List Instance)

def proposition (runSpec : RunSpec) (instances : List Instance) : ScalingProposition :=
  .propose order now instances [] (selectInstancesToKill runSpec) runSpec.instances
    runSpec.killSelection

/-- Whether the run spec has the right number of instances then, as far as that is known. -/
def scale (runSpec : RunSpec) (instances : List Instance) (w : Surroundings) : Option Bool :=
  let p := proposition order now selectInstancesToKill runSpec instances
  let changeGoalsFuture := sequence <| p.toDecommission.map fun i =>
    w.setGoal i.instanceId (if i.hasReservation then .stopped else .decommissioned)
  andThen
    (if p.toDecommission.isEmpty then some true
      else andThen changeGoalsFuture (instancesAreTerminal w instances))
    (if 0 < p.toStart then w.add runSpec p.toStart else some true)

/-- The goals are changed and the instances added. -/
structure Surroundings.Answered (w : Surroundings) : Prop where
  setGoal : ∀ id goal, w.setGoal id goal = some true
  add : ∀ runSpec toStart, w.add runSpec toStart = some true

/-- The instance is terminal, has other tasks, or is deleted. -/
def Surroundings.Finishes (w : Surroundings) (instances : List Instance) (i : Instance) : Prop :=
  let watched := instanceTasks instances
  let terminal := considerTerminalIfConditionTerminalOrTasksReplaced
  (∀ j ∈ w.snapshot.values, j.instanceId = i.instanceId → isPending watched terminal j = false) ∨
    ∃ change ∈ w.updates, settles watched terminal change ∧ change.id = i.instanceId

variable {order : InstancesById.Order} {now : Timestamp}
  {selectInstancesToKill : RunSpec → List Instance → ℤ → List Instance} {runSpec : RunSpec}
  {instances : List Instance} {w : Surroundings}

theorem sequence_of_forall {futures : List (Option Bool)} (h : ∀ f ∈ futures, f = some true) :
    sequence futures = some true := by
  induction futures with
  | nil => rfl
  | cons f futures ih =>
    obtain ⟨rfl, hrest⟩ := List.forall_mem_cons.mp h
    exact ih hrest

theorem scale_eq_some_true (h : w.Answered) :
    scale order now selectInstancesToKill runSpec instances w = some true ↔
      (proposition order now selectInstancesToKill runSpec instances).toDecommission = [] ∨
        ∅ ∈ watchForKilledTasks w.snapshot w.updates instances := by
  have hgoals : sequence ((proposition order now selectInstancesToKill runSpec
      instances).toDecommission.map fun i =>
        w.setGoal i.instanceId (if i.hasReservation then .stopped else .decommissioned)) =
      some true := by
    apply sequence_of_forall
    intro f hf
    obtain ⟨i, -, rfl⟩ := List.mem_map.mp hf
    exact h.setGoal _ _
  unfold scale
  simp only [hgoals, h.add, ite_self, List.isEmpty_iff]
  by_cases hempty : (proposition order now selectInstancesToKill runSpec
      instances).toDecommission = []
  · simp [hempty, andThen]
  · simp only [hempty, if_false, false_or, andThen, instancesAreTerminal]
    split_ifs with hwatch <;> simp [hwatch]

/-- **A scale check completes whenever the chosen instances finish, and gives its lock back, if and
only if it chooses none or all the instances that its watch finds alive.** -/
theorem scale_completes_iff (order : InstancesById.Order) (now : Timestamp)
    (selectInstancesToKill : RunSpec → List Instance → ℤ → List Instance) (runSpec : RunSpec)
    (instances : List Instance) (snapshot : InstancesById) :
    let chosen := (proposition order now selectInstancesToKill runSpec instances).toDecommission
    (∀ w : Surroundings, w.snapshot = snapshot → w.Answered →
      (∀ i ∈ chosen, w.Finishes instances i) →
        scale order now selectInstancesToKill runSpec instances w = some true ∧
        ∀ s, MarathonSchedulerActor.schedulerActor.Reachable s → ∀ o ∈ s.scales,
          o.runSpecId = runSpec.id →
            ∃ s', MarathonSchedulerActor.schedulerActor.run s
                [.scaleCompleted o.lockVersion, .removeLocks s.mailbox.length] = some s' ∧
              s'.locks.lockedRunSpecs runSpec.id ≠ some o.lockVersion) ↔
    (chosen = [] ∨ ∀ j ∈ snapshot.values,
      isPending (instanceTasks instances) considerTerminalIfConditionTerminalOrTasksReplaced j →
        ∃ i ∈ chosen, i.instanceId = j.instanceId) := by
  intro chosen
  constructor
  · intro h
    rw [or_iff_not_imp_left]
    intro hchosen j hj hpending
    -- the chosen instances are deleted, and nothing else happens
    let w : Surroundings :=
      { snapshot := snapshot
        updates := chosen.map .instanceDeleted
        setGoal := fun _ _ => some true
        add := fun _ _ => some true }
    have hanswered : w.Answered := ⟨fun _ _ => rfl, fun _ _ => rfl⟩
    have hfinishes : ∀ i ∈ chosen, w.Finishes instances i := by
      intro i hi
      cases hwatched : (instanceTasks instances).lookup i.instanceId with
      | none =>
        left
        intro j _ hid
        rw [isPending, hid, hwatched, Option.any_none]
      | some taskIds =>
        refine .inr ⟨.instanceDeleted i, List.mem_map_of_mem hi, ?_, rfl⟩
        rw [settles, hwatched, Option.isSome_some]
    have hscale := (scale_eq_some_true hanswered).mp (h w rfl hanswered hfinishes).1
    have hcompletes := empty_mem_emitPendingTerminal.mp (hscale.resolve_left hchosen)
    obtain ⟨change, hchange, -, hid⟩ := hcompletes j hj hpending
    obtain ⟨i, hi, rfl⟩ := List.mem_map.mp hchange
    exact ⟨i, hi, hid⟩
  · intro hcond w hsnapshot hanswered hfinishes
    refine ⟨(scale_eq_some_true hanswered).mpr (hcond.imp_right fun hall => ?_), ?_⟩
    · refine empty_mem_emitPendingTerminal.mpr fun j hj hpending => ?_
      obtain ⟨i, hi, hid⟩ := hall j (hsnapshot ▸ hj) hpending
      obtain hgone | ⟨change, hchange, hsettles, hchangeid⟩ := hfinishes i hi
      · rw [hgone j hj hid.symm] at hpending
        cases hpending
      · exact ⟨change, hchange, hsettles, hchangeid.trans hid⟩
    · intro s hs o ho hid
      rw [← hid]
      exact MarathonSchedulerActor.unlocks hs ho

namespace TwoForOne

def web : RunSpec := .app (plainApp ⟨["web"]⟩ ∅)

/-- An instance that has been running, with one task. -/
def running (n : BitVec 128) : Instance :=
  let instanceId : InstanceId := ⟨⟨["web"]⟩, .instance, ⟨n⟩⟩
  let taskId : TaskId := .ofContainer instanceId none
  let status : Task.Status := ⟨⟨0⟩, some ⟨1⟩, none, .running, ⟨"agent", [], []⟩⟩
  { instanceId := instanceId
    agentInfo := none
    state := ⟨.running, ⟨1⟩, some ⟨1⟩, none, .running⟩
    tasksMap := .ofBindings [(taskId, ⟨taskId, ⟨0⟩, status⟩)]
    runSpec := web
    reservation := none
    role := "*" }

def loaded : List Instance := [running 0, running 1]

def hashOrder : InstancesById.Order := ⟨Keyed.values, fun _ => .refl _⟩

/-- One of the two instances is chosen and killed, the other one keeps running. -/
def surroundings : Surroundings where
  snapshot := .ofInstances loaded
  updates := (proposition hashOrder ⟨2⟩ (fun _ _ _ => []) web loaded).toDecommission.map
    .instanceDeleted
  setGoal _ _ := some true
  add _ _ := some true

theorem scale_waits : scale hashOrder ⟨2⟩ (fun _ _ _ => []) web loaded surroundings = none := by
  decide +kernel

/-- A scale check that is answered may wait for ever for an instance that it leaves alone. -/
theorem not_forall_completes :
    ¬∀ (order : InstancesById.Order) now selectInstancesToKill runSpec instances
      (w : Surroundings), w.Answered →
      (∀ i ∈ (proposition order now selectInstancesToKill runSpec instances).toDecommission,
        w.Finishes instances i) →
      scale order now selectInstancesToKill runSpec instances w = some true := by
  intro hall
  have hwatched : ((proposition hashOrder ⟨2⟩ (fun _ _ _ => []) web loaded).toDecommission.all fun i =>
      ((instanceTasks loaded).lookup i.instanceId).isSome) = true := by
    decide +kernel
  have hcompletes := hall hashOrder ⟨2⟩ (fun _ _ _ => []) web loaded surroundings
    ⟨fun _ _ => rfl, fun _ _ => rfl⟩ fun i hi =>
      .inr ⟨.instanceDeleted i, List.mem_map_of_mem hi, List.all_eq_true.mp hwatched i hi, rfl⟩
  rw [scale_waits] at hcompletes
  cases hcompletes

end TwoForOne

end SchedulerActions

end Marathon
