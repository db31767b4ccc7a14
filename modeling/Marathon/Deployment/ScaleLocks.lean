import Marathon.Deployment.MarathonSchedulerActor

/-!
# Scale checks and deployments

A scale check should not start while a deployment of the run spec or another scale check is in
progress. The lock of a run spec is one version: who locks it again takes it from whoever has it,
and releases it for both.
-/

namespace Marathon.MarathonSchedulerActor

open Lib Deployment

/-- An accepted deployment or a scale operation of the run spec is not completed. -/
def Live (s : State) (id : AbsolutePathId) : Prop :=
  (∃ a ∈ s.attempts, a.accepted = true ∧ id ∈ a.plan.affectedRunSpecIds) ∨
    ∃ o ∈ s.scales, o.runSpecId = id

variable {s s' : State} {id : AbsolutePathId}

variable {l : Locks} {ids : Finset AbsolutePathId}

theorem lockedRunSpecs_removeLocks {lockVersion v : ℕ} :
    (l.removeLocks ids lockVersion).lockedRunSpecs id = some v ↔
      l.lockedRunSpecs id = some v ∧ ¬ (id ∈ ids ∧ v = lockVersion) := by
  dsimp only [Locks.removeLocks]
  by_cases h : id ∈ ids ∧ l.lockedRunSpecs id = some lockVersion
  · rw [if_pos h, h.2]
    apply iff_of_false
    · exact fun hnone => Option.some_ne_none v hnone.symm
    · rintro ⟨hv, hnot⟩
      exact hnot ⟨h.1, (Option.some.inj hv).symm⟩
  · rw [if_neg h]
    constructor
    · intro hv
      refine ⟨hv, fun hmem => h ⟨hmem.1, ?_⟩⟩
      rw [hv, hmem.2]
    · exact And.left

/-! ## What is at work after a step -/

namespace Rejected

/-! The second deployment of a run spec is rejected while the first one runs. -/

def app : AbsolutePathId := ⟨["app"]⟩

def plan (id : String) : Plan := ⟨id, {app}⟩

def leader : State := ⟨⟨fun _ => none, 0⟩, [], [], []⟩

def events : List Event :=
  [.deploy (plan "first") false, .accepted 1, .deploy (plan "second") false,
    .startCompleted 2 .lockConflict, .removeLocks 0]

/-- The first deployment runs, and nothing is locked any more. -/
def unlocked : State where
  locks := (((leader.locks.addLocks {app}).addLocks {app}).removeLocks {app} 2)
  attempts := [⟨1, plan "first", true⟩]
  scales := []
  mailbox := []

end Rejected

end Marathon.MarathonSchedulerActor
