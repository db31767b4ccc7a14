import Marathon.Instance.LiveTasks

/-!
# The health of an instance

The health of an instance is computed from its tasks one after the other, and the first unhealthy
or pending task decides. The tasks come in the order of a map.
-/

namespace Marathon

namespace InstanceState

variable {tasks : List Task} {foundHealthy : Option Bool}

/-- The health as it is documented: unhealthy if a running task is, otherwise unknown if a task is
neither running nor finished, otherwise healthy if a running task is. -/
def documentedHealth (tasks : List Task) : Option Bool :=
  if tasks.any isRunningUnhealthy then some false
  else if tasks.any isPending then none
  else if tasks.any isRunningHealthy then some true
  else none

theorem documentedHealth_perm {tasks' : List Task} (h : tasks'.Perm tasks) :
    documentedHealth tasks' = documentedHealth tasks := by
  rw [documentedHealth, documentedHealth, h.any_eq, h.any_eq, h.any_eq]

theorem computeHealth_of_settled (hunhealthy : ¬tasks.any isRunningUnhealthy)
    (hpending : ¬tasks.any isPending) :
    computeHealth foundHealthy tasks =
      if tasks.any isRunningHealthy then some true else foundHealthy := by
  induction tasks generalizing foundHealthy with
  | nil => rfl
  | cons head tail ih =>
    rw [List.any_cons, Bool.or_eq_true, not_or] at hunhealthy hpending
    rw [computeHealth, if_neg hunhealthy.1, if_neg hpending.1, List.any_cons]
    by_cases hhealthy : isRunningHealthy head
    · rw [if_pos hhealthy, ih hunhealthy.2 hpending.2, hhealthy, Bool.true_or, if_pos rfl, ite_self]
    · rw [if_neg hhealthy, ih hunhealthy.2 hpending.2, Bool.eq_false_of_not_eq_true hhealthy,
        Bool.false_or]

theorem computeHealth_of_unhealthy (hunhealthy : tasks.any isRunningUnhealthy)
    (hpending : ¬tasks.any isPending) : computeHealth foundHealthy tasks = some false := by
  induction tasks generalizing foundHealthy with
  | nil => cases hunhealthy
  | cons head tail ih =>
    rw [List.any_cons, Bool.or_eq_true, not_or] at hpending
    rw [List.any_cons, Bool.or_eq_true] at hunhealthy
    rw [computeHealth]
    by_cases hhead : isRunningUnhealthy head
    · rw [if_pos hhead]
    · have htail := hunhealthy.resolve_left hhead
      rw [if_neg hhead, if_neg hpending.1, ih htail hpending.2, ih htail hpending.2, ite_self]

theorem computeHealth_of_pending (hunhealthy : ¬tasks.any isRunningUnhealthy)
    (hpending : tasks.any isPending) : computeHealth foundHealthy tasks = none := by
  induction tasks generalizing foundHealthy with
  | nil => cases hpending
  | cons head tail ih =>
    rw [List.any_cons, Bool.or_eq_true, not_or] at hunhealthy
    rw [List.any_cons, Bool.or_eq_true] at hpending
    rw [computeHealth, if_neg hunhealthy.1]
    by_cases hhead : isPending head
    · rw [if_pos hhead]
    · have htail := hpending.resolve_left hhead
      rw [if_neg hhead, ih hunhealthy.2 htail, ih hunhealthy.2 htail, ite_self]

theorem computeHealth_eq_documentedHealth
    (h : ¬(tasks.any isRunningUnhealthy = true ∧ tasks.any isPending = true)) :
    computeHealth none tasks = documentedHealth tasks := by
  rw [documentedHealth]
  by_cases hunhealthy : tasks.any isRunningUnhealthy = true
  · have hpending : ¬tasks.any isPending = true := fun hpending => h ⟨hunhealthy, hpending⟩
    rw [if_pos hunhealthy, computeHealth_of_unhealthy hunhealthy hpending]
  · rw [if_neg hunhealthy]
    by_cases hpending : tasks.any isPending = true
    · rw [if_pos hpending, computeHealth_of_pending hunhealthy hpending]
    · rw [if_neg hpending, computeHealth_of_settled hunhealthy hpending]

theorem not_isPending_of_isRunningUnhealthy {task : Task} (h : isRunningUnhealthy task = true) :
    ¬isPending task = true := by
  rw [isRunningUnhealthy, Bool.and_eq_true, Task.isRunning] at h
  intro hpending
  rw [isPending, Bool.and_eq_true, bne_iff_ne] at hpending
  exact hpending.1 (by simpa using h.1)

/-- The health is the documented one in every order of the tasks exactly if there are not both
unhealthy and pending tasks: a pending task that comes first hides the unhealthy one. -/
theorem computeHealth_perm_iff (tasks : List Task) :
    (∀ tasks' : List Task, tasks'.Perm tasks → computeHealth none tasks' = documentedHealth tasks) ↔
      ¬((∃ task ∈ tasks, isRunningUnhealthy task = true) ∧ ∃ task ∈ tasks, isPending task = true) := by
  constructor
  · rintro hall ⟨⟨unhealthy, hmem, hunhealthy⟩, pending, hpendingMem, hpending⟩
    have hfirst := hall (pending :: tasks.erase pending) (List.perm_cons_erase hpendingMem).symm
    have hhead : ¬isRunningUnhealthy pending = true := fun h =>
      not_isPending_of_isRunningUnhealthy h hpending
    have hany : tasks.any isRunningUnhealthy = true :=
      List.any_eq_true.mpr ⟨unhealthy, hmem, hunhealthy⟩
    rw [computeHealth, if_neg hhead, if_pos hpending, documentedHealth, if_pos hany] at hfirst
    cases hfirst
  · intro hnot tasks' hperm
    rw [← documentedHealth_perm hperm]
    refine computeHealth_eq_documentedHealth ?_
    rw [hperm.any_eq, hperm.any_eq, List.any_eq_true, List.any_eq_true]
    exact hnot

/-! ## A task that hides another one -/

namespace InstanceHealth

/-- The left task is staging, the right one is running and unhealthy. -/
def staging : Task := ⟨Twins.left, ⟨0⟩, ⟨⟨0⟩, none, none, .staging, ⟨"agent", [], []⟩⟩⟩

def unhealthy : Task :=
  ⟨Twins.right, ⟨0⟩, ⟨⟨0⟩, some ⟨1⟩,
    some { plainStatus Twins.right .running with healthy := some false }, .running,
    ⟨"agent", [], []⟩⟩⟩

theorem not_forall_documentedHealth :
    ¬∀ tasks tasks' : List Task, tasks'.Perm tasks →
      computeHealth none tasks' = computeHealth none tasks ∧
        computeHealth none tasks = documentedHealth tasks := by
  intro hall
  have hsame := (hall [staging, unhealthy] [staging, unhealthy] (.refl _)).2
  revert hsame
  decide

end InstanceHealth

end InstanceState

end Marathon
