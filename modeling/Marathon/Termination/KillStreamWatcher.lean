import Marathon.Deployment.TaskReplaceActor
import Marathon.Lib.Keyed

/-!
# Watching instances until they are gone

`KillStreamWatcher` reads a snapshot of the tracker and the changes after it, and emits which of
the watched instances are still there. The stream completes when none is left.
-/

namespace Marathon

open Lib Deployment

/-- What the tracker tells its subscribers. A deletion comes with the instance as it was last. -/
inductive InstanceChange
  | instanceUpdated (i : Instance)
  | instanceDeleted (i : Instance)

namespace InstanceChange

def id : InstanceChange → InstanceId
  | instanceUpdated i | instanceDeleted i => i.instanceId

/-- The instances after the change. -/
def apply (instances : Keyed Instance.instanceId) : InstanceChange → Keyed Instance.instanceId
  | instanceUpdated i => instances.insert i
  | instanceDeleted i => instances.erase i.instanceId

end InstanceChange

namespace KillStreamWatcher

/-- Whether an instance is gone, given the tasks that it had when the watch began. -/
abbrev TerminalPredicate := Instance → List TaskId → Bool

def considerTerminalIfConditionTerminalOrTasksReplaced : TerminalPredicate := fun i taskIds =>
  considerTerminal i.state.condition || i.tasks.all fun task => task.taskId ∉ taskIds

def considerTerminalIfConditionTerminalAndGoalDecommissioned : TerminalPredicate := fun i _ =>
  i.state.goal = .decommissioned && considerTerminal i.state.condition

/-- The tasks of the watched instances. -/
def instanceTasks (instances : List Instance) : Dict InstanceId (List TaskId) :=
  Dict.ofBindings (instances.map fun i => (i.instanceId, i.tasks.map (·.taskId)))

variable (watched : Dict InstanceId (List TaskId)) (terminal : TerminalPredicate)

/-- The instance is watched and has not gone. -/
def isPending (i : Instance) : Bool :=
  (watched.lookup i.instanceId).any fun taskIds => !terminal i taskIds

def pendingInstanceIds (snapshot : Keyed Instance.instanceId) : Finset InstanceId :=
  ((snapshot.values.filter (isPending watched terminal)).map (·.instanceId)).toFinset

/-- The change tells that its instance has gone. -/
def settles : InstanceChange → Bool
  | .instanceDeleted i => (watched.lookup i.instanceId).isSome
  | .instanceUpdated i => (watched.lookup i.instanceId).any fun taskIds => terminal i taskIds

/-- What is still there after a change; one of an instance that is not watched is filtered out. -/
def next (remaining : Finset InstanceId) (change : InstanceChange) : Finset InstanceId :=
  if settles watched terminal change then remaining.erase change.id else remaining

/-- What is emitted, beginning with `remaining`: nothing comes after the empty set. -/
def scan (remaining : Finset InstanceId) : List InstanceChange → List (Finset InstanceId)
  | [] => [remaining]
  | change :: updates =>
    if remaining.Nonempty then
      if (watched.lookup change.id).isSome then
        remaining :: scan (next watched terminal remaining change) updates
      else scan remaining updates
    else [remaining]

variable {watched : Dict InstanceId (List TaskId)} {terminal : TerminalPredicate}
  {remaining : Finset InstanceId} {id : InstanceId}

theorem mem_pendingInstanceIds {snapshot : Keyed Instance.instanceId} :
    id ∈ pendingInstanceIds watched terminal snapshot ↔
      ∃ i ∈ snapshot.values, isPending watched terminal i ∧ i.instanceId = id := by
  simp [pendingInstanceIds, and_assoc]

theorem next_of_unwatched {change : InstanceChange} (h : watched.lookup change.id = none) :
    next watched terminal remaining change = remaining := by
  cases change <;> simp_all [next, settles, InstanceChange.id]

theorem mem_next {change : InstanceChange} :
    id ∈ next watched terminal remaining change ↔
      id ∈ remaining ∧ ¬(settles watched terminal change ∧ change.id = id) := by
  unfold next
  split_ifs with h
  · simp [h, and_comm, eq_comm]
  · simp [h]

theorem mem_foldl_next (updates : List InstanceChange) :
    id ∈ updates.foldl (next watched terminal) remaining ↔
      id ∈ remaining ∧ ∀ change ∈ updates, ¬(settles watched terminal change ∧ change.id = id) := by
  induction updates generalizing remaining with
  | nil => simp
  | cons change updates ih => rw [List.foldl_cons, ih, mem_next, List.forall_mem_cons, and_assoc]

theorem foldl_next_subset (updates : List InstanceChange) :
    updates.foldl (next watched terminal) remaining ⊆ remaining :=
  fun _ hid => ((mem_foldl_next updates).mp hid).1

theorem foldl_next_empty (updates : List InstanceChange) :
    updates.foldl (next watched terminal) ∅ = ∅ :=
  Finset.subset_empty.mp (foldl_next_subset updates)

theorem scan_empty (updates : List InstanceChange) : scan watched terminal ∅ updates = [∅] := by
  cases updates <;> simp [scan]

theorem scan_cons (h : remaining.Nonempty) (change : InstanceChange) (updates : List InstanceChange) :
    scan watched terminal remaining (change :: updates) =
      (if (watched.lookup change.id).isSome then [remaining] else []) ++
        scan watched terminal (next watched terminal remaining change) updates := by
  rw [scan, if_pos h]
  split_ifs with hwatched
  · rfl
  · rw [next_of_unwatched (Option.not_isSome_iff_eq_none.mp hwatched), List.nil_append]

theorem empty_mem_scan (updates : List InstanceChange) :
    ∅ ∈ scan watched terminal remaining updates ↔
      updates.foldl (next watched terminal) remaining = ∅ := by
  induction updates generalizing remaining with
  | nil => simp [scan, eq_comm]
  | cons change updates ih =>
    obtain rfl | hnonempty := remaining.eq_empty_or_nonempty
    · rw [scan_empty, foldl_next_empty]
      simp
    · rw [scan_cons hnonempty, List.mem_append, List.foldl_cons, ih]
      split_ifs <;> simp [hnonempty.ne_empty.symm]

theorem getLast?_scan (updates : List InstanceChange) :
    (scan watched terminal remaining updates).getLast? =
      some (updates.foldl (next watched terminal) remaining) := by
  induction updates generalizing remaining with
  | nil => rfl
  | cons change updates ih =>
    obtain rfl | hnonempty := remaining.eq_empty_or_nonempty
    · rw [scan_empty, foldl_next_empty]
      rfl
    · rw [scan_cons hnonempty, List.getLast?_append, ih]
      rfl

/-- A change of a watched instance is followed by a set as long as something is there. -/
theorem scan_append (updates : List InstanceChange) (change : InstanceChange) :
    scan watched terminal remaining (updates ++ [change]) =
      scan watched terminal remaining updates ++
        if (updates.foldl (next watched terminal) remaining).Nonempty ∧
            (watched.lookup change.id).isSome then
          [(updates ++ [change]).foldl (next watched terminal) remaining]
        else [] := by
  induction updates generalizing remaining with
  | nil =>
    obtain rfl | hnonempty := remaining.eq_empty_or_nonempty
    · simp [scan_empty]
    · rw [List.nil_append, scan_cons hnonempty]
      split_ifs <;> simp_all [scan, next_of_unwatched]
  | cons first updates ih =>
    obtain rfl | hnonempty := remaining.eq_empty_or_nonempty
    · rw [scan_empty, scan_empty, foldl_next_empty]
      rfl
    · rw [List.cons_append, scan_cons hnonempty, scan_cons hnonempty, ih, List.append_assoc]
      rfl

theorem subset_of_mem_scan {updates : List InstanceChange} {set : Finset InstanceId}
    (h : set ∈ scan watched terminal remaining updates) : set ⊆ remaining := by
  induction updates generalizing remaining with
  | nil => exact (List.mem_singleton.mp h).subset
  | cons change updates ih =>
    obtain rfl | hnonempty := remaining.eq_empty_or_nonempty
    · rw [scan_empty] at h
      exact (List.mem_singleton.mp h).subset
    · rw [scan_cons hnonempty, List.mem_append] at h
      rcases h with h | h
      · split_ifs at h with hwatched
        · exact (List.mem_singleton.mp h).subset
        · cases h
      · exact (ih h).trans (foldl_next_subset [change])

theorem pairwise_scan (updates : List InstanceChange) :
    (scan watched terminal remaining updates).Pairwise fun set later => later ⊆ set := by
  induction updates generalizing remaining with
  | nil => exact List.pairwise_singleton _ _
  | cons change updates ih =>
    obtain rfl | hnonempty := remaining.eq_empty_or_nonempty
    · rw [scan_empty]
      exact List.pairwise_singleton _ _
    · rw [scan_cons hnonempty]
      split_ifs
      · exact List.pairwise_cons.mpr
          ⟨fun set h => (subset_of_mem_scan h).trans (foldl_next_subset [change]), ih⟩
      · exact ih

end KillStreamWatcher

namespace KillStreamWatcher

/-- The sets that are emitted for the changes that have come. -/
def emitPendingTerminal (snapshot : Keyed Instance.instanceId) (updates : List InstanceChange)
    (instances : List Instance) (terminal : TerminalPredicate) : List (Finset InstanceId) :=
  scan (instanceTasks instances) terminal
    (pendingInstanceIds (instanceTasks instances) terminal snapshot) updates

def watchForKilledTasks (snapshot : Keyed Instance.instanceId) (updates : List InstanceChange)
    (instances : List Instance) : List (Finset InstanceId) :=
  emitPendingTerminal snapshot updates instances considerTerminalIfConditionTerminalOrTasksReplaced

def watchForDecommissionedInstances (snapshot : Keyed Instance.instanceId)
    (updates : List InstanceChange) (instances : List Instance) : List (Finset InstanceId) :=
  emitPendingTerminal snapshot updates instances
    considerTerminalIfConditionTerminalAndGoalDecommissioned

/-- **The stream completes when every watched instance that the snapshot has has gone.** -/
theorem empty_mem_emitPendingTerminal {snapshot : Keyed Instance.instanceId}
    {updates : List InstanceChange} {instances : List Instance} {terminal : TerminalPredicate} :
    ∅ ∈ emitPendingTerminal snapshot updates instances terminal ↔
      ∀ i ∈ snapshot.values, isPending (instanceTasks instances) terminal i →
        ∃ change ∈ updates, settles (instanceTasks instances) terminal change ∧
          change.id = i.instanceId := by
  rw [emitPendingTerminal, empty_mem_scan, Finset.eq_empty_iff_forall_notMem]
  simp only [mem_foldl_next, mem_pendingInstanceIds, not_and, not_forall, not_not]
  constructor
  · intro h i hi hpending
    obtain ⟨change, hchange, hsettles, hid⟩ := h i.instanceId ⟨i, hi, hpending, rfl⟩
    exact ⟨change, hchange, hsettles, hid⟩
  · rintro h id ⟨i, hi, hpending, rfl⟩
    obtain ⟨change, hchange, hsettles, hid⟩ := h i hi hpending
    exact ⟨change, hchange, hsettles, hid⟩

/-- The instance is watched and in the snapshot, and neither there nor in a change since then has
it been terminal or deleted. -/
def Waits (snapshot : Keyed Instance.instanceId) (updates : List InstanceChange)
    (instances : List Instance) (terminal : TerminalPredicate) (id : InstanceId) : Prop :=
  ∃ taskIds, (instanceTasks instances).lookup id = some taskIds ∧
    (∃ i ∈ snapshot.values, i.instanceId = id ∧ ¬terminal i taskIds) ∧
    ∀ change ∈ updates, change.id = id → ∃ i, change = .instanceUpdated i ∧ ¬terminal i taskIds

theorem not_settles_iff {watched : Dict InstanceId (List TaskId)} {terminal : TerminalPredicate}
    {change : InstanceChange} {taskIds : List TaskId}
    (h : watched.lookup change.id = some taskIds) :
    ¬settles watched terminal change ↔
      ∃ i, change = .instanceUpdated i ∧ ¬terminal i taskIds := by
  cases change with
  | instanceUpdated i =>
    have hi : watched.lookup i.instanceId = some taskIds := h
    simp [settles, hi]
  | instanceDeleted i =>
    have hi : watched.lookup i.instanceId = some taskIds := h
    simp [settles, hi]

theorem mem_left_iff {snapshot : Keyed Instance.instanceId} {updates : List InstanceChange}
    {instances : List Instance} {terminal : TerminalPredicate} {id : InstanceId} :
    id ∈ updates.foldl (next (instanceTasks instances) terminal)
        (pendingInstanceIds (instanceTasks instances) terminal snapshot) ↔
      Waits snapshot updates instances terminal id := by
  rw [mem_foldl_next, mem_pendingInstanceIds, Waits]
  cases htasks : (instanceTasks instances).lookup id with
  | none =>
    constructor
    · rintro ⟨⟨i, -, hpending, rfl⟩, -⟩
      rw [isPending, htasks] at hpending
      cases hpending
    · rintro ⟨taskIds, heq, -⟩
      cases heq
  | some taskIds =>
    have hchange : ∀ change : InstanceChange,
        ¬(settles (instanceTasks instances) terminal change ∧ change.id = id) ↔
          (change.id = id → ∃ i, change = .instanceUpdated i ∧ ¬terminal i taskIds) := by
      intro change
      rw [not_and']
      exact forall_congr' fun hid => not_settles_iff (hid ▸ htasks)
    simp only [hchange, Option.some.injEq, exists_eq_left']
    apply and_congr_left'
    apply exists_congr
    intro i
    constructor
    · rintro ⟨hi, hpending, rfl⟩
      rw [isPending, htasks] at hpending
      exact ⟨hi, rfl, by simpa using hpending⟩
    · rintro ⟨hi, rfl, hpending⟩
      refine ⟨hi, ?_, rfl⟩
      rw [isPending, htasks]
      simpa using hpending

/-- What the stream emits for the changes: the last set is what still waits, the sets shrink, and
a change of a watched instance adds one until the empty set completes the stream. -/
structure EmitsWaiting (snapshot : Keyed Instance.instanceId) (updates : List InstanceChange)
    (instances : List Instance) (terminal : TerminalPredicate)
    (sets : List (Finset InstanceId)) : Prop where
  last : ∃ set, sets.getLast? = some set ∧
    ∀ id, id ∈ set ↔ Waits snapshot updates instances terminal id
  shrinks : sets.Pairwise fun set later => later ⊆ set
  emits : ∀ change, ∅ ∉ sets → ((instanceTasks instances).lookup change.id).isSome →
    ∃ set, emitPendingTerminal snapshot (updates ++ [change]) instances terminal = sets ++ [set]
  completes : ∀ change, ∅ ∈ sets ∨ (instanceTasks instances).lookup change.id = none →
    emitPendingTerminal snapshot (updates ++ [change]) instances terminal = sets

/-- **Watching ends exactly when everything is gone.** -/
theorem emitPendingTerminal_emitsWaiting (snapshot : Keyed Instance.instanceId)
    (updates : List InstanceChange) (instances : List Instance) (terminal : TerminalPredicate) :
    EmitsWaiting snapshot updates instances terminal
      (emitPendingTerminal snapshot updates instances terminal) where
  last := ⟨_, getLast?_scan updates, fun _ => mem_left_iff⟩
  shrinks := pairwise_scan updates
  emits change hempty hwatched := by
    rw [emitPendingTerminal, empty_mem_scan] at hempty
    rw [emitPendingTerminal, scan_append, if_pos ⟨Finset.nonempty_iff_ne_empty.mpr hempty, hwatched⟩]
    exact ⟨_, rfl⟩
  completes change h := by
    rw [emitPendingTerminal, empty_mem_scan] at h
    rw [emitPendingTerminal, scan_append, if_neg]
    · exact List.append_nil _
    · rintro ⟨hnonempty, hwatched⟩
      rcases h with h | h
      · exact hnonempty.ne_empty h
      · rw [h] at hwatched
        cases hwatched

end KillStreamWatcher

end Marathon
