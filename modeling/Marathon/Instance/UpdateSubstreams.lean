import Mathlib
import Marathon.Instance.InstanceTrackerActor
import Marathon.Lib.HashCode

/-!
# Substreams of updates

`InstanceTrackerDelegate` groups updates and queries into substreams by the hash code of their run
spec id. There are enough substreams for the keys in range. A hash code without an absolute value
has another key, for which there may be no substream left: then the stream fails.
-/

namespace Marathon.Tracking

open Lib

inductive Queued
  | update (update : Update)
  | query (appId : AbsolutePathId)

def Queued.idString : Queued → String
  | update u => u.appId.string
  | query appId => appId.string

section Queue

variable (numParallelUpdates : ℤ)

/-- `Math.abs(queued.idString.hashCode) % numParallelUpdates` -/
def substreamKey (queued : Queued) : ℤ :=
  (hashCode queued.idString).abs.toInt.tmod numParallelUpdates

/-- The stage of the library that splits the stream. A substream is never closed, and the stream
fails when more would be open than are allowed. -/
def groupBy (opened : Finset ℤ) (queued : Queued) : Option (Finset ℤ) :=
  if substreamKey numParallelUpdates queued ∈ opened then some opened
  else if (opened.card : ℤ) < numParallelUpdates then
    some (insert (substreamKey numParallelUpdates queued) opened)
  else none

/-- The open substreams after all that has been queued. -/
def queue (elements : List Queued) : Option (Finset ℤ) :=
  elements.foldlM (groupBy numParallelUpdates) ∅

structure WithinSubstreams (elements : List Queued) : Prop where
  range : ∀ queued ∈ elements, 0 ≤ substreamKey numParallelUpdates queued ∧
    substreamKey numParallelUpdates queued < numParallelUpdates
  opened : ∃ opened, queue numParallelUpdates elements = some opened ∧
    (opened.card : ℤ) ≤ numParallelUpdates
  same : ∀ u u' : Update, u.instanceId = u'.instanceId →
    substreamKey numParallelUpdates (.update u) = substreamKey numParallelUpdates (.update u')

variable {numParallelUpdates}

theorem groupBy_range {opened : Finset ℤ} {queued : Queued}
    (hopened : opened ⊆ Finset.Ico 0 numParallelUpdates)
    (hkey : 0 ≤ substreamKey numParallelUpdates queued ∧
      substreamKey numParallelUpdates queued < numParallelUpdates) :
    ∃ opened', groupBy numParallelUpdates opened queued = some opened' ∧
      opened' ⊆ Finset.Ico 0 numParallelUpdates := by
  have hmem := Finset.mem_Ico.mpr hkey
  by_cases hopen : substreamKey numParallelUpdates queued ∈ opened
  · exact ⟨opened, if_pos hopen, hopened⟩
  · have hsubset := Finset.insert_subset hmem hopened
    have hcard := Finset.card_le_card hsubset
    rw [Finset.card_insert_of_notMem hopen, Int.card_Ico] at hcard
    have hlt : (opened.card : ℤ) < numParallelUpdates := by omega
    exact ⟨_, by rw [groupBy, if_neg hopen, if_pos hlt], hsubset⟩

theorem foldlM_groupBy {elements : List Queued} {opened : Finset ℤ}
    (hopened : opened ⊆ Finset.Ico 0 numParallelUpdates)
    (hkeys : ∀ queued ∈ elements, 0 ≤ substreamKey numParallelUpdates queued ∧
      substreamKey numParallelUpdates queued < numParallelUpdates) :
    ∃ opened', elements.foldlM (groupBy numParallelUpdates) opened = some opened' ∧
      opened' ⊆ Finset.Ico 0 numParallelUpdates := by
  induction elements generalizing opened with
  | nil => exact ⟨opened, rfl, hopened⟩
  | cons queued elements ih =>
    obtain ⟨next, hnext, hsubset⟩ := groupBy_range hopened (hkeys queued List.mem_cons_self)
    obtain ⟨opened', hrun, hopened'⟩ :=
      ih hsubset fun other hother => hkeys other (List.mem_cons_of_mem _ hother)
    refine ⟨opened', ?_, hopened'⟩
    rw [List.foldlM_cons, hnext]
    exact hrun

theorem withinSubstreams_iff (hn : 1 ≤ numParallelUpdates) (elements : List Queued) :
    WithinSubstreams numParallelUpdates elements ↔ numParallelUpdates ∣ 2147483648 ∨
      ∀ queued ∈ elements, hashCode queued.idString ≠ BitVec.intMin 32 := by
  have hrange : (∀ queued ∈ elements, 0 ≤ substreamKey numParallelUpdates queued ∧
      substreamKey numParallelUpdates queued < numParallelUpdates) ↔
      numParallelUpdates ∣ 2147483648 ∨
        ∀ queued ∈ elements, hashCode queued.idString ≠ BitVec.intMin 32 := by
    have heach : ∀ queued : Queued, _ := fun queued =>
      abs_tmod_range_iff (hashCode queued.idString) (by omega : 0 < numParallelUpdates)
    constructor
    · intro hkeys
      rw [or_iff_not_imp_left]
      exact fun hdvd queued hmem => ((heach queued).mp (hkeys queued hmem)).resolve_right hdvd
    · exact fun h queued hmem => (heach queued).mpr (h.symm.imp_left (· queued hmem))
  rw [← hrange]
  constructor
  · exact WithinSubstreams.range
  · intro hkeys
    obtain ⟨opened, hrun, hsubset⟩ := foldlM_groupBy (Finset.empty_subset _) hkeys
    have hcard := Finset.card_le_card hsubset
    rw [Int.card_Ico] at hcard
    refine ⟨hkeys, ⟨opened, hrun, by omega⟩, fun u u' h => ?_⟩
    rw [substreamKey, substreamKey, Queued.idString, Queued.idString, Update.appId, Update.appId]
    exact congrArg (fun id : InstanceId => (hashCode id.runSpecId.string).abs.toInt.tmod _) h

end Queue

theorem withinSubstreams_doonbyp : (1 : ℤ) ≤ 8 ∧ WithinSubstreams 8 [.query ⟨["doonbyp"]⟩] :=
  ⟨by decide, (withinSubstreams_iff (by decide) _).mpr (.inl (by decide))⟩

/-- The hash code of `/doonbyp` is the least number: its key is -2 with three substreams, and the
stream fails when all three are open. -/
theorem not_forall_withinSubstreams :
    (¬ ∀ (numParallelUpdates : ℤ) (elements : List Queued), 1 ≤ numParallelUpdates →
      WithinSubstreams numParallelUpdates elements) ∧
    queue 3 [.query ⟨["a"]⟩, .query ⟨["b"]⟩, .query ⟨["c"]⟩, .query ⟨["doonbyp"]⟩] = none := by
  refine ⟨fun h => ?_, by decide +kernel⟩
  have hkey : substreamKey 3 (.query ⟨["doonbyp"]⟩) = -2 := by decide +kernel
  have hrange := (h 3 [.query ⟨["doonbyp"]⟩] (by decide)).range _ (List.mem_singleton_self _)
  omega

end Marathon.Tracking
