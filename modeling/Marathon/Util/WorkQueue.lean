import Mathlib.Data.List.Basic

/-!
# Work queues

A work queue runs a bounded number of work items at a time. It has no threads of its own: an
item that is done hands its slot on to the next one in the queue.
-/

namespace Marathon.Util

/-- The items that wait, and the slots that nothing uses. -/
structure WorkQueue (α : Type*) where
  maxQueueLength : ℕ
  queue : List α
  openSlotsCount : ℕ
  /-- While a slot is open nothing waits. -/
  idle : 0 < openSlotsCount → queue = []

/-- What becomes of an item that is put into the queue. -/
inductive Admission
  | run
  | queued
  /-- The future fails with an `IllegalStateException`. -/
  | rejected
deriving DecidableEq

namespace WorkQueue

variable {α : Type*}

def new (maxConcurrent maxQueueLength : ℕ) : WorkQueue α where
  maxQueueLength := maxQueueLength
  queue := []
  openSlotsCount := maxConcurrent
  idle _ := rfl

def apply (q : WorkQueue α) (a : α) : WorkQueue α × Admission :=
  if h : 0 < q.openSlotsCount then
    ({ q with
       openSlotsCount := q.openSlotsCount - 1
       idle := fun _ => q.idle h }, .run)
  else if q.queue.length + 1 > q.maxQueueLength then
    (q, .rejected)
  else
    ({ q with
       queue := q.queue ++ [a]
       idle := fun hopen => absurd hopen h }, .queued)

/-- Either a slot becomes open, or it goes to the next item. -/
def executeNextIfPossible (q : WorkQueue α) : WorkQueue α × Option α :=
  match hqueue : q.queue with
  | [] =>
    ({ q with
       openSlotsCount := q.openSlotsCount + 1
       idle := fun _ => hqueue }, none)
  | a :: rest =>
    ({ q with
       queue := rest
       idle := fun hopen => by
        rw [q.idle hopen] at hqueue
        cases hqueue }, some a)

/-- Room for one more item, in a slot or in the queue. -/
def HasRoom (q : WorkQueue α) : Prop :=
  0 < q.openSlotsCount ∨ q.queue.length < q.maxQueueLength

instance (q : WorkQueue α) : Decidable q.HasRoom := by
  unfold HasRoom
  infer_instance

/-- The outcomes of `apply`. -/
theorem apply_cases (q : WorkQueue α) (a : α) :
    (∃ q', q.apply a = (q', .run) ∧ q'.openSlotsCount + 1 = q.openSlotsCount ∧
      q'.queue = q.queue ∧ q'.maxQueueLength = q.maxQueueLength) ∨
    (∃ q', q.apply a = (q', .queued) ∧ q.openSlotsCount = 0 ∧ q'.openSlotsCount = 0 ∧
      q'.queue = q.queue ++ [a] ∧ q'.maxQueueLength = q.maxQueueLength) ∨
    (q.apply a = (q, .rejected) ∧ ¬q.HasRoom) := by
  rw [apply]
  split_ifs with hopen hfull
  · refine .inl ⟨_, rfl, ?_, rfl, rfl⟩
    exact Nat.sub_add_cancel hopen
  · refine .inr (.inr ⟨rfl, ?_⟩)
    rintro (h | h)
    · exact hopen h
    · omega
  · refine .inr (.inl ⟨_, rfl, ?_, ?_, rfl, rfl⟩)
    · omega
    · exact Nat.eq_zero_of_not_pos hopen

/-- No more than the maximum is put into the queue. -/
theorem length_queue_apply_le (q : WorkQueue α) (a : α) (h : q.queue.length ≤ q.maxQueueLength) :
    (q.apply a).1.queue.length ≤ q.maxQueueLength := by
  rw [apply]
  split_ifs with hopen hfull
  · exact h
  · exact h
  · simp only [List.length_append, List.length_singleton]
    omega

/-- The outcomes of `executeNextIfPossible`. -/
theorem executeNextIfPossible_cases (q : WorkQueue α) :
    (∃ q', q.executeNextIfPossible = (q', none) ∧ q.queue = [] ∧ q'.queue = [] ∧
      q'.openSlotsCount = q.openSlotsCount + 1 ∧ q'.maxQueueLength = q.maxQueueLength) ∨
    (∃ q' a, q.executeNextIfPossible = (q', some a) ∧ q.queue = a :: q'.queue ∧
      q'.openSlotsCount = q.openSlotsCount ∧ q'.maxQueueLength = q.maxQueueLength) := by
  rw [executeNextIfPossible]
  split
  · rename_i hqueue
    exact .inl ⟨_, rfl, hqueue, hqueue, rfl, rfl⟩
  · rename_i a rest hqueue
    exact .inr ⟨_, a, rfl, hqueue, rfl, rfl⟩

end WorkQueue

end Marathon.Util
