import Marathon.Lib.Machine
import Marathon.Util.WorkQueue
import Mathlib.Data.List.Perm.Subperm

/-!
# What a work queue runs

Calls come in while bodies run, and each body throws or returns a future that completes some
time. The callback of the future hands the slot of the body on, and the promise of the call is
completed before or after that.
-/

namespace Marathon.Util

open Lib

/-- An item is named by the number of the call that brought it. -/
inductive WorkQueueEvent (α E : Type*)
  | apply
  /-- The context of the item runs its body. -/
  | invoke (i : ℕ)
  /-- The future that the body has returned completes. -/
  | complete (i : ℕ) (outcome : Except E α)
  /-- The body throws, which fails the promise. -/
  | fail (i : ℕ) (ex : E)
  /-- The body has ended, and `executeNextIfPossible` is called. -/
  | release (i : ℕ)
  /-- The promise is completed with the future of the body. -/
  | resolve (i : ℕ)

def WorkQueueEvent.item? {α E : Type*} : WorkQueueEvent α E → Option ℕ
  | apply => none
  | invoke i | complete i _ | fail i _ | release i | resolve i => some i

/-- A work queue, and what has happened to the items it was given. -/
structure WorkQueueRun (α E : Type*) where
  workQueue : WorkQueue ℕ
  calls : ℕ
  accepted : List ℕ
  /-- The items that `run` has given to their contexts. -/
  started : List ℕ
  invoked : List ℕ
  outcomes : List (ℕ × Except E α)
  released : List ℕ
  /-- The promises that are completed. -/
  answers : List (ℕ × Except E α)

namespace WorkQueueRun

variable {α E : Type*}

def new (maxConcurrent maxQueueLength : ℕ) : WorkQueueRun α E where
  workQueue := .new maxConcurrent maxQueueLength
  calls := 0
  accepted := []
  started := []
  invoked := []
  outcomes := []
  released := []
  answers := []

/-- The items whose bodies have ended. -/
def ended (s : WorkQueueRun α E) : List ℕ := s.outcomes.map Prod.fst

def answered (s : WorkQueueRun α E) : List ℕ := s.answers.map Prod.fst

/-- The items that have a slot. -/
def running (s : WorkQueueRun α E) : List ℕ := s.started.filter (· ∉ s.released)

/-- The items whose bodies run. -/
def bodies (s : WorkQueueRun α E) : List ℕ := s.invoked.filter (· ∉ s.ended)

def apply (s : WorkQueueRun α E) : WorkQueueRun α E :=
  match s.workQueue.apply s.calls with
  | (workQueue, .run) =>
    { s with
      workQueue := workQueue
      calls := s.calls + 1
      accepted := s.accepted ++ [s.calls]
      started := s.started ++ [s.calls] }
  | (workQueue, .queued) =>
    { s with
      workQueue := workQueue
      calls := s.calls + 1
      accepted := s.accepted ++ [s.calls] }
  | (_, .rejected) => { s with calls := s.calls + 1 }

def executeNextIfPossible (s : WorkQueueRun α E) : WorkQueueRun α E :=
  match s.workQueue.executeNextIfPossible with
  | (workQueue, none) => { s with workQueue := workQueue }
  | (workQueue, some i) => { s with workQueue := workQueue, started := s.started ++ [i] }

def step (s : WorkQueueRun α E) : WorkQueueEvent α E → Option (WorkQueueRun α E)
  | .apply => some s.apply
  | .invoke i =>
    if i ∈ s.started ∧ i ∉ s.invoked then some { s with invoked := s.invoked ++ [i] } else none
  | .complete i outcome =>
    if i ∈ s.invoked ∧ i ∉ s.ended then some { s with outcomes := s.outcomes ++ [(i, outcome)] }
    else none
  | .fail i ex =>
    if i ∈ s.invoked ∧ i ∉ s.ended then
      some { s with
        outcomes := s.outcomes ++ [(i, .error ex)]
        answers := s.answers ++ [(i, .error ex)] }
    else none
  | .release i =>
    if i ∈ s.ended ∧ i ∉ s.released then
      some { s.executeNextIfPossible with released := s.released ++ [i] }
    else none
  | .resolve i =>
    match s.outcomes.lookup i with
    | some outcome =>
      if i ∈ s.answered then none
      else some { s with answers := s.answers ++ [(i, outcome)] }
    | none => none

/-! ## What is kept -/

/-- The entries of one log are entries of another, each at most once. -/
structure Logged (later earlier : List ℕ) : Prop where
  nodup : later.Nodup
  subset : later ⊆ earlier

namespace Logged

variable {i : ℕ} {first second third : List ℕ}

theorem nil : Logged [] first := ⟨List.nodup_nil, List.nil_subset _⟩

theorem add (h : Logged second first) (hi : i ∈ first) (hnew : i ∉ second) :
    Logged (second ++ [i]) first where
  nodup := by simpa [List.nodup_append, h.nodup] using fun j hj => ne_of_mem_of_not_mem hj hnew
  subset := by
    intro j hj
    obtain hj | hj := List.mem_append.mp hj
    · exact h.subset hj
    · exact List.mem_singleton.mp hj ▸ hi

theorem mono (h : Logged second first) : Logged second (first ++ [i]) :=
  ⟨h.nodup, fun _ hj => List.mem_append_left _ (h.subset hj)⟩

theorem trans (h : Logged third second) (h' : Logged second first) : Logged third first :=
  ⟨h.nodup, List.Subset.trans h.subset h'.subset⟩

theorem length_filter (h : Logged second first) (hfirst : first.Nodup) :
    (first.filter (· ∉ second)).length + second.length = first.length := by
  have hin : (first.filter (· ∈ second)).Perm second := by
    refine (List.perm_ext_iff_of_nodup (hfirst.filter _) h.nodup).mpr fun i => ?_
    simpa using fun hi => h.subset hi
  have hsplit := List.length_eq_length_filter_add (l := first) (· ∈ second)
  rw [hin.length_eq] at hsplit
  simp only [decide_not]
  omega

end Logged

/-- What every event keeps. -/
structure Consistent (m q : ℕ) (s : WorkQueueRun α E) : Prop where
  limit : s.workQueue.maxQueueLength = q
  slots : s.started.length + s.workQueue.openSlotsCount = s.released.length + m
  bounded : s.workQueue.queue.length ≤ q
  inOrder : s.accepted = s.started ++ s.workQueue.queue
  increasing : s.accepted.Pairwise (· < ·)
  fresh : ∀ i ∈ s.accepted, i < s.calls
  invoked : Logged s.invoked s.started
  ended : Logged s.ended s.invoked
  released : Logged s.released s.ended
  answered : Logged s.answered s.ended
  answers : s.answers ⊆ s.outcomes
  /-- With one slot the bodies run in the order of the calls. -/
  first : m = 1 → s.invoked <+: s.started

variable {m q i : ℕ} {s s' : WorkQueueRun α E}

theorem consistent_new (m q : ℕ) : Consistent m q (new m q : WorkQueueRun α E) where
  limit := rfl
  slots := rfl
  bounded := Nat.zero_le _
  inOrder := rfl
  increasing := .nil
  fresh _ h := nomatch h
  invoked := .nil
  ended := .nil
  released := .nil
  answered := .nil
  answers := List.nil_subset _
  first _ := List.prefix_refl _

theorem of_ite_eq_some {P : Prop} [Decidable P]
    (h : (if P then some s else none) = some s') : P ∧ s = s' := by
  simpa using h

theorem resolve_eq_some (hs : s.step (.resolve i) = some s') :
    ∃ outcome, (i, outcome) ∈ s.outcomes ∧ i ∉ s.answered ∧
      s' = { s with answers := s.answers ++ [(i, outcome)] } := by
  rw [step] at hs
  cases hlookup : s.outcomes.lookup i with
  | none =>
    rw [hlookup] at hs
    cases hs
  | some outcome =>
    rw [hlookup] at hs
    obtain ⟨hnew, heq⟩ := Option.ite_none_left_eq_some.mp hs
    cases heq
    obtain ⟨l₁, l₂, hentries, -⟩ := List.lookup_eq_some_iff.mp hlookup
    refine ⟨outcome, ?_, hnew, rfl⟩
    rw [hentries]
    exact List.mem_append_right _ List.mem_cons_self

namespace Consistent

theorem nodup_started (h : Consistent m q s) : s.started.Nodup := by
  have hnodup : s.accepted.Nodup := h.increasing.imp fun hlt => Nat.ne_of_lt hlt
  rw [h.inOrder] at hnodup
  exact (List.nodup_append.mp hnodup).1

theorem running_add_open (h : Consistent m q s) :
    s.running.length + s.workQueue.openSlotsCount = m := by
  have hrunning := (h.released.trans (h.ended.trans h.invoked)).length_filter h.nodup_started
  have hslots := h.slots
  unfold running
  omega

theorem increasing_append (h : Consistent m q s) :
    (s.accepted ++ [s.calls]).Pairwise (· < ·) ∧ ∀ i ∈ s.accepted ++ [s.calls], i < s.calls + 1 := by
  constructor
  · rw [List.pairwise_append]
    refine ⟨h.increasing, List.pairwise_singleton _ _, fun i hi j hj => ?_⟩
    rw [List.mem_singleton.mp hj]
    exact h.fresh i hi
  · intro i hi
    obtain hi | hi := List.mem_append.mp hi
    · exact Nat.lt_succ_of_lt (h.fresh i hi)
    · rw [List.mem_singleton.mp hi]
      exact Nat.lt_succ_self _

theorem apply (h : Consistent m q s) : Consistent m q s.apply := by
  have hslots := h.slots
  have hbounded := s.workQueue.length_queue_apply_le s.calls (h.limit ▸ h.bounded)
  rw [h.limit] at hbounded
  unfold WorkQueueRun.apply
  obtain ⟨workQueue, happly, hopen, hqueue, hmax⟩ | ⟨workQueue, happly, hfull, hopen, hqueue, hmax⟩ |
    ⟨happly, -⟩ := s.workQueue.apply_cases s.calls
  · -- nothing waits while a slot is open, so the call is started after all others
    have hnone : s.workQueue.queue = [] := s.workQueue.idle (by omega)
    rw [happly] at hbounded ⊢
    exact {
      limit := hmax.trans h.limit
      slots := by simp only [List.length_append, List.length_singleton]; omega
      bounded := hbounded
      inOrder := by simp [h.inOrder, hqueue, hnone]
      increasing := h.increasing_append.1
      fresh := h.increasing_append.2
      invoked := h.invoked.mono
      ended := h.ended
      released := h.released
      answered := h.answered
      answers := h.answers
      first := fun hm => (h.first hm).trans (List.prefix_append _ _) }
  · rw [happly] at hbounded ⊢
    exact {
      limit := hmax.trans h.limit
      slots := by dsimp only; omega
      bounded := hbounded
      inOrder := by simp [h.inOrder, hqueue]
      increasing := h.increasing_append.1
      fresh := h.increasing_append.2
      invoked := h.invoked
      ended := h.ended
      released := h.released
      answered := h.answered
      answers := h.answers
      first := h.first }
  · rw [happly]
    exact { h with fresh := fun i hi => Nat.lt_succ_of_lt (h.fresh i hi) }

theorem invoke (h : Consistent m q s) (hstarted : i ∈ s.started) (hnew : i ∉ s.invoked) :
    Consistent m q { s with invoked := s.invoked ++ [i] } where
  limit := h.limit
  slots := h.slots
  bounded := h.bounded
  inOrder := h.inOrder
  increasing := h.increasing
  fresh := h.fresh
  invoked := h.invoked.add hstarted hnew
  ended := h.ended.mono
  released := h.released
  answered := h.answered
  answers := h.answers
  first hm := by
    obtain ⟨rest, hrest⟩ := h.first hm
    have hnodup := h.nodup_started
    rw [← hrest, List.nodup_append] at hnodup
    have hrunning : rest ⊆ s.running := by
      intro j hj
      simp only [running, List.mem_filter, decide_eq_true_eq]
      refine ⟨hrest ▸ List.mem_append_right _ hj, fun hreleased => ?_⟩
      have hinvoked := h.ended.subset (h.released.subset hreleased)
      exact hnodup.2.2 j hinvoked j hj rfl
    have hlength := (List.Nodup.subperm hnodup.2.1 hrunning).length_le
    have hslots := h.running_add_open
    have hi : i ∈ rest := by
      rw [← hrest] at hstarted
      exact (List.mem_append.mp hstarted).resolve_left hnew
    obtain ⟨j, rfl⟩ : ∃ j, rest = [j] := by
      rw [← List.length_eq_one_iff]
      have hpos := List.length_pos_of_mem hi
      omega
    rw [List.mem_singleton.mp hi]
    exact ⟨[], by simpa using hrest⟩

/-- The body has ended; its outcome is the only one that the promise may be completed with. -/
theorem outcome (h : Consistent m q s) (outcome : Except E α) (hinvoked : i ∈ s.invoked)
    (hnew : i ∉ s.ended) : Consistent m q { s with outcomes := s.outcomes ++ [(i, outcome)] } := by
  have hended : ({ s with outcomes := s.outcomes ++ [(i, outcome)] } : WorkQueueRun α E).ended =
      s.ended ++ [i] := List.map_append
  exact {
    limit := h.limit
    slots := h.slots
    bounded := h.bounded
    inOrder := h.inOrder
    increasing := h.increasing
    fresh := h.fresh
    invoked := h.invoked
    ended := hended ▸ h.ended.add hinvoked hnew
    released := hended ▸ h.released.mono
    answered := hended ▸ h.answered.mono
    answers := fun a ha => List.mem_append_left _ (h.answers ha)
    first := h.first }

theorem answer (h : Consistent m q s) {outcome : Except E α} (houtcome : (i, outcome) ∈ s.outcomes)
    (hnew : i ∉ s.answered) : Consistent m q { s with answers := s.answers ++ [(i, outcome)] } := by
  have hanswered : ({ s with answers := s.answers ++ [(i, outcome)] } : WorkQueueRun α E).answered =
      s.answered ++ [i] := List.map_append
  exact {
    limit := h.limit
    slots := h.slots
    bounded := h.bounded
    inOrder := h.inOrder
    increasing := h.increasing
    fresh := h.fresh
    invoked := h.invoked
    ended := h.ended
    released := h.released
    answered := hanswered ▸ h.answered.add (List.mem_map_of_mem (f := Prod.fst) houtcome) hnew
    answers := List.append_subset.mpr ⟨h.answers, by simpa using houtcome⟩
    first := h.first }

/-- The slot is opened or goes to the item that waits longest. -/
theorem release (h : Consistent m q s) (hended : i ∈ s.ended) (hnew : i ∉ s.released) :
    Consistent m q { s.executeNextIfPossible with released := s.released ++ [i] } := by
  have hslots := h.slots
  have hbounded := h.bounded
  unfold WorkQueueRun.executeNextIfPossible
  obtain ⟨workQueue, hnext, hnone, hnone', hopen, hmax⟩ | ⟨workQueue, j, hnext, hqueue, hopen, hmax⟩ :=
    s.workQueue.executeNextIfPossible_cases
  · rw [hnext]
    exact {
      limit := hmax.trans h.limit
      slots := by simp only [List.length_append, List.length_singleton]; omega
      bounded := by simp [hnone']
      inOrder := by simp [h.inOrder, hnone, hnone']
      increasing := h.increasing
      fresh := h.fresh
      invoked := h.invoked
      ended := h.ended
      released := h.released.add hended hnew
      answered := h.answered
      answers := h.answers
      first := h.first }
  · rw [hqueue, List.length_cons] at hbounded
    rw [hnext]
    exact {
      limit := hmax.trans h.limit
      slots := by simp only [List.length_append, List.length_singleton]; omega
      bounded := by dsimp only; omega
      inOrder := by simp [h.inOrder, hqueue]
      increasing := h.increasing
      fresh := h.fresh
      invoked := h.invoked.mono
      ended := h.ended
      released := h.released.add hended hnew
      answered := h.answered
      answers := h.answers
      first := fun hm => (h.first hm).trans (List.prefix_append _ _) }

theorem step (h : Consistent m q s) {e : WorkQueueEvent α E} (hs : s.step e = some s') :
    Consistent m q s' := by
  cases e with
  | apply =>
    cases hs
    exact h.apply
  | invoke i =>
    obtain ⟨⟨hstarted, hnew⟩, rfl⟩ := of_ite_eq_some hs
    exact h.invoke hstarted hnew
  | complete i outcome =>
    obtain ⟨⟨hinvoked, hnew⟩, rfl⟩ := of_ite_eq_some hs
    exact h.outcome outcome hinvoked hnew
  | fail i ex =>
    obtain ⟨⟨hinvoked, hnew⟩, rfl⟩ := of_ite_eq_some hs
    have houtcome := h.outcome (.error ex) hinvoked hnew
    refine houtcome.answer (by simp) fun hanswered => ?_
    exact hnew (h.answered.subset hanswered)
  | release i =>
    obtain ⟨⟨hended, hnew⟩, rfl⟩ := of_ite_eq_some hs
    exact h.release hended hnew
  | resolve i =>
    obtain ⟨outcome, houtcome, hnew, rfl⟩ := resolve_eq_some hs
    exact h.answer houtcome hnew

end Consistent

/-! ## What is ahead of an item -/

/-- How many events there have been of the items that are accepted no later than `i`. -/
def progress (s : WorkQueueRun α E) (i : ℕ) : ℕ :=
  s.invoked.countP (· ≤ i) + s.ended.countP (· ≤ i) + s.released.countP (· ≤ i) +
    s.answered.countP (· ≤ i)

theorem can_go_on (hstarted : i ∈ s.started) (hwaits : i ∉ s.answered ∨ i ∉ s.released) :
    i ∈ s.bodies ∨ ∃ e s', s.step e = some s' ∧ i ∈ e.item? := by
  by_cases hinvoked : i ∈ s.invoked
  · by_cases hended : i ∈ s.ended
    · right
      obtain hanswered | hreleased := hwaits
      · obtain ⟨⟨i', outcome⟩, hmem, hi⟩ := List.mem_map.mp hended
        obtain ⟨outcome', hlookup⟩ := Option.isSome_iff_exists.mp
          (List.lookup_isSome_iff.mpr ⟨(i', outcome), hmem, beq_iff_eq.mpr hi.symm⟩)
        refine ⟨.resolve i, { s with answers := s.answers ++ [(i, outcome')] }, ?_, rfl⟩
        rw [WorkQueueRun.step, hlookup]
        exact if_neg hanswered
      · exact ⟨.release i, _, if_pos ⟨hended, hreleased⟩, rfl⟩
    · exact .inl (List.mem_filter.mpr ⟨hinvoked, by simpa using hended⟩)
  · exact .inr ⟨.invoke i, _, if_pos ⟨hstarted, hinvoked⟩, rfl⟩

/-- As long as an accepted item has not been answered there is an item, accepted no later, whose
body runs or that can go on. -/
theorem Consistent.live (h : Consistent m q s) (hm : 0 < m) (haccepted : i ∈ s.accepted)
    (hwaits : i ∉ s.answered) :
    ∃ j ≤ i, j ∈ s.bodies ∨ ∃ e s', s.step e = some s' ∧ j ∈ e.item? := by
  have hincreasing := h.increasing
  rw [h.inOrder] at haccepted hincreasing
  obtain hstarted | hqueued := List.mem_append.mp haccepted
  · exact ⟨i, Nat.le_refl i, can_go_on hstarted (.inl hwaits)⟩
  · -- while an item waits in the queue, all slots are taken by items that came before it
    have hfull : s.workQueue.openSlotsCount = 0 := by
      by_contra hopen
      rw [s.workQueue.idle (by omega)] at hqueued
      cases hqueued
    have hslots := h.running_add_open
    obtain ⟨j, hj⟩ := List.exists_mem_of_length_pos (l := s.running) (by omega)
    simp only [running, List.mem_filter, decide_eq_true_eq] at hj
    have hlt := (List.pairwise_append.mp hincreasing).2.2 j hj.1 i hqueued
    exact ⟨j, Nat.le_of_lt hlt, can_go_on hj.1 (.inr hj.2)⟩

end WorkQueueRun

/-- A work queue from its first call on. -/
def workQueueRuns (α E : Type*) (maxConcurrent maxQueueLength : ℕ) :
    Machine (WorkQueueRun α E) (WorkQueueEvent α E) where
  Init s := s = .new maxConcurrent maxQueueLength
  step := WorkQueueRun.step

variable {α E : Type*} {m q : ℕ}

theorem consistent_of_reachable {s : WorkQueueRun α E}
    (h : (workQueueRuns α E m q).Reachable s) : s.Consistent m q := by
  refine Machine.ReachableIf.invariant (I := fun s => s.Consistent m q) ?_ ?_ h
  · rintro s rfl
    exact WorkQueueRun.consistent_new m q
  · exact fun s e s' hI _ hs => hI.step hs

end Marathon.Util
