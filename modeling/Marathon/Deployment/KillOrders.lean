import Mathlib
import Marathon.Deployment.ScalingProposition
import Marathon.Lib.SortWith
import Marathon.State.RootGroup

/-!
# The orders in which instances are killed

Instances are sorted by comparisons of two instances. They are orders of the instances as long as
it is known since when an instance is active, and as long as it is not healthy; for two others each
comes before the other.
-/

namespace Marathon

open Lib

namespace ScalingProposition

variable {now : Timestamp} {select : KillSelection} {a b i : Instance} {l : List Instance}

/-! ## Conditions and dates -/

/-- A time, such that the time that is selected first is the least. -/
def selectionTime (select : KillSelection) (t : Timestamp) : ℤ :=
  match select with
  | .youngestFirst => -t.instant
  | .oldestFirst => t.instant

theorem apply_eq (select : KillSelection) (s t : Timestamp) :
    select.apply s t = decide (selectionTime select s < selectionTime select t) := by
  cases select with
  | youngestFirst =>
    have hiff : t < s ↔ -s.instant < -t.instant := (neg_lt_neg_iff (a := s.instant)).symm
    exact decide_eq_decide.mpr hiff
  | oldestFirst => exact decide_eq_decide.mpr Iff.rfl

/-- What an instance is sorted by among those of its weight. -/
def selectedSince (now : Timestamp) (i : Instance) : Option Timestamp :=
  match i.state.condition with
  | .staging => some (stagedAt now i)
  | .starting => some i.state.since
  | _ => i.state.activeSince

/-- The selection time if there is one; none comes first. -/
def selectionKey (select : KillSelection) : Option Timestamp → WithBot ℤ
  | none => ⊥
  | some t => (selectionTime select t : ℤ)

/-- What an instance is sorted by. -/
def sortKey (now : Timestamp) (select : KillSelection) (i : Instance) : ℕ ×ₗ WithBot ℤ :=
  toLex (weight i.state.condition, selectionKey select (selectedSince now i))

/-- The comparison of two times, where an unknown one comes before every other. -/
def comesFirst (select : KillSelection) : Option Timestamp → Option Timestamp → Bool
  | none, some _ => true
  | some _, none => false
  | some left, some right => select.apply left right
  | none, none => true

theorem comesFirst_eq (select : KillSelection) (s t : Option Timestamp) :
    comesFirst select s t =
      (decide (selectionKey select s < selectionKey select t) || decide (s = none ∧ t = none)) := by
  cases s with
  | none =>
    cases t with
    | none => simp [comesFirst]
    | some right => simp [comesFirst, selectionKey]
  | some left =>
    cases t with
    | none => simp [comesFirst, selectionKey]
    | some right => simp [comesFirst, selectionKey, apply_eq]

theorem weight_eq_two_iff {condition : Condition} : weight condition = 2 ↔ condition = .staging := by
  cases condition <;> decide

theorem weight_eq_three_iff {condition : Condition} :
    weight condition = 3 ↔ condition = .starting := by
  cases condition <;> decide

theorem sortByConditionAndDate_of_weight_eq
    (h : weight a.state.condition = weight b.state.condition) :
    sortByConditionAndDate now select a b =
      comesFirst select (selectedSince now a) (selectedSince now b) := by
  have hstaging : a.state.condition = .staging ↔ b.state.condition = .staging := by
    rw [← weight_eq_two_iff, ← weight_eq_two_iff, h]
  have hstarting : a.state.condition = .starting ↔ b.state.condition = .starting := by
    rw [← weight_eq_three_iff, ← weight_eq_three_iff, h]
  unfold sortByConditionAndDate
  simp only [h, lt_irrefl, if_false]
  by_cases ha : a.state.condition = .staging
  · have hb := hstaging.mp ha
    simp [ha, hb, selectedSince, comesFirst]
  · have hb : b.state.condition ≠ .staging := fun hb => ha (hstaging.mpr hb)
    by_cases ha' : a.state.condition = .starting
    · have hb' := hstarting.mp ha'
      simp [ha', hb', selectedSince, comesFirst]
    · have hb' : b.state.condition ≠ .starting := fun hb => ha' (hstarting.mpr hb)
      have hsince : ∀ i : Instance, i.state.condition ≠ .staging → i.state.condition ≠ .starting →
          selectedSince now i = i.state.activeSince := by
        intro i hi hi'
        unfold selectedSince
        split
        next hcondition => exact absurd hcondition hi
        next hcondition => exact absurd hcondition hi'
        next => rfl
      rw [hsince a ha ha', hsince b hb hb']
      simp only [ha, ha', decide_false, Bool.false_and, Bool.false_eq_true, if_false]
      rfl

/-- Instances of one weight without any time. -/
def Undated (now : Timestamp) (a b : Instance) : Prop :=
  weight a.state.condition = weight b.state.condition ∧
    selectedSince now a = none ∧ selectedSince now b = none

instance : Decidable (Undated now a b) := inferInstanceAs (Decidable (_ ∧ _ ∧ _))

theorem sortByConditionAndDate_eq (now : Timestamp) (select : KillSelection) (a b : Instance) :
    sortByConditionAndDate now select a b = (decide (sortKey now select a < sortKey now select b) ||
      decide (Undated now a b)) := by
  have hkey : sortKey now select a < sortKey now select b ↔
      weight a.state.condition < weight b.state.condition ∨
        weight a.state.condition = weight b.state.condition ∧
          selectionKey select (selectedSince now a) < selectionKey select (selectedSince now b) :=
    Prod.Lex.toLex_lt_toLex
  rcases Nat.lt_trichotomy (weight a.state.condition) (weight b.state.condition) with hlt | heq | hgt
  · rw [decide_eq_true (hkey.mpr (.inl hlt)), Bool.true_or]
    exact if_pos hlt
  · rw [sortByConditionAndDate_of_weight_eq heq, comesFirst_eq]
    simp only [heq, lt_irrefl, false_or, true_and] at hkey
    simp only [heq, true_and, hkey, Undated]
  · have hne : weight a.state.condition ≠ weight b.state.condition := hgt.ne'
    simp only [hkey, Undated, hne, hgt.not_gt, false_and, or_self, decide_false, Bool.or_self]
    unfold sortByConditionAndDate
    simp only [hgt.not_gt, if_false, gt_iff_lt, hgt, if_true]

theorem sortByConditionAndDate_of_undated (h : Undated now a b) :
    sortByConditionAndDate now select a b = true := by
  rw [sortByConditionAndDate_eq, decide_eq_true h, Bool.or_true]

theorem sortByConditionAndDate_of_not_undated (h : ¬Undated now a b) :
    sortByConditionAndDate now select a b =
      decide (sortKey now select a < sortKey now select b) := by
  rw [sortByConditionAndDate_eq, decide_eq_false h, Bool.or_false]

theorem Undated.symm (h : Undated now a b) : Undated now b a := ⟨h.1.symm, h.2.2, h.2.1⟩

/-- It is known since when an instance is staged, starting or active. -/
def SinceKnown (i : Instance) : Prop :=
  i.state.condition = .staging ∨ i.state.condition = .starting ∨ i.state.activeSince.isSome

theorem selectedSince_eq_none_iff : selectedSince now i = none ↔ ¬SinceKnown i := by
  unfold selectedSince SinceKnown
  split
  next h => simp [h]
  next h => simp [h]
  next h h' =>
    cases i.state.activeSince with
    | none => simpa using ⟨h, h'⟩
    | some t => simp

theorem strictWeakOn_sortByConditionAndDate_iff {S : Instance → Prop} :
    StrictWeakOn (sortByConditionAndDate now select) S ↔ ∀ i, S i → SinceKnown i := by
  constructor
  · intro h i hi
    by_contra hknown
    have hnone : selectedSince now i = none := selectedSince_eq_none_iff.mpr hknown
    have hself := h.irrefl i hi
    rw [sortByConditionAndDate_of_undated ⟨rfl, hnone, hnone⟩] at hself
    cases hself
  · intro h
    refine (StrictWeakOn.of_key (sortKey now select)).congr fun a b ha _ => ?_
    refine (sortByConditionAndDate_of_not_undated fun hundated => ?_).symm
    exact selectedSince_eq_none_iff.mp hundated.2.1 (h a ha)

/-- A list of instances is compared consistently exactly if no two of the same weight are without a
time. -/
theorem consistent_sortByConditionAndDate_iff :
    Consistent (sortByConditionAndDate now select) l ↔ l.Pairwise fun a b => ¬Undated now a b := by
  constructor
  · rintro ⟨lt, hweak, hsame⟩
    have hmem : l.Pairwise fun a b => a ∈ l ∧ b ∈ l :=
      List.pairwise_iff_forall_sublist.mpr fun hsub =>
        ⟨hsub.subset List.mem_cons_self, hsub.subset (by simp)⟩
    refine (hsame.and hmem).imp fun {a b} h hundated => ?_
    obtain ⟨⟨hab, hba⟩, ha, hb⟩ := h
    rw [sortByConditionAndDate_of_undated hundated] at hab
    rw [sortByConditionAndDate_of_undated hundated.symm] at hba
    have hasymm := hweak.asymm a b ha hb hab.symm
    rw [← hba] at hasymm
    cases hasymm
  · intro h
    refine ⟨_, StrictWeakOn.of_key (sortKey now select), h.imp fun {a b} hnot => ?_⟩
    exact ⟨sortByConditionAndDate_of_not_undated hnot,
      sortByConditionAndDate_of_not_undated fun hundated => hnot hundated.symm⟩

theorem weight_le_of_sorted (h : sortByConditionAndDate now select b a = false) :
    weight a.state.condition ≤ weight b.state.condition := by
  by_contra hlt
  unfold sortByConditionAndDate at h
  rw [if_pos (not_le.mp hlt)] at h
  cases h

end ScalingProposition

namespace TaskReplaceActor

/-- The comparison of `toKillOrdered`, by which unhealthy instances come first. -/
def unhealthyFirst (i1 i2 : Instance) : Bool :=
  match i1.consideredHealthy, i2.consideredHealthy with
  | _, false => false
  | _, _ => true

theorem unhealthyFirst_eq (i1 i2 : Instance) : unhealthyFirst i1 i2 = i2.consideredHealthy := by
  unfold unhealthyFirst
  cases i1.consideredHealthy <;> cases i2.consideredHealthy <;> rfl

theorem strictWeakOn_unhealthyFirst_iff {S : Instance → Prop} :
    StrictWeakOn unhealthyFirst S ↔ ∀ i, S i → i.consideredHealthy = false := by
  constructor
  · intro h i hi
    rw [← unhealthyFirst_eq i i]
    exact h.irrefl i hi
  · intro h
    have hnever : StrictWeakOn (fun _ _ : Instance => false) S :=
      ⟨fun _ _ => rfl, fun _ _ _ _ _ => rfl, fun _ _ _ _ _ _ h _ => h,
        fun _ _ _ _ _ _ _ _ _ _ => ⟨rfl, rfl⟩⟩
    refine hnever.congr fun a b _ hb => ?_
    rw [unhealthyFirst_eq, h b hb]

end TaskReplaceActor

/-! ## Both orders -/

open ScalingProposition TaskReplaceActor

/-- The comparisons are strict weak orders of the instances, and every list of them is sorted: by
the weights of the conditions, and with the unhealthy ones first. -/
structure KillOrders (now : Timestamp) (select : KillSelection) (S : Instance → Prop) : Prop where
  byCondition : StrictWeakOn (sortByConditionAndDate now select) S
  byHealth : StrictWeakOn unhealthyFirst S
  sortsByCondition : ∀ (sorts : SortWith Instance) (l : List Instance), (∀ i ∈ l, S i) →
    ∃ sorted, sorts.sort (sortByConditionAndDate now select) l = some sorted ∧ sorted.Perm l ∧
      sorted.Pairwise fun a b => weight a.state.condition ≤ weight b.state.condition
  sortsByHealth : ∀ (sorts : SortWith Instance) (l : List Instance), (∀ i ∈ l, S i) →
    ∃ sorted, sorts.sort unhealthyFirst l = some sorted ∧ sorted.Perm l ∧
      sorted.Pairwise fun a b => a.consideredHealthy → b.consideredHealthy

/-- Instances that are not known to be active since some time, or that are healthy, are not ordered
by the comparisons; all others are. -/
theorem killOrders_iff {now : Timestamp} {select : KillSelection} {S : Instance → Prop} :
    KillOrders now select S ↔ ∀ i, S i → SinceKnown i ∧ i.consideredHealthy = false := by
  constructor
  · intro h i hi
    exact ⟨strictWeakOn_sortByConditionAndDate_iff.mp h.byCondition i hi,
      strictWeakOn_unhealthyFirst_iff.mp h.byHealth i hi⟩
  · intro h
    have hcondition : StrictWeakOn (sortByConditionAndDate now select) S :=
      strictWeakOn_sortByConditionAndDate_iff.mpr fun i hi => (h i hi).1
    have hhealth : StrictWeakOn unhealthyFirst S :=
      strictWeakOn_unhealthyFirst_iff.mpr fun i hi => (h i hi).2
    refine ⟨hcondition, hhealth, fun sorts l hl => ?_, fun sorts l hl => ?_⟩
    · obtain ⟨sorted, hsort, hsorted⟩ := sorts.sorts (hcondition.mono hl).consistent
      exact ⟨sorted, hsort, hsorted.perm, hsorted.pairwise.imp weight_le_of_sorted⟩
    · obtain ⟨sorted, hsort, hsorted⟩ := sorts.sorts (hhealth.mono hl).consistent
      refine ⟨sorted, hsort, hsorted.perm, hsorted.pairwise.imp fun {a b} hlt ha => ?_⟩
      rw [unhealthyFirst_eq, ha] at hlt
      cases hlt

namespace KillOrders

/-- An instance of a web app that waits for an offer. Without health checks it is taken to be
healthy. -/
def waiting (bits : BitVec 128) : Instance :=
  Instance.scheduled (.app (plainApp ⟨["web"]⟩ ∅)) ⟨⟨["web"]⟩, .instance, ⟨bits⟩⟩ ⟨0⟩

/-- Of two such instances each comes before the other, in both orders. -/
theorem not_forall_killOrders :
    ¬∀ (now : Timestamp) (select : KillSelection) (S : Instance → Prop), KillOrders now select S := by
  intro h
  have horders := h ⟨0⟩ .youngestFirst fun i => i = waiting 0 ∨ i = waiting 1
  have hfirst : sortByConditionAndDate ⟨0⟩ .youngestFirst (waiting 0) (waiting 1) = true := rfl
  have hsecond : sortByConditionAndDate ⟨0⟩ .youngestFirst (waiting 1) (waiting 0) = true := rfl
  have hasymm := horders.byCondition.asymm _ _ (.inl rfl) (.inr rfl) hfirst
  rw [hsecond] at hasymm
  cases hasymm

end KillOrders

end Marathon
