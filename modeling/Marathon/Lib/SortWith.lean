import Mathlib.Data.List.Sort

/-!
# Sorting by a comparison

A sort of a library promises a result only for comparisons that are strict weak orders. It may
fail for others, and whether it does is up to the list. It never compares an element of the list
with itself.
-/

namespace Marathon.Lib

variable {α : Type*} {lt : α → α → Bool} {S T : α → Prop} {l : List α}

/-- The comparison is a strict weak order of the elements of `S`. -/
structure StrictWeakOn (lt : α → α → Bool) (S : α → Prop) : Prop where
  irrefl : ∀ a, S a → lt a a = false
  asymm : ∀ a b, S a → S b → lt a b = true → lt b a = false
  trans : ∀ a b c, S a → S b → S c → lt a b = true → lt b c = true → lt a c = true
  incomp_trans : ∀ a b c, S a → S b → S c → lt a b = false → lt b a = false → lt b c = false →
    lt c b = false → lt a c = false ∧ lt c a = false

namespace StrictWeakOn

theorem mono (h : StrictWeakOn lt S) (hsub : ∀ a, T a → S a) : StrictWeakOn lt T where
  irrefl a ha := h.irrefl a (hsub a ha)
  asymm a b ha hb := h.asymm a b (hsub a ha) (hsub b hb)
  trans a b c ha hb hc := h.trans a b c (hsub a ha) (hsub b hb) (hsub c hc)
  incomp_trans a b c ha hb hc := h.incomp_trans a b c (hsub a ha) (hsub b hb) (hsub c hc)

theorem congr {lt' : α → α → Bool} (h : StrictWeakOn lt S)
    (heq : ∀ a b, S a → S b → lt a b = lt' a b) : StrictWeakOn lt' S where
  irrefl a ha := by
    rw [← heq a a ha ha]
    exact h.irrefl a ha
  asymm a b ha hb := by
    rw [← heq a b ha hb, ← heq b a hb ha]
    exact h.asymm a b ha hb
  trans a b c ha hb hc := by
    rw [← heq a b ha hb, ← heq b c hb hc, ← heq a c ha hc]
    exact h.trans a b c ha hb hc
  incomp_trans a b c ha hb hc := by
    rw [← heq a b ha hb, ← heq b a hb ha, ← heq b c hb hc, ← heq c b hc hb, ← heq a c ha hc,
      ← heq c a hc ha]
    exact h.incomp_trans a b c ha hb hc

theorem not_lt_trans (h : StrictWeakOn lt S) {a b c : α} (ha : S a) (hb : S b) (hc : S c)
    (hab : lt b a = false) (hbc : lt c b = false) : lt c a = false := by
  by_contra hca
  rw [Bool.not_eq_false] at hca
  have hac := h.asymm c a hc ha hca
  cases hab' : lt a b with
  | true =>
    have hcb := h.trans c a b hc ha hb hca hab'
    rw [hbc] at hcb
    cases hcb
  | false =>
    cases hbc' : lt b c with
    | true =>
      have hba := h.trans b c a hb hc ha hbc' hca
      rw [hab] at hba
      cases hba
    | false =>
      have hincomp := (h.incomp_trans a b c ha hb hc hab' hab hbc' hbc).2
      rw [hca] at hincomp
      cases hincomp

/-- The comparison by a key. -/
theorem of_key {κ : Type*} [LinearOrder κ] (key : α → κ) :
    StrictWeakOn (fun a b => decide (key a < key b)) S where
  irrefl a _ := decide_eq_false (lt_irrefl _)
  asymm a b _ _ h := decide_eq_false (lt_asymm (of_decide_eq_true h))
  trans a b c _ _ _ h h' := decide_eq_true (lt_trans (of_decide_eq_true h) (of_decide_eq_true h'))
  incomp_trans a b c _ _ _ h h' h₂ h₂' := by
    have hab : key a = key b := le_antisymm (not_lt.mp (of_decide_eq_false h'))
      (not_lt.mp (of_decide_eq_false h))
    have hbc : key b = key c := le_antisymm (not_lt.mp (of_decide_eq_false h₂'))
      (not_lt.mp (of_decide_eq_false h₂))
    rw [hab, hbc]
    exact ⟨decide_eq_false (lt_irrefl _), decide_eq_false (lt_irrefl _)⟩

theorem exists_sorted (h : StrictWeakOn lt (· ∈ l)) :
    ∃ sorted : List α, sorted.Perm l ∧ sorted.Pairwise fun a b => lt b a = false := by
  let le : {a // a ∈ l} → {a // a ∈ l} → Prop := fun a b => lt b.1 a.1 = false
  have : DecidableRel le := fun a b => inferInstanceAs (Decidable (lt b.1 a.1 = false))
  have : Std.Total le := ⟨fun a b => by
    cases hab : lt b.1 a.1 with
    | false => exact .inl hab
    | true => exact .inr (h.asymm b.1 a.1 b.2 a.2 hab)⟩
  have : IsTrans _ le := ⟨fun a b c hab hbc => h.not_lt_trans a.2 b.2 c.2 hab hbc⟩
  refine ⟨(l.attach.insertionSort le).map Subtype.val, ?_, ?_⟩
  · have hperm := (l.attach.perm_insertionSort le).map Subtype.val
    rw [List.attach_map_subtype_val] at hperm
    exact hperm
  · exact List.pairwise_map.mpr (l.attach.pairwise_insertionSort le)

end StrictWeakOn

/-- Elements at different places of the list are compared as by a strict weak order. -/
def Consistent (lt : α → α → Bool) (l : List α) : Prop :=
  ∃ lt', StrictWeakOn lt' (· ∈ l) ∧ l.Pairwise fun a b => lt a b = lt' a b ∧ lt b a = lt' b a

theorem StrictWeakOn.consistent (h : StrictWeakOn lt (· ∈ l)) : Consistent lt l :=
  ⟨lt, h, List.pairwise_of_forall fun _ _ => ⟨rfl, rfl⟩⟩

/-- The elements in an order in which no one comes before an earlier one. -/
structure SortedBy (lt : α → α → Bool) (l sorted : List α) : Prop where
  perm : sorted.Perm l
  pairwise : sorted.Pairwise fun a b => lt b a = false

theorem Consistent.exists_sortedBy (h : Consistent lt l) : ∃ sorted, SortedBy lt l sorted := by
  obtain ⟨lt', hweak, hsame⟩ := h
  obtain ⟨sorted, hperm, hpairwise⟩ := hweak.exists_sorted
  refine ⟨sorted, hperm, ?_⟩
  have hsymm : ∀ {a b : α}, (lt a b = lt' a b ∧ lt b a = lt' b a) →
      lt b a = lt' b a ∧ lt a b = lt' a b := And.symm
  have hsorted := (hperm.pairwise_iff hsymm).mpr hsame
  exact (hpairwise.and hsorted).imp fun h => h.2.2.trans h.1

/-- A sort of which nothing is known but what it promises: with a consistent comparison it returns
the sorted list. With another one it may fail. -/
structure SortWith (α : Type*) where
  sort : (α → α → Bool) → List α → Option (List α)
  sorts : ∀ {lt l}, Consistent lt l → ∃ sorted, sort lt l = some sorted ∧ SortedBy lt l sorted

namespace SortWith

open Classical in
/-- The sort that fails whenever it may. -/
noncomputable def strict (α : Type*) : SortWith α where
  sort lt l := if h : Consistent lt l then some h.exists_sortedBy.choose else none
  sorts h := ⟨_, dif_pos h, h.exists_sortedBy.choose_spec⟩

theorem strict_sort_isSome_iff : ((strict α).sort lt l).isSome ↔ Consistent lt l := by
  unfold strict
  dsimp only
  split_ifs with h
  · exact iff_of_true rfl h
  · exact iff_of_false Bool.false_ne_true h

/-- All sorts that keep the promise return something exactly for consistent comparisons. -/
theorem forall_isSome_iff : (∀ sorts : SortWith α, (sorts.sort lt l).isSome) ↔ Consistent lt l := by
  refine ⟨fun h => strict_sort_isSome_iff.mp (h (strict α)), fun h sorts => ?_⟩
  obtain ⟨sorted, hsorted, -⟩ := sorts.sorts h
  rw [hsorted]
  rfl

end SortWith

end Marathon.Lib
