import Mathlib.Data.List.MinMax

/-!
# First fit and best fit

Items are put into bins, one item into a bin. First fit takes the first bin that an item fits into,
best fit a smallest one. They agree on the bins that are ordered for the items.
-/

namespace Marathon.Lib

variable {α β γ : Type*} [DecidableEq β] [LinearOrder γ]

/-- The bins of the items: each item gets the first bin that fits it and that is not taken yet. -/
def fillFirst (fits : α → β → Bool) : List α → List β → Option (List β)
  | [], _ => some []
  | a :: items, bins =>
    match bins.find? (fits a) with
    | none => none
    | some b => (fillFirst fits items (bins.filter (· ≠ b))).map (b :: ·)

/-- Each item gets a smallest one of the bins that fit it and that are not taken yet. -/
inductive BestFit (fits : α → β → Bool) (size : β → γ) : List α → List β → List β → Prop
  | nil (bins : List β) : BestFit fits size [] bins []
  | cons {a : α} {items : List α} {b : β} {bins given : List β} (hmem : b ∈ bins)
      (hfits : fits a b = true) (hsmallest : ∀ b' ∈ bins, fits a b' = true → size b ≤ size b')
      (hrest : BestFit fits size items (bins.filter (· ≠ b)) given) :
      BestFit fits size (a :: items) bins (b :: given)

/-- The first one of the smallest bins that fit. -/
def smallestFit (fits : α → β → Bool) (size : β → γ) (a : α) (bins : List β) : Option β :=
  (bins.filter (fits a)).argmin size

/-- While each item gets the smallest bin that fits it, this bin stands before the larger ones that
fit and that are not taken yet. -/
def SmallestFirst (fits : α → β → Bool) (size : β → γ) : List α → List β → Prop
  | [], _ => True
  | a :: items, bins => ∀ b, smallestFit fits size a bins = some b →
      (∀ b' ∈ bins, fits a b' = true → size b < size b' → bins.idxOf b < bins.idxOf b') ∧
        SmallestFirst fits size items (bins.filter (· ≠ b))

variable {fits : α → β → Bool} {size : β → γ} {a : α} {b : β} {items : List α}
  {bins given : List β}

theorem exists_of_fillFirst_cons (h : fillFirst fits (a :: items) bins = some given) :
    ∃ b rest, bins.find? (fits a) = some b ∧
      fillFirst fits items (bins.filter (· ≠ b)) = some rest ∧ given = b :: rest := by
  rw [fillFirst] at h
  cases hfind : bins.find? (fits a) with
  | none =>
    rw [hfind] at h
    cases h
  | some b =>
    rw [hfind] at h
    obtain ⟨rest, hrest, rfl⟩ := Option.map_eq_some_iff.mp h
    exact ⟨b, rest, rfl, hrest, rfl⟩

theorem mem_smallestFit (h : smallestFit fits size a bins = some b) :
    b ∈ bins ∧ fits a b = true ∧ ∀ b' ∈ bins, fits a b' = true → size b ≤ size b' := by
  obtain ⟨hmem, hle, -⟩ := List.argmin_eq_some_iff.mp h
  obtain ⟨hbin, hfits⟩ := List.mem_filter.mp hmem
  exact ⟨hbin, hfits, fun b' hb' hfits' => hle b' (List.mem_filter.mpr ⟨hb', hfits'⟩)⟩

theorem filter_of_find?_eq_some (h : bins.find? (fits a) = some b) :
    ∃ rest, bins.filter (fits a) = b :: rest := by
  rw [← List.head?_filter] at h
  exact List.head?_eq_some_iff.mp h

theorem smallestFit_of_find? (hfind : bins.find? (fits a) = some b)
    (hsmallest : ∀ b' ∈ bins, fits a b' = true → size b ≤ size b') :
    smallestFit fits size a bins = some b := by
  obtain ⟨rest, hfilter⟩ := filter_of_find?_eq_some hfind
  refine List.argmin_eq_some_iff.mpr ⟨?_, fun b' hb' => ?_, fun b' _ _ => ?_⟩
  · rw [hfilter]
    exact List.mem_cons_self
  · obtain ⟨hmem, hfits⟩ := List.mem_filter.mp hb'
    exact hsmallest b' hmem hfits
  · rw [hfilter, List.idxOf_cons_self]
    exact Nat.zero_le _

theorem idxOf_le_of_find? (hfind : bins.find? (fits a) = some b) {b' : β}
    (hfits : fits a b' = true) : bins.idxOf b ≤ bins.idxOf b' := by
  obtain ⟨-, front, back, rfl, hfront⟩ := List.find?_eq_some_iff_append.mp hfind
  have hnotMem : ∀ c, fits a c = true → c ∉ front := by
    intro c hc hmem
    have hnot := hfront c hmem
    rw [hc] at hnot
    cases hnot
  have hb : (front ++ b :: back).idxOf b = front.length := by
    rw [List.idxOf_append_of_notMem (hnotMem b (List.find?_some hfind)), List.idxOf_cons_self,
      Nat.add_zero]
  rw [hb, List.idxOf_append_of_notMem (hnotMem b' hfits)]
  exact Nat.le_add_right _ _

theorem find?_of_smallestFit (hsmallest : smallestFit fits size a bins = some b)
    (hbefore : ∀ b' ∈ bins, fits a b' = true → size b < size b' → bins.idxOf b < bins.idxOf b') :
    bins.find? (fits a) = some b := by
  obtain ⟨hmem, hfits, hle⟩ := mem_smallestFit hsmallest
  cases hfind : bins.find? (fits a) with
  | none => exact absurd hfits (List.find?_eq_none.mp hfind b hmem)
  | some first =>
    have hfirstMem := List.mem_of_find?_eq_some hfind
    have hfillFirsts := List.find?_some hfind
    have hnotLess : ¬size b < size first := by
      intro hlt
      have hafter := hbefore first hfirstMem hfillFirsts hlt
      have hle := idxOf_le_of_find? hfind hfits
      omega
    have hfirst := smallestFit_of_find? hfind fun b' hb' hfits' =>
      (not_lt.mp hnotLess).trans (hle b' hb' hfits')
    rw [hsmallest] at hfirst
    exact hfirst.symm

/-- First fit is best fit exactly if the bins are ordered for the items. -/
theorem bestFit_iff (h : fillFirst fits items bins = some given) :
    BestFit fits size items bins given ↔ SmallestFirst fits size items bins := by
  induction items generalizing bins given with
  | nil =>
    cases h
    exact iff_of_true (.nil bins) trivial
  | cons a items ih =>
    obtain ⟨b, rest, hfind, hrest, rfl⟩ := exists_of_fillFirst_cons h
    have hfits := List.find?_some hfind
    constructor
    · intro hbest
      cases hbest with
      | cons hmem _ hsmallest hbest =>
        have hb := smallestFit_of_find? hfind hsmallest
        intro c hc
        cases hb.symm.trans hc
        refine ⟨fun b' _ hfits' hlt => ?_, (ih hrest).mp hbest⟩
        refine (idxOf_le_of_find? hfind hfits').lt_of_ne fun heq => ?_
        rw [(List.idxOf_inj hmem).mp heq] at hlt
        exact lt_irrefl _ hlt
    · intro hfirst
      have hne : bins.filter (fits a) ≠ [] := by
        obtain ⟨rest, hfilter⟩ := filter_of_find?_eq_some hfind
        simp [hfilter]
      cases hsmallest : smallestFit fits size a bins with
      | none => exact absurd (List.argmin_eq_none.mp hsmallest) hne
      | some c =>
        obtain ⟨hbefore, hfirst⟩ := hfirst c hsmallest
        cases (find?_of_smallestFit hsmallest hbefore).symm.trans hfind
        obtain ⟨hmem, -, hle⟩ := mem_smallestFit hsmallest
        exact .cons hmem hfits hle ((ih hrest).mpr hfirst)

/-! ## What first fit gives -/

theorem subset_of_fillFirst (h : fillFirst fits items bins = some given) : given ⊆ bins := by
  induction items generalizing bins given with
  | nil =>
    cases h
    exact List.nil_subset bins
  | cons a items ih =>
    obtain ⟨b, rest, hfind, hrest, rfl⟩ := exists_of_fillFirst_cons h
    refine List.cons_subset.mpr ⟨List.mem_of_find?_eq_some hfind, ?_⟩
    exact fun c hc => List.mem_of_mem_filter (ih hrest hc)

/-- No bin is given twice. -/
theorem nodup_of_fillFirst (h : fillFirst fits items bins = some given) : given.Nodup := by
  induction items generalizing bins given with
  | nil =>
    cases h
    exact List.nodup_nil
  | cons a items ih =>
    obtain ⟨b, rest, -, hrest, rfl⟩ := exists_of_fillFirst_cons h
    refine List.nodup_cons.mpr ⟨fun hmem => ?_, ih hrest⟩
    have hne := (List.mem_filter.mp (subset_of_fillFirst hrest hmem)).2
    exact of_decide_eq_true hne rfl

theorem forall₂_of_fillFirst (h : fillFirst fits items bins = some given) :
    List.Forall₂ (fun a b => fits a b = true) items given := by
  induction items generalizing bins given with
  | nil =>
    cases h
    exact .nil
  | cons a items ih =>
    obtain ⟨b, rest, hfind, hrest, rfl⟩ := exists_of_fillFirst_cons h
    exact .cons (List.find?_some hfind) (ih hrest)

end Marathon.Lib
