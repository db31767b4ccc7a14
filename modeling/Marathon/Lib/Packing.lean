import Mathlib.Algebra.Order.Group.Defs
import Mathlib.Algebra.Order.BigOperators.Group.List
import Mathlib.Data.List.Lex
import Mathlib.Order.Bounds.Basic
import Mathlib.Tactic.Abel

/-!
# Packing quantities into bins

An assignment names a bin for each quantity. It fits when no bin that it names is filled beyond
its capacity. The assignments that fit are searched bin by bin, which finds the
lexicographically least one whenever there is one.
-/

namespace Marathon.Lib

/-- The first element of a list at which `f` succeeds, by its position. -/
theorem findSome?_eq_some_iff_getElem? {α β : Type*} {f : α → Option β} {l : List α} {b : β} :
    l.findSome? f = some b ↔
      ∃ (k : ℕ) (a : α), l[k]? = some a ∧ f a = some b ∧ ∀ j < k, ∀ a', l[j]? = some a' → f a' = none := by
  induction l with
  | nil => simp
  | cons x l ih =>
    rw [List.findSome?_cons]
    cases hx : f x with
    | some b' =>
      constructor
      · intro h
        exact ⟨0, x, rfl, hx.trans h, fun j hj => absurd hj (Nat.not_lt_zero j)⟩
      · rintro ⟨k, a, hk, hb, hfirst⟩
        cases k with
        | zero =>
          cases hk
          exact hx.symm.trans hb
        | succ k =>
          have hnone := hfirst 0 (Nat.succ_pos k) x rfl
          exact absurd (hx.symm.trans hnone) (Option.some_ne_none b')
    | none =>
      rw [ih]
      constructor
      · rintro ⟨k, a, hk, hb, hfirst⟩
        refine ⟨k + 1, a, hk, hb, ?_⟩
        intro j hj a' hj'
        cases j with
        | zero =>
          cases hj'
          exact hx
        | succ j => exact hfirst j (Nat.lt_of_succ_lt_succ hj) a' hj'
      · rintro ⟨k, a, hk, hb, hfirst⟩
        cases k with
        | zero =>
          cases hk
          exact absurd (hb.symm.trans hx) (Option.some_ne_none b)
        | succ k => exact ⟨k, a, hk, hb, fun j hj => hfirst (j + 1) (Nat.succ_lt_succ hj)⟩

/-- Keeping the first success while a list is passed. -/
theorem foldl_first {α β : Type*} (f : α → Option β) (l : List α) (acc : Option β) :
    l.foldl (fun acc a => acc.or (f a)) acc = acc.or (l.findSome? f) := by
  induction l generalizing acc with
  | nil => exact Option.or_none.symm
  | cons a l ih =>
    rw [List.foldl_cons, ih, List.findSome?_cons, Option.or_assoc]
    cases f a <;> rfl

variable {k : ℕ} {js ks ks' : List ℕ}

theorem getElem?_zipIdx_eq_some {α : Type*} {l : List α} {i : ℕ} {a : α} :
    l.zipIdx[i]? = some (a, k) ↔ l[i]? = some a ∧ i = k := by
  rw [List.getElem?_zipIdx, Option.map_eq_some_iff]
  constructor
  · rintro ⟨a', ha', heq⟩
    cases heq
    exact ⟨ha', (Nat.zero_add i).symm⟩
  · rintro ⟨ha, rfl⟩
    exact ⟨a, ha, by rw [Nat.zero_add]⟩

theorem cons_le_cons_iff {j : ℕ} : j :: js ≤ k :: ks ↔ j < k ∨ j = k ∧ js ≤ ks := by
  rw [← not_lt, List.cons_lt_cons_iff, not_or, not_and, ← not_lt (a := ks) (b := js)]
  obtain hlt | heq | hgt := lt_trichotomy j k
  · have hne : k ≠ j := hlt.ne'
    simp [hlt, hne, hlt.not_gt]
  · simp [heq]
  · have hne : j ≠ k := hgt.ne'
    simp [hgt, hne, hgt.not_gt]

theorem exists_renumbering {α : Type*} {l l' : List α} (h : l.Perm l') :
    ∃ σ : ℕ → ℕ, Function.Injective σ ∧ ∀ k a, l[k]? = some a → l'[σ k]? = some a := by
  induction h with
  | nil => exact ⟨id, Function.injective_id, fun k c hk => hk⟩
  | cons a h ih =>
    obtain ⟨σ, hσ, hget⟩ := ih
    refine ⟨Nat.rec 0 fun k _ => σ k + 1, ?_, ?_⟩
    · intro j k hjk
      cases j <;> cases k <;> simp_all [hσ.eq_iff]
    · intro k c hk
      cases k with
      | zero => exact hk
      | succ k => exact hget k c hk
  | swap a b l =>
    refine ⟨Equiv.swap 0 1, (Equiv.swap 0 1).injective, ?_⟩
    intro k c hk
    match k with
    | 0 =>
      rw [Equiv.swap_apply_left]
      exact hk
    | 1 =>
      rw [Equiv.swap_apply_right]
      exact hk
    | k + 2 =>
      rw [Equiv.swap_apply_of_ne_of_ne (by omega) (by omega)]
      exact hk
  | trans h₁ h₂ ih₁ ih₂ =>
    obtain ⟨σ, hσ, hget⟩ := ih₁
    obtain ⟨τ, hτ, hget'⟩ := ih₂
    exact ⟨τ ∘ σ, hτ.comp hσ, fun k c hk => hget' _ c (hget k c hk)⟩

/-! ## Serving equal quantities from one bin

Equal quantities cannot be told apart, so whoever asks for one is served from the first bin that
holds it. -/

section Redirect

variable {α : Type*} [LinearOrder α]

/-- The first bin that holds the quantity. -/
def firstBin (q : α) (qs : List α) (ks : List ℕ) : Option ℕ :=
  (((qs.zip ks).filter (·.1 = q)).map Prod.snd).min?

/-- What is put into each bin, the last quantity in front. -/
def stack {β : Type*} : List β → List ℕ → List (List β) → List (List β)
  | q :: qs, k :: ks, placed => stack qs ks (placed.modify k (q :: ·))
  | _, _, placed => placed

theorem mem_stack {β : Type*} {q : β} {qs : List β} {placed : List (List β)} :
    (∃ l, (stack qs ks placed)[k]? = some l ∧ q ∈ l) ↔
      (∃ l, placed[k]? = some l ∧ q ∈ l) ∨ (q, k) ∈ qs.zip ks ∧ k < placed.length := by
  induction qs generalizing ks placed with
  | nil => cases ks <;> simp [stack]
  | cons q' qs ih =>
    cases ks with
    | nil => simp [stack]
    | cons k' ks =>
      rw [stack, ih, List.length_modify, List.zip_cons_cons, List.mem_cons, Prod.mk.injEq]
      have hput : (∃ l, (placed.modify k' (q' :: ·))[k]? = some l ∧ q ∈ l) ↔
          (∃ l, placed[k]? = some l ∧ q ∈ l) ∨ (q = q' ∧ k = k') ∧ k < placed.length := by
        rw [List.getElem?_modify]
        by_cases hk : k' = k
        · subst hk
          by_cases hlt : k' < placed.length <;> simp [hlt, or_comm]
        · simp [hk, Ne.symm hk]
      rw [hput, or_assoc, ← or_and_right]

/-- The bins from which the quantities are served. -/
def redirect (qs : List α) (ks : List ℕ) : List ℕ := qs.map fun q => (firstBin q qs ks).getD 0

/-- No bin shares an equal quantity with another. -/
def Together (qs : List α) (ks : List ℕ) : Prop :=
  ∀ q k k', (q, k) ∈ qs.zip ks → (q, k') ∈ qs.zip ks → k = k'

theorem firstBin_eq_some_iff {q : α} {qs : List α} :
    firstBin q qs ks = some k ↔
      (q, k) ∈ qs.zip ks ∧ ∀ k', (q, k') ∈ qs.zip ks → k ≤ k' := by
  have hmem : ∀ j, j ∈ ((qs.zip ks).filter (·.1 = q)).map Prod.snd ↔ (q, j) ∈ qs.zip ks := by
    intro j
    rw [List.mem_map]
    constructor
    · rintro ⟨⟨q', j'⟩, hfilter, rfl⟩
      obtain ⟨hzip, heq⟩ := List.mem_filter.mp hfilter
      obtain rfl : q' = q := of_decide_eq_true heq
      exact hzip
    · intro hzip
      exact ⟨(q, j), List.mem_filter.mpr ⟨hzip, decide_eq_true rfl⟩, rfl⟩
  rw [firstBin, List.min?_eq_some_iff]
  simp only [hmem]

theorem exists_firstBin {q : α} {qs : List α} (h : (q, k) ∈ qs.zip ks) :
    ∃ j, firstBin q qs ks = some j ∧ j ≤ k := by
  cases hbin : firstBin q qs ks with
  | none =>
    rw [firstBin, List.min?_eq_none_iff, List.map_eq_nil_iff, List.filter_eq_nil_iff] at hbin
    exact absurd (decide_eq_true rfl) (hbin (q, k) h)
  | some j => exact ⟨j, rfl, (firstBin_eq_some_iff.mp hbin).2 k h⟩

theorem forall₂_redirect {r : ℕ → ℕ → Prop} {qs : List α} (hlen : ks.length = qs.length) :
    List.Forall₂ r (redirect qs ks) ks ↔
      ∀ q k, (q, k) ∈ qs.zip ks → r ((firstBin q qs ks).getD 0) k := by
  rw [redirect, List.forall₂_map_left_iff, List.forall₂_iff_zip]
  exact ⟨fun h q k hmem => h.2 hmem, fun h => ⟨hlen.symm, fun {q k} hmem => h q k hmem⟩⟩

theorem forall₂_redirect_le {qs : List α} (hlen : ks.length = qs.length) :
    List.Forall₂ (· ≤ ·) (redirect qs ks) ks := by
  rw [forall₂_redirect hlen]
  intro q k hmem
  obtain ⟨j, hj, hle⟩ := exists_firstBin hmem
  rwa [hj]

theorem redirect_eq_self_iff {qs : List α} (hlen : ks.length = qs.length) :
    redirect qs ks = ks ↔ Together qs ks := by
  rw [← List.forall₂_eq_eq_eq, forall₂_redirect hlen]
  constructor
  · intro h q k k' hk hk'
    exact (h q k hk).symm.trans (h q k' hk')
  · intro h q k hk
    obtain ⟨j, hj, -⟩ := exists_firstBin hk
    rw [hj]
    exact h q j k (firstBin_eq_some_iff.mp hj).1 hk

theorem le_of_forall₂ (h : List.Forall₂ (· ≤ ·) js ks) : js ≤ ks := by
  induction h with
  | nil => exact le_rfl
  | cons hle _ ih =>
    rw [cons_le_cons_iff]
    obtain hlt | heq := Nat.lt_or_eq_of_le hle
    · exact .inl hlt
    · exact .inr ⟨heq, ih⟩

end Redirect

/-! ## Assignments -/

variable {α : Type*} [AddCommGroup α]

/-- What an assignment puts into the bin `k`. -/
def load (k : ℕ) : List α → List ℕ → α
  | q :: qs, j :: ks => (if j = k then q else 0) + load k qs ks
  | _, _ => 0

theorem load_eq_zero {qs : List α} (h : k ∉ ks) : load k qs ks = 0 := by
  induction qs generalizing ks with
  | nil => cases ks <;> rfl
  | cons q qs ih =>
    cases ks with
    | nil => rfl
    | cons j ks =>
      have hj : j ≠ k := fun hjk => h (hjk ▸ List.mem_cons_self)
      rw [load, if_neg hj, ih fun hk => h (List.mem_cons_of_mem j hk), add_zero]

theorem load_map {σ : ℕ → ℕ} (hσ : Function.Injective σ) (k : ℕ) (qs : List α) (ks : List ℕ) :
    load (σ k) qs (ks.map σ) = load k qs ks := by
  induction qs generalizing ks with
  | nil => cases ks <;> rfl
  | cons q qs ih =>
    cases ks with
    | nil => rfl
    | cons j ks =>
      rw [List.map_cons, load, load, ih]
      simp only [hσ.eq_iff]

/-- The load of a bin when each quantity has its own bin. -/
theorem load_map_self (f : α → ℕ) (k : ℕ) (qs : List α) :
    load k qs (qs.map f) = (qs.map fun q => if f q = k then q else 0).sum := by
  induction qs with
  | nil => rfl
  | cons q qs ih => rw [List.map_cons, load, ih, List.map_cons, List.sum_cons]

variable [LinearOrder α]

/-- No bin that the assignment names is filled beyond its capacity. -/
structure Fits (qs caps : List α) (ks : List ℕ) : Prop where
  length_eq : ks.length = qs.length
  load_le : ∀ k ∈ ks, ∃ c, caps[k]? = some c ∧ load k qs ks ≤ c

def Packable (qs caps : List α) : Prop := ∃ ks, Fits qs caps ks

/-- The assignment tries the earliest bins for the first quantity, then for the second. -/
def IsFirstFit (qs caps : List α) (ks : List ℕ) : Prop := IsLeast {ks | Fits qs caps ks} ks

theorem IsFirstFit.unique {qs caps : List α} (h : IsFirstFit qs caps ks)
    (h' : IsFirstFit qs caps ks') : ks = ks' := IsLeast.unique h h'

theorem fits_nil {caps : List α} : Fits [] caps ks ↔ ks = [] := by
  constructor
  · intro h
    exact List.length_eq_zero_iff.mp h.length_eq
  · rintro rfl
    exact ⟨rfl, fun k hk => absurd hk List.not_mem_nil⟩

theorem Packable.perm {qs caps caps' : List α} (h : Packable qs caps) (hperm : caps.Perm caps') :
    Packable qs caps' := by
  obtain ⟨ks, hks⟩ := h
  obtain ⟨σ, hσ, hget⟩ := exists_renumbering hperm
  refine ⟨ks.map σ, ?_, ?_⟩
  · rw [List.length_map, hks.length_eq]
  · intro k hk
    obtain ⟨j, hj, rfl⟩ := List.mem_map.mp hk
    obtain ⟨c, hc, hle⟩ := hks.load_le j hj
    exact ⟨c, hget j c hc, by rwa [load_map hσ]⟩

theorem packable_perm_iff {qs caps caps' : List α} (h : caps.Perm caps') :
    Packable qs caps ↔ Packable qs caps' :=
  ⟨fun hp => hp.perm h, fun hp => hp.perm h.symm⟩

/-- Nothing is overdrawn exactly when no equal quantities lie in different bins: what serves them
would be an assignment before the first one. -/
theorem IsFirstFit.fits_redirect_iff {qs caps : List α} (h : IsFirstFit qs caps ks) :
    Fits qs caps (redirect qs ks) ↔ Together qs ks := by
  rw [← redirect_eq_self_iff h.1.length_eq]
  constructor
  · intro hfits
    apply le_antisymm
    · exact le_of_forall₂ (forall₂_redirect_le h.1.length_eq)
    · exact h.2 hfits
  · intro heq
    rw [heq]
    exact h.1

/-- The search for an assignment, bin after bin for each quantity. -/
def firstFit : List α → List α → Option (List ℕ)
  | [], _ => some []
  | q :: qs, caps => caps.zipIdx.findSome? fun bin =>
      if q ≤ bin.1 then (firstFit qs (caps.set bin.2 (bin.1 - q))).map (bin.2 :: ·) else none

theorem firstFit_cons (q : α) (qs caps : List α) :
    firstFit (q :: qs) caps = caps.zipIdx.findSome? fun bin =>
      if q ≤ bin.1 then (firstFit qs (caps.set bin.2 (bin.1 - q))).map (bin.2 :: ·) else none := rfl

variable [IsOrderedAddMonoid α]

theorem load_nonneg {qs : List α} (hqs : ∀ q ∈ qs, 0 ≤ q) (ks : List ℕ) : 0 ≤ load k qs ks := by
  induction qs generalizing ks with
  | nil => cases ks <;> exact le_rfl
  | cons q qs ih =>
    cases ks with
    | nil => exact le_rfl
    | cons j ks =>
      have hq := hqs q List.mem_cons_self
      have htail := ih (fun q' hq' => hqs q' (List.mem_cons_of_mem q hq')) ks
      rw [load]
      split
      · exact add_nonneg hq htail
      · rwa [zero_add]

theorem fits_cons {q : α} {qs caps : List α} (hqs : ∀ q ∈ qs, 0 ≤ q) :
    Fits (q :: qs) caps (k :: ks) ↔
      ∃ c, caps[k]? = some c ∧ q ≤ c ∧ Fits qs (caps.set k (c - q)) ks := by
  constructor
  · intro h
    obtain ⟨c, hc, hle⟩ := h.load_le k List.mem_cons_self
    rw [load, if_pos rfl] at hle
    have hlt : k < caps.length := (List.getElem?_eq_some_iff.mp hc).1
    refine ⟨c, hc, ?_, ?_, ?_⟩
    · exact (le_add_of_nonneg_right (load_nonneg hqs ks)).trans hle
    · exact Nat.succ.inj h.length_eq
    · intro j hj
      by_cases hjk : j = k
      · subst hjk
        exact ⟨c - q, List.getElem?_set_self hlt, le_sub_iff_add_le'.mpr hle⟩
      · obtain ⟨c', hc', hle'⟩ := h.load_le j (List.mem_cons_of_mem k hj)
        rw [load, if_neg (Ne.symm hjk), zero_add] at hle'
        exact ⟨c', by rwa [List.getElem?_set_ne (Ne.symm hjk)], hle'⟩
  · rintro ⟨c, hc, hqc, h⟩
    have hlt : k < caps.length := (List.getElem?_eq_some_iff.mp hc).1
    refine ⟨congrArg Nat.succ h.length_eq, ?_⟩
    intro j hj
    by_cases hjk : j = k
    · subst hjk
      refine ⟨c, hc, ?_⟩
      rw [load, if_pos rfl]
      by_cases hmem : j ∈ ks
      · obtain ⟨c', hc', hle⟩ := h.load_le j hmem
        rw [List.getElem?_set_self hlt] at hc'
        cases hc'
        exact le_sub_iff_add_le'.mp hle
      · rwa [load_eq_zero hmem, add_zero]
    · obtain ⟨c', hc', hle⟩ := h.load_le j (List.mem_of_ne_of_mem hjk hj)
      rw [List.getElem?_set_ne (Ne.symm hjk)] at hc'
      exact ⟨c', hc', by rwa [load, if_neg (Ne.symm hjk), zero_add]⟩

/-! ## What the search finds -/

theorem firstFit_spec {qs : List α} (hqs : ∀ q ∈ qs, 0 ≤ q) (caps : List α) :
    (∀ ks, firstFit qs caps = some ks → IsFirstFit qs caps ks) ∧
      (firstFit qs caps = none → ¬ Packable qs caps) := by
  induction qs generalizing caps with
  | nil =>
    refine ⟨?_, fun h => absurd h (Option.some_ne_none [])⟩
    intro ks hks
    cases hks
    exact ⟨fits_nil.mpr rfl, fun ks' _ => not_lt.mp (List.not_lt_nil ks')⟩
  | cons q qs ih =>
    have hnn : ∀ q' ∈ qs, 0 ≤ q' := fun q' hq' => hqs q' (List.mem_cons_of_mem q hq')
    -- what the search finds when it starts with the bin `k`
    have hbin : ∀ k c, caps[k]? = some c →
        (if q ≤ c then (firstFit qs (caps.set k (c - q))).map (k :: ·) else none) = none →
        ∀ ks, ¬ Fits (q :: qs) caps (k :: ks) := by
      intro k c hc hnone ks hfits
      obtain ⟨c', hc', hle, htail⟩ := (fits_cons hnn).mp hfits
      cases hc.symm.trans hc'
      rw [if_pos hle, Option.map_eq_none_iff] at hnone
      exact (ih hnn _).2 hnone ⟨ks, htail⟩
    constructor
    · intro ks hks
      rw [firstFit_cons, findSome?_eq_some_iff_getElem?] at hks
      obtain ⟨k, ⟨c, i⟩, hi, hfound, hfirst⟩ := hks
      obtain ⟨hc, rfl⟩ := getElem?_zipIdx_eq_some.mp hi
      dsimp only at hfound
      have hle : q ≤ c := by
        by_contra hlt
        rw [if_neg hlt] at hfound
        exact absurd hfound.symm (Option.some_ne_none ks)
      rw [if_pos hle] at hfound
      obtain ⟨tail, htail, rfl⟩ := Option.map_eq_some_iff.mp hfound
      obtain ⟨hfits, hleast⟩ := (ih hnn _).1 tail htail
      refine ⟨(fits_cons hnn).mpr ⟨c, hc, hle, hfits⟩, ?_⟩
      intro ks' hks'
      cases ks' with
      | nil => exact absurd hks'.length_eq (by simp)
      | cons j ks' =>
        rw [cons_le_cons_iff]
        obtain ⟨c', hc', -, htail'⟩ := (fits_cons hnn).mp hks'
        obtain hlt | rfl | hgt := lt_trichotomy k j
        · exact .inl hlt
        · cases hc.symm.trans hc'
          exact .inr ⟨rfl, hleast htail'⟩
        · exact absurd hks' (hbin j c' hc'
            (hfirst j hgt (c', j) (getElem?_zipIdx_eq_some.mpr ⟨hc', rfl⟩)) ks')
    · rintro hnone ⟨ks, hks⟩
      rw [firstFit_cons, List.findSome?_eq_none_iff] at hnone
      cases ks with
      | nil => exact absurd hks.length_eq (by simp)
      | cons k ks =>
        obtain ⟨c, hc, -, -⟩ := (fits_cons hnn).mp hks
        exact hbin k c hc (hnone (c, k) (List.mk_mem_zipIdx_iff_getElem?.mpr hc)) ks hks

theorem firstFit_eq_some_iff {qs caps : List α} (hqs : ∀ q ∈ qs, 0 ≤ q) :
    firstFit qs caps = some ks ↔ IsFirstFit qs caps ks := by
  constructor
  · exact (firstFit_spec hqs caps).1 ks
  · intro h
    cases hfound : firstFit qs caps with
    | none => exact absurd ⟨ks, h.1⟩ ((firstFit_spec hqs caps).2 hfound)
    | some ks' => rw [((firstFit_spec hqs caps).1 ks' hfound).unique h]

theorem exists_firstFit_iff {qs caps : List α} (hqs : ∀ q ∈ qs, 0 ≤ q) :
    (∃ ks, firstFit qs caps = some ks) ↔ Packable qs caps := by
  constructor
  · rintro ⟨ks, hks⟩
    exact ⟨ks, ((firstFit_spec hqs caps).1 ks hks).1⟩
  · intro h
    cases hfound : firstFit qs caps with
    | none => exact absurd h ((firstFit_spec hqs caps).2 hfound)
    | some ks => exact ⟨ks, rfl⟩

/-- The quantities that fit are no more than the bins hold. -/
theorem Fits.sum_le {qs caps : List α} (hqs : ∀ q ∈ qs, 0 ≤ q)
    (hcaps : ∀ c ∈ caps, 0 ≤ c) (h : Fits qs caps ks) : qs.sum ≤ caps.sum := by
  induction qs generalizing caps ks with
  | nil => exact List.sum_nonneg hcaps
  | cons q qs ih =>
    obtain ⟨hq, hrest⟩ := List.forall_mem_cons.mp hqs
    cases ks with
    | nil => exact absurd h.length_eq (by simp)
    | cons k ks =>
      obtain ⟨c, hc, hle, htail⟩ := (fits_cons hrest).mp h
      obtain ⟨hlt, hget⟩ := List.getElem?_eq_some_iff.mp hc
      have hset : ∀ c' ∈ caps.set k (c - q), 0 ≤ c' := by
        intro c' hc'
        obtain hmem | rfl := List.mem_or_eq_of_mem_set hc'
        · exact hcaps c' hmem
        · exact sub_nonneg.mpr hle
      have hsum : (caps.set k (c - q)).sum = caps.sum - q := by
        rw [List.sum_set', dif_pos hlt, hget]
        abel
      calc (q :: qs).sum = q + qs.sum := List.sum_cons
        _ ≤ q + (caps.set k (c - q)).sum := add_le_add_right (ih hrest hset htail) q
        _ = caps.sum := by rw [hsum, add_sub_cancel]

/-! ## Partitions -/

/-- The quantities are divided into parts, one for each bin, and no bin that gets something is filled
beyond its capacity. -/
structure Partitions (qs caps : List α) (parts : List (List α)) : Prop where
  perm : parts.flatten.Perm qs
  within : List.Forall₂ (fun part cap => part ≠ [] → part.sum ≤ cap) parts caps

theorem load_append (k : ℕ) {qs qs' : List α} (h : ks.length = qs.length) :
    load k (qs ++ qs') (ks ++ ks') = load k qs ks + load k qs' ks' := by
  induction qs generalizing ks with
  | nil =>
    rw [List.length_eq_zero_iff.mp h]
    exact (zero_add _).symm
  | cons q qs ih =>
    cases ks with
    | nil => cases h
    | cons j ks =>
      rw [List.cons_append, List.cons_append, load, load, ih (Nat.succ.inj h), add_assoc]

theorem Packable.of_perm {qs qs' caps : List α} (hqs : ∀ q ∈ qs, 0 ≤ q) (h : qs.Perm qs')
    (hp : Packable qs caps) : Packable qs' caps := by
  induction h generalizing caps with
  | nil => exact hp
  | @cons q qs qs' h ih =>
    have hrest : ∀ q ∈ qs, 0 ≤ q := fun q hq => hqs q (List.mem_cons_of_mem _ hq)
    obtain ⟨_ | ⟨k, ks⟩, hks⟩ := hp
    · exact absurd hks.length_eq (by simp)
    · obtain ⟨c, hc, hle, htail⟩ := (fits_cons hrest).mp hks
      obtain ⟨ks', hks'⟩ := ih hrest ⟨ks, htail⟩
      exact ⟨k :: ks', (fits_cons fun q hq => hrest q (h.mem_iff.mpr hq)).mpr ⟨c, hc, hle, hks'⟩⟩
  | swap a b qs =>
    obtain ⟨_ | ⟨j, _ | ⟨k, ks⟩⟩, hks⟩ := hp
    · exact absurd hks.length_eq (by simp)
    · exact absurd hks.length_eq (by simp)
    · refine ⟨k :: j :: ks, hks.length_eq, fun i hi => ?_⟩
      obtain ⟨c, hc, hle⟩ := hks.load_le i ((List.Perm.swap j k ks).mem_iff.mp hi)
      rw [load, load, add_left_comm] at hle
      exact ⟨c, hc, hle⟩
  | trans h h' ih ih' => exact ih' (fun q hq => hqs q (h.mem_iff.mpr hq)) (ih hqs hp)

theorem packable_of_within {caps : List α} {parts : List (List α)}
    (h : List.Forall₂ (fun part cap => part ≠ [] → part.sum ≤ cap) parts caps) :
    Packable parts.flatten caps := by
  induction h with
  | nil => exact ⟨[], rfl, fun k hk => absurd hk List.not_mem_nil⟩
  | @cons part cap parts caps hpart _ ih =>
    obtain ⟨ks, hlength, hload⟩ := ih
    have hfirst : (part.map fun _ => 0).length = part.length := List.length_map ..
    refine ⟨part.map (fun _ => 0) ++ ks.map Nat.succ, ?_, ?_⟩
    · rw [List.flatten_cons, List.length_append, List.length_append, hfirst, List.length_map, hlength]
    intro k hk
    rw [List.flatten_cons, load_append k hfirst, load_map_self]
    cases k with
    | zero =>
      have hne : part ≠ [] := by
        rintro rfl
        obtain ⟨j, -, hj⟩ := List.mem_map.mp hk
        cases hj
      have hrest : load 0 parts.flatten (ks.map Nat.succ) = 0 := by
        apply load_eq_zero
        intro hmem
        obtain ⟨j, -, hj⟩ := List.mem_map.mp hmem
        cases hj
      refine ⟨cap, rfl, ?_⟩
      rw [hrest, add_zero]
      simpa using hpart hne
    | succ k =>
      have hmem : k ∈ ks := by
        rcases List.mem_append.mp hk with hmem | hmem
        · obtain ⟨q, -, hj⟩ := List.mem_map.mp hmem
          cases hj
        · obtain ⟨j, hj, heq⟩ := List.mem_map.mp hmem
          exact Nat.succ.inj heq ▸ hj
      obtain ⟨c, hc, hle⟩ := hload k hmem
      refine ⟨c, hc, ?_⟩
      rw [load_map Nat.succ_injective]
      simpa using hle

theorem length_stack (qs : List α) (ks : List ℕ) (placed : List (List α)) :
    (stack qs ks placed).length = placed.length := by
  induction qs generalizing ks placed with
  | nil => cases ks <;> rfl
  | cons q qs ih =>
    cases ks with
    | nil => rfl
    | cons k ks => rw [stack, ih, List.length_modify]

theorem sum_stack (k : ℕ) (qs : List α) (ks : List ℕ) (placed : List (List α)) :
    (stack qs ks placed)[k]?.map List.sum = placed[k]?.map fun part => load k qs ks + part.sum := by
  induction qs generalizing ks placed with
  | nil => cases ks <;> simp [stack, load]
  | cons q qs ih =>
    cases ks with
    | nil => simp [stack, load]
    | cons j ks =>
      rw [stack, ih, load, List.getElem?_modify]
      cases placed[k]? with
      | none => rfl
      | some part =>
        by_cases hj : j = k
        · simp only [hj, if_true, Option.map_eq_map, Option.map_some, List.sum_cons, Option.some.injEq]
          abel
        · simp only [hj, if_false, zero_add, Option.map_eq_map, Option.map_some]

theorem flatten_stack_perm {qs : List α} {placed : List (List α)}
    (hlength : ks.length = qs.length) (hks : ∀ k ∈ ks, k < placed.length) :
    (stack qs ks placed).flatten.Perm (qs ++ placed.flatten) := by
  induction qs generalizing ks placed with
  | nil => cases ks <;> exact List.Perm.refl _
  | cons q qs ih =>
    cases ks with
    | nil => cases hlength
    | cons k ks =>
      have hk := hks k List.mem_cons_self
      have hput : (placed.modify k (q :: ·)).flatten.Perm (q :: placed.flatten) := by
        rw [List.modify_eq_take_cons_drop hk]
        conv_rhs => rw [← List.take_append_drop k placed, List.drop_eq_getElem_cons hk]
        rw [List.flatten_append, List.flatten_append, List.flatten_cons, List.flatten_cons]
        exact List.perm_middle
      have hks' : ∀ j ∈ ks, j < (placed.modify k (q :: ·)).length := by
        intro j hj
        rw [List.length_modify]
        exact hks j (List.mem_cons_of_mem _ hj)
      have hrest := ih (Nat.succ.inj hlength) hks'
      exact (hrest.trans (hput.append_left qs)).trans List.perm_middle

/-- What an assignment that fits puts into the bins. -/
theorem Fits.partitions {qs caps : List α} (h : Fits qs caps ks) :
    Partitions qs caps (stack qs ks (caps.map fun _ => [])) := by
  have hempty : (caps.map fun _ => ([] : List α)).flatten = [] :=
    List.flatten_eq_nil_iff.mpr fun part hpart => by
      obtain ⟨c, -, rfl⟩ := List.mem_map.mp hpart
      rfl
  constructor
  · have hks : ∀ k ∈ ks, k < (caps.map fun _ => ([] : List α)).length := by
      intro k hk
      obtain ⟨c, hc, -⟩ := h.load_le k hk
      rw [List.length_map]
      exact (List.getElem?_eq_some_iff.mp hc).1
    have hperm := flatten_stack_perm h.length_eq hks
    rwa [hempty, List.append_nil] at hperm
  · have hlength : (stack qs ks (caps.map fun _ => [])).length = caps.length := by
      rw [length_stack, List.length_map]
    refine List.forall₂_iff_get.mpr ⟨hlength, fun k hk hk' hne => ?_⟩
    have hget := List.getElem?_eq_getElem hk
    have hsum := sum_stack k qs ks (caps.map fun _ => [])
    rw [hget, List.getElem?_map, List.getElem?_eq_getElem hk', Option.map_some, Option.map_some,
      Option.map_some, Option.some.injEq, List.sum_nil, add_zero] at hsum
    -- something has been put into the bin
    obtain ⟨q, hq⟩ := List.exists_mem_of_ne_nil _ hne
    have hmem : (q, k) ∈ qs.zip ks := by
      rcases mem_stack.mp ⟨_, hget, hq⟩ with ⟨part, hpart, hq⟩ | ⟨hmem, -⟩
      · rw [List.getElem?_map, List.getElem?_eq_getElem hk', Option.map_some] at hpart
        cases hpart
        cases hq
      · exact hmem
    obtain ⟨c, hc, hle⟩ := h.load_le k (List.of_mem_zip hmem).2
    obtain ⟨_, rfl⟩ := List.getElem?_eq_some_iff.mp hc
    rw [List.get_eq_getElem, List.get_eq_getElem, hsum]
    exact hle

theorem packable_iff_partitions {qs caps : List α} (hqs : ∀ q ∈ qs, 0 ≤ q) :
    Packable qs caps ↔ ∃ parts, Partitions qs caps parts := by
  constructor
  · rintro ⟨ks, hks⟩
    exact ⟨_, hks.partitions⟩
  · rintro ⟨parts, hparts⟩
    exact (packable_of_within hparts.within).of_perm
      (fun q hq => hqs q (hparts.perm.mem_iff.mp hq)) hparts.perm

end Marathon.Lib
