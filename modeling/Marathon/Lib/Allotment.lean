import Mathlib

/-!
# Allotments

Demands for a number of things are served one after the other. Each takes what its owner has
already, and the rest of a pool that all of them share.
-/

namespace Marathon.Lib

variable {α ι : Type*}

/-- The demand for a number of things, with those that its owner has. -/
structure Demand (α : Type*) where
  amount : ℕ
  own : List α

namespace Demand

/-- What the owner has and uses again. -/
def reused (r : Demand α) : List α := r.own.take r.amount

/-- How many things must come from the pool. -/
def missing (r : Demand α) : ℕ := r.amount - r.own.length

theorem length_reused_add_missing (r : Demand α) : r.reused.length + r.missing = r.amount := by
  rw [reused, missing, List.length_take]
  omega

/-- What each owner gets, if the pool is large enough. -/
def serve : List (Demand α) → List α → Option (List (List α))
  | [], _ => some []
  | r :: rs, pool =>
    if r.missing ≤ pool.length then
      (serve rs (pool.drop r.missing)).map fun given => (r.reused ++ pool.take r.missing) :: given
    else none

/-- How many things all demands need from the pool. -/
def shortage (rs : List (Demand α)) : ℕ := (rs.map missing).sum

/-- All that is used again. -/
def allReused (rs : List (Demand α)) : List α := rs.flatMap reused

@[simp] theorem shortage_nil : shortage ([] : List (Demand α)) = 0 := rfl

@[simp] theorem shortage_cons (r : Demand α) (rs : List (Demand α)) :
    shortage (r :: rs) = r.missing + shortage rs := by
  rw [shortage, List.map_cons, List.sum_cons, shortage]

@[simp] theorem allReused_nil : allReused ([] : List (Demand α)) = [] := rfl

@[simp] theorem allReused_cons (r : Demand α) (rs : List (Demand α)) :
    allReused (r :: rs) = r.reused ++ allReused rs := List.flatMap_cons

variable {rs : List (Demand α)} {pool : List α} {given : List (List α)}

theorem serve_cons_eq_some {r : Demand α} :
    serve (r :: rs) pool = some given ↔
      r.missing ≤ pool.length ∧ ∃ rest, serve rs (pool.drop r.missing) = some rest ∧
        given = (r.reused ++ pool.take r.missing) :: rest := by
  rw [serve]
  split_ifs with h
  · rw [Option.map_eq_some_iff]
    simp only [h, true_and, eq_comm]
  · simp [h]

theorem isSome_serve : (serve rs pool).isSome ↔ shortage rs ≤ pool.length := by
  induction rs generalizing pool with
  | nil => simp [serve]
  | cons r rs ih =>
    rw [serve, shortage_cons]
    split_ifs with h
    · rw [Option.isSome_map, ih, List.length_drop]
      omega
    · simp only [Option.isSome_none, Bool.false_eq_true, false_iff]
      omega

theorem length_of_serve (h : serve rs pool = some given) :
    List.Forall₂ (fun r g => g.length = r.amount) rs given := by
  induction rs generalizing pool given with
  | nil =>
    cases h
    exact .nil
  | cons r rs ih =>
    obtain ⟨hle, rest, hrest, rfl⟩ := serve_cons_eq_some.mp h
    refine .cons ?_ (ih hrest)
    have hlength := r.length_reused_add_missing
    rw [List.length_append, List.length_take]
    omega

/-- What is given has been used before, or is from the front of the pool. -/
theorem perm_of_serve (h : serve rs pool = some given) :
    given.flatten.Perm (allReused rs ++ pool.take (shortage rs)) := by
  induction rs generalizing pool given with
  | nil =>
    cases h
    simp
  | cons r rs ih =>
    obtain ⟨-, rest, hrest, rfl⟩ := serve_cons_eq_some.mp h
    rw [List.flatten_cons, allReused_cons, shortage_cons, List.take_add, List.append_assoc,
      List.append_assoc]
    refine List.Perm.append_left _ (((ih hrest).append_left _).trans ?_)
    rw [← List.append_assoc, ← List.append_assoc]
    exact List.perm_append_comm.append_right _

/-- Nothing is given twice as long as nothing is used again twice. -/
theorem nodup_iff_of_serve (h : serve rs pool = some given) (hpool : pool.Nodup)
    (hown : ∀ r ∈ rs, ∀ x ∈ r.own, x ∉ pool) : given.flatten.Nodup ↔ (allReused rs).Nodup := by
  rw [(perm_of_serve h).nodup_iff, List.nodup_append']
  constructor
  · exact fun hnodup => hnodup.1
  · intro hnodup
    refine ⟨hnodup, (List.take_sublist _ _).nodup hpool, ?_⟩
    intro x hx hx'
    obtain ⟨r, hr, hx⟩ := List.mem_flatMap.mp hx
    exact hown r hr x (List.mem_of_mem_take hx) (List.mem_of_mem_take hx')

theorem mem_of_serve (h : serve rs pool = some given) {x : α} (hx : x ∈ given.flatten) :
    x ∈ allReused rs ∨ x ∈ pool := by
  rcases List.mem_append.mp ((perm_of_serve h).mem_iff.mp hx) with hx | hx
  · exact .inl hx
  · exact .inr (List.mem_of_mem_take hx)

/-- A way to meet every demand, of those that are its own and of
those in the pool, and none of them twice. -/
structure Serves (pool : List α) (rs : List (Demand α)) (given : List (List α)) : Prop where
  each : List.Forall₂ (fun r g => g.length = r.amount ∧ ∀ x ∈ g, x ∈ r.own ∨ x ∈ pool) rs given
  nodup : given.flatten.Nodup

/-- How the demands are met does not matter: no way needs less of the pool. -/
theorem Serves.shortage_le (h : Serves pool rs given) : shortage rs ≤ pool.length := by
  classical
  obtain ⟨heach, hnodup⟩ := h
  have hfrom : shortage rs ≤ (given.flatten.filter (· ∈ pool)).length := by
    induction heach with
    | nil => exact Nat.zero_le _
    | @cons r g rs given hg _ ih =>
      rw [List.flatten_cons, List.nodup_append'] at hnodup
      have hrest := ih hnodup.2.1
      have hown : (g.filter fun x => ¬x ∈ pool).length ≤ r.own.length := by
        refine (List.subperm_of_subset (hnodup.1.filter _) ?_).length_le
        intro x hx
        obtain ⟨hx, hpool⟩ := List.mem_filter.mp hx
        exact (hg.2 x hx).resolve_right (of_decide_eq_true hpool)
      have hsplit := List.length_eq_length_filter_add (l := g) fun x => decide (x ∈ pool)
      simp only [decide_not] at hown
      rw [shortage_cons, List.flatten_cons, List.filter_append, List.length_append, missing]
      omega
  refine hfrom.trans (List.subperm_of_subset (hnodup.filter _) ?_).length_le
  intro x hx
  exact of_decide_eq_true (List.mem_filter.mp hx).2

end Demand

/-! ## Blanks -/

section Blanks

variable [DecidableEq α] (blank : α)

/-- Puts what is given in the place of the blanks. -/
def fill : List α → List α → List α
  | [], _ => []
  | x :: xs, [] => x :: xs
  | x :: xs, g :: given =>
    if x = blank then g :: fill xs given else x :: fill xs (g :: given)

/-- What stands in the place of the blanks. -/
def filled (xs ys : List α) : List α := ((xs.zip ys).filter fun p => p.1 = blank).map Prod.snd

variable {blank} {xs given : List α}

theorem fill_cons_of_ne {x : α} (hx : x ≠ blank) :
    fill blank (x :: xs) given = x :: fill blank xs given := by
  cases given with
  | nil => cases xs <;> rfl
  | cons g given => rw [fill, if_neg hx]

theorem fill_cons_self {g : α} :
    fill blank (blank :: xs) (g :: given) = g :: fill blank xs given := by
  rw [fill, if_pos rfl]

theorem filled_cons_self {y : α} {ys : List α} :
    filled blank (blank :: xs) (y :: ys) = y :: filled blank xs ys := by
  simp [filled]

theorem filled_cons_of_ne {x y : α} {ys : List α} (hx : x ≠ blank) :
    filled blank (x :: xs) (y :: ys) = filled blank xs ys := by
  simp [filled, hx]

/-- Only blanks are replaced. -/
theorem forall₂_fill (xs given : List α) :
    List.Forall₂ (fun x y => x = y ∨ x = blank) xs (fill blank xs given) := by
  induction xs generalizing given with
  | nil => exact .nil
  | cons x xs ih =>
    by_cases hx : x = blank
    · subst hx
      cases given with
      | nil => exact List.forall₂_same.mpr fun y _ => .inl rfl
      | cons g given =>
        rw [fill_cons_self]
        exact .cons (.inr rfl) (ih given)
    · rw [fill_cons_of_ne hx]
      exact .cons (.inl rfl) (ih given)

theorem length_fill (xs given : List α) : (fill blank xs given).length = xs.length :=
  (forall₂_fill xs given).length_eq.symm

theorem fill_eq_self (h : blank ∉ xs) : fill blank xs given = xs := by
  induction xs with
  | nil => rfl
  | cons x xs ih =>
    obtain ⟨hx, hxs⟩ := not_or.mp (List.mem_cons.not.mp h)
    rw [fill_cons_of_ne (Ne.symm hx), ih hxs]

/-- One value for every blank: they stand where the blanks have been. -/
theorem filled_fill (h : given.length = xs.count blank) : filled blank xs (fill blank xs given) = given := by
  induction xs generalizing given with
  | nil => exact (List.length_eq_zero_iff.mp h).symm
  | cons x xs ih =>
    by_cases hx : x = blank
    · subst hx
      rw [List.count_cons_self] at h
      obtain ⟨g, given, rfl⟩ := List.exists_cons_of_length_eq_add_one h
      rw [fill_cons_self, filled_cons_self, ih (by simpa using h)]
    · rw [List.count_cons_of_ne hx] at h
      rw [fill_cons_of_ne hx, filled_cons_of_ne hx, ih h]

/-- The values that are not blank stay, and what is given comes to them. -/
theorem fill_perm (h : given.length = xs.count blank) :
    (fill blank xs given).Perm (given ++ xs.filter (· ≠ blank)) := by
  induction xs generalizing given with
  | nil =>
    rw [List.length_eq_zero_iff.mp h]
    exact .nil
  | cons x xs ih =>
    by_cases hx : x = blank
    · subst hx
      rw [List.count_cons_self] at h
      obtain ⟨g, given, rfl⟩ := List.exists_cons_of_length_eq_add_one h
      rw [fill_cons_self, List.filter_cons_of_neg (by simp)]
      exact (ih (by simpa using h)).cons g
    · rw [List.count_cons_of_ne hx] at h
      rw [fill_cons_of_ne hx, List.filter_cons_of_pos (by simpa using hx)]
      exact ((ih h).cons x).trans List.perm_middle.symm

end Blanks

end Marathon.Lib
