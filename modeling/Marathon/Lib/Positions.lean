import Mathlib.Algebra.GroupWithZero.Nat
import Mathlib.Data.List.Basic
import Mathlib.Algebra.Order.Group.Nat

/-!
# Entries by position

Lists that only grow at their end and in which single entries are replaced: calls and work
items are named by their positions in them.
-/

namespace Marathon.Lib

variable {α : Type*} {l : List α} {a b : α} {n m : ℕ}

theorem lt_length_of_getElem? (h : l[n]? = some a) : n < l.length :=
  (List.getElem?_eq_some_iff.mp h).1

/-- The entries of a list that has grown by one. -/
theorem getElem?_concat_eq_some :
    (l ++ [b])[m]? = some a ↔ l[m]? = some a ∨ m = l.length ∧ a = b := by
  rcases Nat.lt_trichotomy m l.length with hlt | rfl | hgt
  · rw [List.getElem?_append_left hlt]
    exact (or_iff_left fun h => absurd h.1 hlt.ne).symm
  · rw [List.getElem?_append_right le_rfl, Nat.sub_self, List.getElem?_eq_none le_rfl]
    constructor
    · intro h
      exact .inr ⟨rfl, (Option.some.inj h).symm⟩
    · rintro (h | ⟨-, rfl⟩)
      · cases h
      · rfl
  · have hlen : (l ++ [b]).length ≤ m := by
      rw [List.length_append, List.length_singleton]
      omega
    rw [List.getElem?_eq_none hlen, List.getElem?_eq_none hgt.le]
    constructor
    · intro h
      cases h
    · rintro (h | ⟨rfl, -⟩)
      · cases h
      · exact absurd hgt (Nat.lt_irrefl _)

/-- The entries of a list after one of them is replaced. -/
theorem getElem?_set_eq_some (hn : n < l.length) :
    (l.set n b)[m]? = some a ↔ m = n ∧ a = b ∨ m ≠ n ∧ l[m]? = some a := by
  by_cases heq : m = n
  · subst heq
    rw [List.getElem?_set_self hn]
    constructor
    · intro h
      exact .inl ⟨rfl, (Option.some.inj h).symm⟩
    · rintro (⟨-, rfl⟩ | ⟨hne, -⟩)
      · rfl
      · exact absurd rfl hne
  · rw [List.getElem?_set_ne fun h => heq h.symm]
    constructor
    · exact fun h => .inr ⟨heq, h⟩
    · exact fun h => h.elim (fun h => absurd h.1 heq) And.right

theorem countP_set_add {p : α → Bool} (h : l[n]? = some a) :
    (l.set n b).countP p + (if p a then 1 else 0) = l.countP p + (if p b then 1 else 0) := by
  obtain ⟨hn, ha⟩ := List.getElem?_eq_some_iff.mp h
  have hle := List.boole_getElem_le_countP (p := p) hn
  rw [List.countP_set hn]
  rw [ha] at hle ⊢
  omega

/-- Measures add up over the entries. -/
theorem sum_map_set_add {f : α → ℕ} (h : l[n]? = some a) :
    ((l.set n b).map f).sum + f a = (l.map f).sum + f b := by
  induction l generalizing n with
  | nil => cases h
  | cons x l ih =>
    cases n with
    | zero =>
      cases h
      simp only [List.set_cons_zero, List.map_cons, List.sum_cons]
      omega
    | succ n =>
      have htail := ih h
      simp only [List.set_cons_succ, List.map_cons, List.sum_cons]
      omega

theorem modify_eq_set_of_getElem? {f : α → α} (h : l[n]? = some a) :
    l.modify n f = l.set n (f a) := by
  apply List.ext_getElem?
  intro m
  rw [List.getElem?_modify, List.getElem?_set]
  split_ifs with heq hn
  · rw [← heq, h]
    rfl
  · exact absurd (lt_length_of_getElem? h) hn
  · exact Option.map_id'

end Marathon.Lib
