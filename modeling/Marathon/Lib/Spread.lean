import Mathlib.Algebra.GroupWithZero.Nat
import Mathlib.Algebra.Order.BigOperators.Group.Finset
import Mathlib.Data.Finset.Max

/-!
# Values that are spread evenly

Values are added one after another. Of each there may be as many as a quota, and one more as long
as a remainder is not used up; a value that is not there yet may be added while there are fewer
values than groups.
-/

namespace Marathon.Lib

variable {V : Type*} [DecidableEq V] {n q r : ℕ} {l : List V} {v : V}

theorem countP_map_eq {α : Type*} (l : List α) (f : α → V) (v : V) :
    (l.countP fun a => f a = v) = (l.map f).count v := by
  rw [List.count, List.countP_map]
  refine List.countP_congr fun a _ => ?_
  simp

/-! ## As many of each as a bound -/

/-- No value is there more than `n` times. -/
def AtMost (n : ℕ) (l : List V) : Prop := ∀ v, l.count v ≤ n

namespace AtMost

theorem nil : AtMost n ([] : List V) := fun v => by simp

theorem perm {l' : List V} (h : AtMost n l) (hperm : l.Perm l') : AtMost n l' := by
  intro v
  rw [← hperm.count_eq]
  exact h v

theorem cons (h : AtMost n l) (hcount : l.count v < n) : AtMost n (v :: l) := by
  intro w
  have hw := h w
  by_cases heq : v = w
  · subst heq
    rw [List.count_cons_self]
    omega
  · rw [List.count_cons_of_ne heq]
    exact hw

end AtMost

/-! ## Quotas and a remainder -/

/-- How many of the values are beyond the quota. -/
def excess (q : ℕ) (l : List V) : ℕ := ∑ v ∈ l.toFinset, (l.count v - q)

theorem excess_eq_sum_dedup (q : ℕ) (l : List V) :
    excess q l = (l.dedup.map fun v => l.count v - q).sum := by
  have hsame : l.toFinset = l.dedup.toFinset := by ext v; simp
  rw [excess, hsame, List.sum_toFinset _ l.nodup_dedup]

theorem excess_eq_sum {s : Finset V} (hs : l.toFinset ⊆ s) :
    excess q l = ∑ v ∈ s, (l.count v - q) := by
  refine Finset.sum_subset hs fun v _ hv => ?_
  rw [List.mem_toFinset] at hv
  rw [List.count_eq_zero.mpr hv, Nat.zero_sub]

theorem excess_cons (q : ℕ) (v : V) (l : List V) :
    excess q (v :: l) = excess q l + if q ≤ l.count v then 1 else 0 := by
  have hsub : l.toFinset ⊆ (v :: l).toFinset := by simp [List.toFinset_cons]
  have hv : v ∈ (v :: l).toFinset := by simp
  have hothers : ∑ w ∈ (v :: l).toFinset.erase v, ((v :: l).count w - q) =
      ∑ w ∈ (v :: l).toFinset.erase v, (l.count w - q) := by
    refine Finset.sum_congr rfl fun w hw => ?_
    rw [List.count_cons_of_ne (Finset.ne_of_mem_erase hw).symm]
  rw [excess_eq_sum hsub, excess, ← Finset.add_sum_erase _ _ hv, ← Finset.add_sum_erase _ _ hv,
    hothers, List.count_cons_self]
  split_ifs <;> omega

theorem sum_count (l : List V) : ∑ v ∈ l.toFinset, l.count v = l.length :=
  List.sum_toFinset_count_eq_length l

theorem excess_zero (l : List V) : excess 0 l = l.length := by
  rw [← sum_count, excess]
  simp

theorem length_le_excess (q : ℕ) (l : List V) : l.length ≤ q * l.toFinset.card + excess q l := by
  have hle : ∑ v ∈ l.toFinset, l.count v ≤ ∑ v ∈ l.toFinset, (q + (l.count v - q)) :=
    Finset.sum_le_sum fun v _ => by omega
  rw [sum_count, Finset.sum_add_distrib, Finset.sum_const, Nat.nsmul_eq_mul,
    Nat.mul_comm] at hle
  exact hle

theorem length_lt_excess (hv : v ∈ l) (hcount : l.count v < q) :
    l.length < q * l.toFinset.card + excess q l := by
  have hlt : ∑ v ∈ l.toFinset, l.count v < ∑ v ∈ l.toFinset, (q + (l.count v - q)) :=
    Finset.sum_lt_sum (fun v _ => by omega) ⟨v, List.mem_toFinset.mpr hv, by omega⟩
  rw [sum_count, Finset.sum_add_distrib, Finset.sum_const, Nat.nsmul_eq_mul,
    Nat.mul_comm] at hlt
  exact hlt

theorem length_eq_excess (h : ∀ w ∈ l, q ≤ l.count w) :
    l.length = q * l.toFinset.card + excess q l := by
  have heq : ∑ v ∈ l.toFinset, l.count v = ∑ v ∈ l.toFinset, (q + (l.count v - q)) :=
    Finset.sum_congr rfl fun v hv => by
      have hle := h v (List.mem_toFinset.mp hv)
      omega
  rw [sum_count, Finset.sum_add_distrib, Finset.sum_const, Nat.nsmul_eq_mul, Nat.mul_comm] at heq
  exact heq

theorem card_le_excess (h : ∀ w ∈ l, q < l.count w) : l.toFinset.card ≤ excess q l := by
  have hle : ∑ _v ∈ l.toFinset, 1 ≤ ∑ v ∈ l.toFinset, (l.count v - q) :=
    Finset.sum_le_sum fun v hv => by
      have hlt := h v (List.mem_toFinset.mp hv)
      omega
  rw [Finset.sum_const, Nat.nsmul_eq_mul, Nat.mul_one] at hle
  exact hle

/-- At most `n` values, each at most once more than the quota `q`, and at most `r` of them beyond
it. -/
structure Spread (n q r : ℕ) (l : List V) : Prop where
  card_le : l.toFinset.card ≤ n
  count_le : ∀ v, l.count v ≤ q + 1
  excess_le : excess q l ≤ r

/-- Every value that is there has its quota or one more, and unless the quota is zero there are as
many values as groups. -/
structure Even (n q : ℕ) (l : List V) : Prop where
  count_eq : ∀ v ∈ l, l.count v = q ∨ l.count v = q + 1
  card_eq : 0 < q → l.toFinset.card = n

/-- Another `v` may be added. -/
def Spread.Admits (n q r : ℕ) (l : List V) (v : V) : Prop :=
  if v ∈ l then l.count v < q ∨ l.count v = q ∧ excess q l < r else l.toFinset.card < n

/-- Some value is below the quota. -/
def Below (q : ℕ) (l : List V) : Prop := ∃ v ∈ l, l.count v < q

/-- There are fewer values than groups, and `v` is not there yet, or there is no value of which
there are fewer. -/
def Wanted (n : ℕ) (l : List V) (v : V) : Prop :=
  if l.toFinset.card < n then v ∉ l else v ∈ l ∧ ∀ w ∈ l, l.count v ≤ l.count w

namespace Spread

/-- A value of which there are the fewest may be added exactly while some value is below its quota
or the values are not as many as the quotas and the remainder. -/
theorem admits_least_iff (hcard : l.toFinset.card = n) (hr : r < n) (hv : v ∈ l)
    (hleast : ∀ w ∈ l, l.count v ≤ l.count w) :
    Admits n q r l v ↔ l.length < q * n + r ∨ Below q l := by
  unfold Admits
  rw [if_pos hv]
  rcases Nat.lt_trichotomy (l.count v) q with hlt | heq | hgt
  · exact iff_of_true (.inl hlt) (.inr ⟨v, hv, hlt⟩)
  · have hlength := length_eq_excess (q := q) fun w hw => heq ▸ hleast w hw
    have hnone : ¬Below q l := by
      rintro ⟨w, hw, hlt⟩
      have hle := hleast w hw
      omega
    rw [hcard] at hlength
    simp only [hnone, or_false]
    omega
  · -- all values are beyond the quota, which is more than the remainder allows
    have hbeyond : ∀ w ∈ l, q < l.count w := fun w hw => Nat.lt_of_lt_of_le hgt (hleast w hw)
    have hlength := length_eq_excess (q := q) fun w hw => (hbeyond w hw).le
    have hexcess := card_le_excess hbeyond
    have hnone : ¬Below q l := by
      rintro ⟨w, hw, hlt⟩
      have hle := hbeyond w hw
      omega
    rw [hcard] at hlength hexcess
    simp only [hnone, or_false]
    omega

theorem exists_least (h : l ≠ []) : ∃ v ∈ l, ∀ w ∈ l, l.count v ≤ l.count w := by
  obtain ⟨v, hv, hleast⟩ := l.toFinset.exists_min_image l.count (by simpa using h)
  exact ⟨v, List.mem_toFinset.mp hv, fun w hw => hleast w (List.mem_toFinset.mpr hw)⟩

/-- All values that are wanted may be added exactly while there are fewer values than groups, or
fewer than the quotas and the remainder, or too few of one of them. -/
theorem forall_wanted_iff (hcard : l.toFinset.card ≤ n) (hr : r < n) :
    (∀ v, Wanted n l v → Admits n q r l v) ↔
      l.toFinset.card < n ∨ l.length < q * n + r ∨ Below q l := by
  unfold Wanted
  by_cases hlt : l.toFinset.card < n
  · refine iff_of_true (fun v hv => ?_) (.inl hlt)
    rw [if_pos hlt] at hv
    rw [Admits, if_neg hv]
    exact hlt
  · have hall : l.toFinset.card = n := by omega
    have hne : l ≠ [] := by
      rintro rfl
      simp only [List.toFinset_nil, Finset.card_empty] at hall
      omega
    simp only [hlt, if_false, false_or]
    constructor
    · intro h
      obtain ⟨v, hv, hleast⟩ := exists_least hne
      exact (admits_least_iff hall hr hv hleast).mp (h v ⟨hv, hleast⟩)
    · rintro h v ⟨hv, hleast⟩
      exact (admits_least_iff hall hr hv hleast).mpr h

theorem nil : Spread n q r ([] : List V) where
  card_le := by simp
  count_le := by simp
  excess_le := by simp [excess]

theorem perm {l' : List V} (h : Spread n q r l) (hperm : l.Perm l') : Spread n q r l' where
  card_le := by
    rw [← List.toFinset_eq_of_perm _ _ hperm]
    exact h.card_le
  count_le v := by
    rw [← hperm.count_eq]
    exact h.count_le v
  excess_le := by
    have hsame : excess q l' = excess q l := by
      rw [excess, excess, List.toFinset_eq_of_perm _ _ hperm]
      exact Finset.sum_congr rfl fun v _ => by rw [hperm.count_eq]
    rw [hsame]
    exact h.excess_le

/-- A value that may be added leaves the values spread evenly, as long as the quotas of all groups
and the remainder are not used up. -/
theorem cons (h : Spread n q r l) (hv : Admits n q r l v) (hlength : l.length < q * n + r) :
    Spread n q r (v :: l) := by
  unfold Admits at hv
  have hexcess := excess_cons q v l
  by_cases hmem : v ∈ l
  · rw [if_pos hmem] at hv
    refine ⟨?_, fun w => ?_, ?_⟩
    · rw [List.toFinset_cons, Finset.insert_eq_of_mem (List.mem_toFinset.mpr hmem)]
      exact h.card_le
    · have hw := h.count_le w
      by_cases heq : v = w
      · subst heq
        rw [List.count_cons_self]
        omega
      · rw [List.count_cons_of_ne heq]
        exact hw
    · have hle := h.excess_le
      split_ifs at hexcess <;> omega
  · rw [if_neg hmem] at hv
    have hzero : l.count v = 0 := List.count_eq_zero.mpr hmem
    refine ⟨?_, fun w => ?_, ?_⟩
    · rw [List.toFinset_cons, Finset.card_insert_of_notMem (by simpa using hmem)]
      exact hv
    · have hw := h.count_le w
      by_cases heq : v = w
      · subst heq
        rw [List.count_cons_self]
        omega
      · rw [List.count_cons_of_ne heq]
        exact hw
    · -- a new value is beyond its quota only if the quota is zero, and then all values are
      have hle := h.excess_le
      rw [hzero] at hexcess
      split_ifs at hexcess with hq
      · obtain rfl : q = 0 := Nat.le_zero.mp hq
        rw [excess_zero, excess_zero] at hexcess
        rw [excess_zero]
        omega
      · omega

/-- When the quotas of all groups and the remainder are used up the values are even. -/
theorem even (h : Spread n q r l) (hlength : l.length = q * n + r) : Even n q l where
  count_eq v hv := by
    have hcard : q * l.toFinset.card ≤ q * n := Nat.mul_le_mul_left q h.card_le
    have hexcess := h.excess_le
    have hle := h.count_le v
    by_contra hnot
    have hlt := length_lt_excess (q := q) hv (by omega)
    omega
  card_eq hq := by
    have hexcess := h.excess_le
    have hle := length_le_excess q l
    refine Nat.le_antisymm h.card_le (Nat.le_of_mul_le_mul_left ?_ hq)
    omega

end Spread

end Marathon.Lib
