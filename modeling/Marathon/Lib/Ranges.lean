import Mathlib.Data.List.Nodup

/-!
# Ranges of numbers

Ranges with both ends, and the numbers that are in them.
-/

namespace Marathon.Lib.Ranges

variable {ranges ranges' : List (ℕ × ℕ)} {n : ℕ}

/-- The number is in one of the ranges. -/
def Covers (ranges : List (ℕ × ℕ)) (n : ℕ) : Prop := ∃ range ∈ ranges, range.1 ≤ n ∧ n ≤ range.2

/-- No range is empty, and no number is in two of them. -/
structure Separate (ranges : List (ℕ × ℕ)) : Prop where
  nonempty : ∀ range ∈ ranges, range.1 ≤ range.2
  disjoint : ranges.Pairwise fun r s => r.2 < s.1 ∨ s.2 < r.1

namespace Separate

theorem nil : Separate [] where
  nonempty _ h := absurd h List.not_mem_nil
  disjoint := .nil

theorem singleton {range : ℕ × ℕ} (h : range.1 ≤ range.2) : Separate [range] where
  nonempty _ hmem := List.mem_singleton.mp hmem ▸ h
  disjoint := List.pairwise_singleton _ _

/-- Ranges may be cut into separate parts. -/
theorem flatMap {f : ℕ × ℕ → List (ℕ × ℕ)} (h : Separate ranges)
    (hf : ∀ range ∈ ranges, Separate (f range) ∧
      ∀ part ∈ f range, range.1 ≤ part.1 ∧ part.2 ≤ range.2) : Separate (ranges.flatMap f) where
  nonempty part hpart := by
    obtain ⟨range, hrange, hpart⟩ := List.mem_flatMap.mp hpart
    exact (hf range hrange).1.nonempty part hpart
  disjoint := by
    rw [List.flatMap_def, List.pairwise_flatten]
    constructor
    · intro parts hparts
      obtain ⟨range, hrange, rfl⟩ := List.mem_map.mp hparts
      exact (hf range hrange).1.disjoint
    · refine List.pairwise_map.mpr (h.disjoint.imp_of_mem fun {r s} hr hs hrs p hp q hq => ?_)
      have hpart := (hf r hr).2 p hp
      have hpart' := (hf s hs).2 q hq
      omega

end Separate

end Marathon.Lib.Ranges
