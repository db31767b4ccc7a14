import Mathlib.Data.List.Induction

/-!
# The last element of a kind

In a history the last element with some property, and what came after it.
-/

namespace Marathon.Lib

variable {α : Type*} {p : α → Prop} {l after : List α} {x y : α}

/-- The element is the last one of its kind, and these come after it. -/
structure IsLast (p : α → Prop) (l : List α) (x : α) (after : List α) : Prop where
  exists_eq : ∃ before, l = before ++ x :: after
  holds : p x
  not_after : ∀ y ∈ after, ¬p y

namespace IsLast

@[simp] theorem not_nil : ¬IsLast p [] x after := by
  rintro ⟨⟨before, h⟩, -, -⟩
  simp at h

/-- A new element of the kind is the last one. -/
theorem concat_iff_of_pos (hy : p y) : IsLast p (l ++ [y]) x after ↔ x = y ∧ after = [] := by
  constructor
  · rintro ⟨⟨before, heq⟩, -, hafter⟩
    rcases List.eq_nil_or_concat after with rfl | ⟨rest, z, rfl⟩
    · obtain ⟨-, h⟩ := List.append_inj' heq rfl
      exact ⟨(List.cons.inj h).1.symm, rfl⟩
    · rw [List.concat_eq_append, ← List.cons_append, ← List.append_assoc] at heq
      obtain ⟨-, h⟩ := List.append_inj' heq rfl
      obtain rfl := (List.cons.inj h).1
      exact absurd hy (hafter y (by simp))
  · rintro ⟨rfl, rfl⟩
    exact ⟨⟨l, rfl⟩, hy, by simp⟩

/-- An element of another kind comes after the last one. -/
theorem concat_iff_of_neg (hy : ¬p y) :
    IsLast p (l ++ [y]) x after ↔ ∃ rest, after = rest ++ [y] ∧ IsLast p l x rest := by
  constructor
  · rintro ⟨⟨before, heq⟩, hx, hafter⟩
    rcases List.eq_nil_or_concat after with rfl | ⟨rest, z, rfl⟩
    · obtain ⟨-, h⟩ := List.append_inj' heq rfl
      exact absurd ((List.cons.inj h).1 ▸ hx) hy
    · rw [List.concat_eq_append, ← List.cons_append, ← List.append_assoc] at heq
      obtain ⟨hl, h⟩ := List.append_inj' heq rfl
      obtain rfl := (List.cons.inj h).1
      rw [List.concat_eq_append] at hafter
      exact ⟨rest, List.concat_eq_append, ⟨before, hl⟩, hx,
        fun z hz => hafter z (List.mem_append_left _ hz)⟩
  · rintro ⟨rest, rfl, ⟨before, rfl⟩, hx, hafter⟩
    refine ⟨⟨before, by simp⟩, hx, ?_⟩
    intro z hz
    rcases List.mem_append.mp hz with hz | hz
    · exact hafter z hz
    · exact List.mem_singleton.mp hz ▸ hy

/-- There is one last element of a kind. -/
theorem unique {after' : List α} (h : IsLast p l x after) (h' : IsLast p l y after') :
    x = y ∧ after = after' := by
  induction l using List.reverseRecOn generalizing after after' with
  | nil => exact absurd h not_nil
  | append_singleton l z ih =>
    by_cases hz : p z
    · obtain ⟨rfl, rfl⟩ := (concat_iff_of_pos hz).mp h
      obtain ⟨rfl, rfl⟩ := (concat_iff_of_pos hz).mp h'
      exact ⟨rfl, rfl⟩
    · obtain ⟨rest, rfl, hrest⟩ := (concat_iff_of_neg hz).mp h
      obtain ⟨rest', rfl, hrest'⟩ := (concat_iff_of_neg hz).mp h'
      obtain ⟨rfl, rfl⟩ := ih hrest hrest'
      exact ⟨rfl, rfl⟩

/-- The last element stays the last one while no other of its kind comes. -/
theorem append (h : IsLast p l x after) {more : List α} (hmore : ∀ y ∈ more, ¬p y) :
    IsLast p (l ++ more) x (after ++ more) where
  exists_eq := by
    obtain ⟨before, rfl⟩ := h.exists_eq
    exact ⟨before, by rw [List.append_assoc, List.cons_append]⟩
  holds := h.holds
  not_after y hy := (List.mem_append.mp hy).elim (h.not_after y) (hmore y)

end IsLast

end Marathon.Lib
