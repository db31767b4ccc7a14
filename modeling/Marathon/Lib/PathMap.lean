import Mathlib.Data.List.Infix

/-!
# Trees by their paths

A tree given by what stands at each path from its root. A path is made with all that lead to it,
and taken away with all that it leads to.
-/

namespace Marathon.Lib

/-- What stands at each path, if anything does. -/
abbrev PathMap (S α : Type*) := List S → Option α

namespace PathMap

variable {S α : Type*} [DecidableEq S]

/-- Whatever leads to a node is a node. -/
def Closed (m : PathMap S α) : Prop := ∀ p q, p <+: q → (m q).isSome → (m p).isSome

/-- The tree with the path `p`, on which nodes are fresh that have not been there. -/
def makePath (fresh : List S → α) (p : List S) (m : PathMap S α) : PathMap S α :=
  fun q => if q <+: p then some ((m q).getD (fresh q)) else m q

def modify (p : List S) (f : α → α) (m : PathMap S α) : PathMap S α :=
  fun q => if q = p then (m q).map f else m q

/-- `f` at the path and at all that it leads to. -/
def modifyBelow (p : List S) (f : α → α) (m : PathMap S α) : PathMap S α :=
  fun q => if p <+: q then (m q).map f else m q

/-- The tree without the node at `p` and all that it leads to. -/
def prune (p : List S) (m : PathMap S α) : PathMap S α := fun q => if p <+: q then none else m q

/-- The tree with another one in the place of what stands at `p` and below. -/
def graft (p : List S) (n m : PathMap S α) : PathMap S α := fun q => if p <+: q then n q else m q

/-- At the path, or at one that it leads to, stands something with the property. -/
def Occupied (P : α → Prop) (p : List S) (m : PathMap S α) : Prop :=
  ∃ q a, p <+: q ∧ m q = some a ∧ P a

variable {m n : PathMap S α} {fresh : List S → α} {p q r : List S} {f : α → α}

theorem makePath_of_leads (h : q <+: p) :
    makePath fresh p m q = some ((m q).getD (fresh q)) := if_pos h

theorem makePath_of_not_leads (h : ¬q <+: p) : makePath fresh p m q = m q := if_neg h

/-- A path that is there need not be made. -/
theorem makePath_of_isSome (fresh : List S → α) (hm : m.Closed) (h : (m p).isSome) : makePath fresh p m = m := by
  funext q
  by_cases hq : q <+: p
  · obtain ⟨a, ha⟩ := Option.isSome_iff_exists.mp (hm q p hq h)
    rw [makePath_of_leads hq, ha]
    rfl
  · exact makePath_of_not_leads hq

theorem modify_self : modify p f m p = (m p).map f := if_pos rfl

theorem modify_of_ne (h : q ≠ p) : modify p f m q = m q := if_neg h

theorem modify_eq_self (h : ∀ a, m p = some a → f a = a) : modify p f m = m := by
  funext q
  by_cases hq : q = p
  · rw [hq, modify_self]
    cases ha : m p with
    | none => rfl
    | some a => exact congrArg some (h a ha)
  · exact modify_of_ne hq

theorem prune_of_leads (h : p <+: q) : prune p m q = none := if_pos h

theorem prune_of_not_leads (h : ¬p <+: q) : prune p m q = m q := if_neg h

/-- Nothing is taken away where there is nothing. -/
theorem prune_of_eq_none (hm : m.Closed) (h : m p = none) : prune p m = m := by
  funext q
  by_cases hq : p <+: q
  · rw [prune_of_leads hq, eq_comm, ← Option.not_isSome_iff_eq_none]
    intro hsome
    have hp := hm p q hq hsome
    rw [h] at hp
    cases hp
  · exact prune_of_not_leads hq

/-! ### What is changed below a path before or after a tree is grafted there -/

theorem graft_of_leads (h : p <+: q) : graft p n m q = n q := if_pos h

theorem graft_of_not_leads (h : ¬p <+: q) : graft p n m q = m q := if_neg h

theorem graft_eq_self (h : ∀ q, p <+: q → n q = m q) : graft p n m = m := by
  funext q
  by_cases hq : p <+: q
  · rw [graft_of_leads hq, h q hq]
  · exact graft_of_not_leads hq

theorem graft_modify (h : p <+: r) : graft p (modify r f n) m = modify r f (graft p n m) := by
  funext q
  by_cases hq : p <+: q
  · rw [graft_of_leads hq, modify, modify, graft_of_leads hq]
  · have hne : q ≠ r := fun heq => hq (heq ▸ h)
    rw [graft_of_not_leads hq, modify_of_ne hne, graft_of_not_leads hq]

theorem graft_modifyBelow : graft p (modifyBelow p f n) m = modifyBelow p f (graft p n m) := by
  funext q
  by_cases hq : p <+: q
  · rw [graft_of_leads hq, modifyBelow, modifyBelow, graft_of_leads hq]
  · rw [graft_of_not_leads hq, modifyBelow, if_neg hq, graft_of_not_leads hq]

theorem graft_prune (h : p <+: r) : graft p (prune r n) m = prune r (graft p n m) := by
  funext q
  by_cases hq : p <+: q
  · rw [graft_of_leads hq, prune, prune, graft_of_leads hq]
  · have hr : ¬r <+: q := fun hr => hq (h.trans hr)
    rw [graft_of_not_leads hq, prune_of_not_leads hr, graft_of_not_leads hq]

theorem graft_graft {k : PathMap S α} (h : p <+: r) :
    graft p (graft r n k) m = graft r n (graft p k m) := by
  funext q
  by_cases hq : p <+: q
  · rw [graft_of_leads hq, graft, graft, graft_of_leads hq]
  · have hr : ¬r <+: q := fun hr => hq (h.trans hr)
    rw [graft_of_not_leads hq, graft_of_not_leads hr, graft_of_not_leads hq]

/-- Under what is grafted only the path to it is made. -/
theorem graft_makePath_concat (s : S) :
    graft (p ++ [s]) n (makePath fresh (p ++ [s]) m) = graft (p ++ [s]) n (makePath fresh p m) := by
  funext q
  by_cases hq : p ++ [s] <+: q
  · rw [graft_of_leads hq, graft_of_leads hq]
  · rw [graft_of_not_leads hq, graft_of_not_leads hq]
    by_cases hle : q <+: p
    · rw [makePath_of_leads hle, makePath_of_leads (hle.trans (List.prefix_append _ _))]
    · rw [makePath_of_not_leads hle, makePath_of_not_leads]
      intro hle'
      rcases List.prefix_concat_iff.mp hle' with rfl | hle'
      · exact hq (List.prefix_refl _)
      · exact hle hle'

theorem occupied_graft {P : α → Prop} (h : p <+: r) :
    Occupied P r (graft p n m) ↔ Occupied P r n := by
  constructor
  · rintro ⟨q, a, hq, ha, hP⟩
    rw [graft_of_leads (h.trans hq)] at ha
    exact ⟨q, a, hq, ha, hP⟩
  · rintro ⟨q, a, hq, ha, hP⟩
    refine ⟨q, a, hq, ?_, hP⟩
    rw [graft_of_leads (h.trans hq)]
    exact ha

end PathMap

end Marathon.Lib
