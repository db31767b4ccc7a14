import Marathon.Lib.Dict

/-!
# Trees of nodes

A tree of named nodes, each with data, as coordination services keep one. A node is
given by its path, which lists the names from the node up to the root, so that the path
of a child is a name put in front of the path of its parent. The root always exists,
and so does the parent of every node.
-/

namespace Marathon.Lib

structure NodeTree (α β : Type*) [DecidableEq α] where
  nodes : Dict (List α) β
  root_mem : [] ∈ nodes
  parent_mem : ∀ a p, a :: p ∈ nodes → p ∈ nodes

namespace NodeTree

variable {α β : Type*} [DecidableEq α] (t : NodeTree α β) (p q : List α) (b : β)

/-- The tree of the root alone. -/
def rootOnly : NodeTree α β where
  nodes := AList.singleton [] b
  root_mem := List.mem_singleton.mpr rfl
  parent_mem _ _ h := absurd (List.mem_singleton.mp h) (List.cons_ne_nil _ _)

theorem mem_rootOnly {b : β} {p : List α} : p ∈ (rootOnly b : NodeTree α β).nodes ↔ p = [] :=
  List.mem_singleton

/-- The data of a node. -/
def data : Option β := t.nodes.lookup p

theorem mem_iff_data {t : NodeTree α β} {p : List α} : p ∈ t.nodes ↔ (t.data p).isSome :=
  AList.lookup_isSome.symm

theorem mem_of_suffix {t : NodeTree α β} {p q : List α} (h : q ∈ t.nodes) (hp : p <:+ q) :
    p ∈ t.nodes := by
  induction q with
  | nil => rwa [List.suffix_nil.mp hp]
  | cons a q ih =>
    rcases List.suffix_cons_iff.mp hp with rfl | hp
    · exact h
    · exact ih (t.parent_mem a q h) hp

/-- The names of the children, when there is such a node. -/
def children : Option (List α) :=
  if p ∈ t.nodes then
    some (t.nodes.keys.filterMap fun
      | [] => none
      | a :: q => if q = p then some a else none)
  else
    none

theorem mem_children {t : NodeTree α β} {p : List α} {a : α} :
    (∃ names, t.children p = some names ∧ a ∈ names) ↔ a :: p ∈ t.nodes := by
  rw [children]
  constructor
  · rintro ⟨names, hnames, ha⟩
    split_ifs at hnames with hp
    cases hnames
    obtain ⟨q, hq, heq⟩ := List.mem_filterMap.mp ha
    cases q with
    | nil => cases heq
    | cons b q =>
      obtain ⟨rfl, hb⟩ := Option.ite_none_right_eq_some.mp heq
      cases hb
      exact hq
  · intro h
    refine ⟨_, if_pos (t.parent_mem a p h), ?_⟩
    apply List.mem_filterMap.mpr
    exact ⟨a :: p, h, if_pos rfl⟩

theorem children_eq_none {t : NodeTree α β} {p : List α} : t.children p = none ↔ p ∉ t.nodes := by
  rw [children]
  split_ifs with hp
  · exact iff_of_false id (not_not_intro hp)
  · exact iff_of_true rfl hp

theorem children_eq_nil {t : NodeTree α β} {p : List α} :
    t.children p = some [] ↔ p ∈ t.nodes ∧ ∀ a, a :: p ∉ t.nodes := by
  constructor
  · intro h
    have hp : p ∈ t.nodes := by
      by_contra hp
      rw [children_eq_none.mpr hp] at h
      cases h
    refine ⟨hp, fun a ha => ?_⟩
    obtain ⟨names, hnames, hmem⟩ := mem_children.mpr ha
    cases h.symm.trans hnames
    cases hmem
  · rintro ⟨hp, hnone⟩
    cases hnames : t.children p with
    | none => exact absurd hp (children_eq_none.mp hnames)
    | some names =>
      cases names with
      | nil => rfl
      | cons a names => exact absurd (mem_children.mp ⟨_, hnames, List.mem_cons_self⟩) (hnone a)

/-! ## Changes -/

/-- The data of an existing node replaced; `none` when there is no such node. -/
def setData : Option (NodeTree α β) :=
  if h : p ∈ t.nodes then
    some
      { nodes := t.nodes.insert p b
        root_mem := (AList.mem_insert _).mpr (.inr t.root_mem)
        parent_mem := by
          intro a q hq
          apply (AList.mem_insert _).mpr
          rcases (AList.mem_insert _).mp hq with heq | hq
          · exact .inr (t.parent_mem a q (heq ▸ h))
          · exact .inr (t.parent_mem a q hq) }
  else
    none

theorem data_setData {t t' : NodeTree α β} {p : List α} {b : β} (h : t.setData p b = some t')
    (q : List α) : t'.data q = if q = p then some b else t.data q := by
  rw [setData] at h
  split_ifs at h with hp
  cases h
  rw [data, data]
  split_ifs with hq
  · rw [hq, AList.lookup_insert]
  · rw [AList.lookup_insert_ne hq]

theorem setData_eq_none {t : NodeTree α β} {p : List α} {b : β} :
    t.setData p b = none ↔ p ∉ t.nodes := by
  rw [setData]
  split_ifs with hp
  · exact iff_of_false id (not_not_intro hp)
  · exact iff_of_true rfl hp

/-- The nodes of a path that do not exist: the path itself and all its parents that miss. -/
def missing : List (List α) := p.tails.filter (· ∉ t.nodes)

theorem mem_missing {t : NodeTree α β} {p q : List α} :
    q ∈ t.missing p ↔ q <:+ p ∧ q ∉ t.nodes := by
  rw [missing, List.mem_filter, List.mem_tails, decide_eq_true_eq]

theorem nodup_missing : (t.missing p).Nodup := by
  apply List.Nodup.filter
  induction p with
  | nil => exact List.nodup_singleton []
  | cons a p ih =>
    rw [List.tails_cons, List.nodup_cons, List.mem_tails]
    exact ⟨fun h => absurd h.length_le (Nat.not_succ_le_self p.length), ih⟩

theorem lookup_insertAll_missing (blank : β) :
    (t.nodes.insertAll ((t.missing p).map fun q => (q, blank))).lookup q =
      if q <:+ p ∧ q ∉ t.nodes then some blank else t.data q := by
  rw [Dict.lookup_insertAll_map (t.nodup_missing p) (fun _ => blank)]
  simp only [mem_missing, data]

theorem mem_insertAll_missing {t : NodeTree α β} {p q : List α} {blank : β} :
    q ∈ t.nodes.insertAll ((t.missing p).map fun q => (q, blank)) ↔ q <:+ p ∨ q ∈ t.nodes := by
  rw [← AList.lookup_isSome, lookup_insertAll_missing]
  split_ifs with h
  · exact iff_of_true rfl (.inl h.1)
  · rw [← mem_iff_data]
    constructor
    · exact .inr
    · rintro (hq | hq)
      · exact of_not_not fun hn => h ⟨hq, hn⟩
      · exact hq

/-- A new node with its data, and every parent that misses with `blank`; `none` when there is
such a node. -/
def create (blank : β) : Option (NodeTree α β) :=
  if p ∈ t.nodes then
    none
  else
    some
      { nodes := (t.nodes.insertAll ((t.missing p).map fun q => (q, blank))).insert p b
        root_mem := by
          apply (AList.mem_insert _).mpr
          exact .inr (mem_insertAll_missing.mpr (.inr t.root_mem))
        parent_mem := by
          intro a q hq
          have hmem : a :: q <:+ p ∨ a :: q ∈ t.nodes := by
            rcases (AList.mem_insert _).mp hq with heq | hq
            · exact .inl (heq ▸ List.suffix_rfl)
            · exact mem_insertAll_missing.mp hq
          apply (AList.mem_insert _).mpr
          apply Or.inr
          apply mem_insertAll_missing.mpr
          rcases hmem with hsuffix | hold
          · exact .inl ((List.suffix_cons a q).trans hsuffix)
          · exact .inr (t.parent_mem a q hold) }

theorem data_create {t t' : NodeTree α β} {p : List α} {b blank : β}
    (h : t.create p b blank = some t') (q : List α) :
    t'.data q = if q = p then some b
      else if q <:+ p ∧ q ∉ t.nodes then some blank else t.data q := by
  rw [create] at h
  split_ifs at h with hp
  cases h
  rw [data]
  split_ifs with hq hmissing
  · rw [hq, AList.lookup_insert]
  · rw [AList.lookup_insert_ne hq, lookup_insertAll_missing, if_pos hmissing]
  · rw [AList.lookup_insert_ne hq, lookup_insertAll_missing, if_neg hmissing]

theorem create_eq_none {t : NodeTree α β} {p : List α} {b blank : β} :
    t.create p b blank = none ↔ p ∈ t.nodes := by
  rw [create]
  split_ifs with hp
  · exact iff_of_true rfl hp
  · exact iff_of_false id hp

/-- Why a node is not deleted. -/
inductive DeleteError
  | noNode
  | notEmpty
deriving DecidableEq

/-- A node without children removed. -/
def delete : List α → Except DeleteError (NodeTree α β)
  | [] => .error .notEmpty
  | a :: p =>
    if h : t.children (a :: p) = some [] then
      .ok
        { nodes := t.nodes.erase (a :: p)
          root_mem := AList.mem_erase.mpr ⟨(List.cons_ne_nil a p).symm, t.root_mem⟩
          parent_mem := by
            intro b q hq
            have hold := (AList.mem_erase.mp hq).2
            refine AList.mem_erase.mpr ⟨?_, t.parent_mem b q hold⟩
            rintro rfl
            exact (children_eq_nil.mp h).2 b hold }
    else if a :: p ∈ t.nodes then
      .error .notEmpty
    else
      .error .noNode

theorem data_delete {t t' : NodeTree α β} {p : List α} (h : t.delete p = .ok t') (q : List α) :
    t'.data q = if q = p then none else t.data q := by
  cases p with
  | nil => cases h
  | cons a p =>
    rw [delete] at h
    split_ifs at h
    cases h
    rw [data, data]
    split_ifs with hq
    · rw [hq, AList.lookup_erase]
    · rw [AList.lookup_erase_ne hq]

theorem delete_eq_noNode {t : NodeTree α β} {p : List α} (h : p ∉ t.nodes) :
    t.delete p = .error .noNode := by
  cases p with
  | nil => exact absurd t.root_mem h
  | cons a p =>
    rw [delete, dif_neg fun hc => h (children_eq_nil.mp hc).1, if_neg h]

theorem exists_delete {t : NodeTree α β} {p : List α} (hp : p ≠ [])
    (h : t.children p = some []) : ∃ t', t.delete p = .ok t' := by
  cases p with
  | nil => exact absurd rfl hp
  | cons a p => exact ⟨_, dif_pos h⟩

/-- The nodes that stay when a node and everything below it goes. -/
def pruned : Dict (List α) β :=
  t.nodes.eraseAll (t.nodes.keys.filter fun q => p ≠ [] ∧ p <:+ q)

theorem lookup_pruned : (t.pruned p).lookup q = if p ≠ [] ∧ p <:+ q then none else t.data q := by
  rw [pruned, Dict.lookup_eraseAll]
  simp only [List.mem_filter, decide_eq_true_eq]
  by_cases hq : p ≠ [] ∧ p <:+ q
  · rw [if_pos hq]
    split_ifs with hkeys
    · rfl
    · exact AList.lookup_eq_none.mpr fun hmem => hkeys ⟨hmem, hq⟩
  · rw [if_neg hq, if_neg fun h => hq h.2]
    rfl

theorem mem_pruned {t : NodeTree α β} {p q : List α} :
    q ∈ t.pruned p ↔ ¬(p ≠ [] ∧ p <:+ q) ∧ q ∈ t.nodes := by
  rw [← AList.lookup_isSome, lookup_pruned]
  split_ifs with hq
  · exact iff_of_false Bool.false_ne_true fun h => h.1 hq
  · rw [← mem_iff_data]
    exact (and_iff_right hq).symm

/-- The tree without a node and everything below it; the root stays. -/
def deleteTree : NodeTree α β where
  nodes := t.pruned p
  root_mem := mem_pruned.mpr ⟨fun h => h.1 (List.suffix_nil.mp h.2), t.root_mem⟩
  parent_mem := by
    intro a q hq
    obtain ⟨hkept, hmem⟩ := mem_pruned.mp hq
    refine mem_pruned.mpr ⟨?_, t.parent_mem a q hmem⟩
    rintro ⟨hp, hsuffix⟩
    exact hkept ⟨hp, hsuffix.trans (List.suffix_cons a q)⟩

theorem data_deleteTree : (t.deleteTree p).data q = if p ≠ [] ∧ p <:+ q then none else t.data q :=
  t.lookup_pruned p q

end NodeTree

end Marathon.Lib
