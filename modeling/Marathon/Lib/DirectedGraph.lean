import Mathlib.Data.List.MinMax
import Marathon.Lib.Collections

/-!
# Directed graphs and their longest paths

A longest path from a vertex is found by following every edge. On a graph with a cycle
the search need not end, so it is given a depth; on an acyclic one the number of
vertices is enough.
-/

namespace Marathon.Lib

open Relation

/-- A finite directed graph, every edge joining two of its vertices. -/
structure DirectedGraph (V : Type*) where
  vertexSet : List V
  edgeSet : List (V × V)
  mem_vertexSet : ∀ e ∈ edgeSet, e.1 ∈ vertexSet ∧ e.2 ∈ vertexSet

variable {depth : ℕ}

namespace DirectedGraph

variable {V : Type*}

def Edge (g : DirectedGraph V) (v w : V) : Prop := (v, w) ∈ g.edgeSet

def Acyclic (g : DirectedGraph V) : Prop := ∀ v, ¬ TransGen g.Edge v v

/-- The vertices passed on a way from `v` along the edges, `v` the first. -/
inductive Path (g : DirectedGraph V) : V → List V → Prop
  | single (v : V) : Path g v [v]
  | cons {v w : V} {l : List V} (he : g.Edge v w) (hl : Path g w l) : Path g v (v :: l)

/-- Some path from `v` is longer than every path from `w`. -/
def Outranks (g : DirectedGraph V) (v w : V) : Prop :=
  ∃ l, g.Path v l ∧ ∀ l', g.Path w l' → l'.length < l.length

theorem Path.length_pos {g : DirectedGraph V} {v : V} {l : List V} (h : g.Path v l) :
    0 < l.length := by
  cases h <;> simp

/-- A graph is acyclic when its vertices can be ranked along the edges. -/
theorem acyclic_of_rank {g : DirectedGraph V} (rank : V → ℕ)
    (h : ∀ e ∈ g.edgeSet, rank e.2 < rank e.1) : g.Acyclic := by
  have hlt : ∀ v w, TransGen g.Edge v w → rank w < rank v := by
    intro v w hvw
    induction hvw with
    | single he => exact h _ he
    | tail _ he ih => exact (h _ he).trans ih
  exact fun v hv => lt_irrefl _ (hlt v v hv)

variable [DecidableEq V]

def containsVertex (g : DirectedGraph V) (v : V) : Bool := decide (v ∈ g.vertexSet)

def outgoingEdgesOf (g : DirectedGraph V) (v : V) : List (V × V) :=
  g.edgeSet.filter fun e => e.1 = v

/-- The edges to follow, none where the vertex is not in the graph. -/
def outgoingEdges (g : DirectedGraph V) (v : V) : List (V × V) :=
  if g.containsVertex v then g.outgoingEdgesOf v else []

/-- The longest path from a vertex, `none` when it is not found within the depth. -/
def longestPathFromVertex (g : DirectedGraph V) : ℕ → V → Option (List V)
  | 0, _ => none
  | depth + 1, vertex =>
    if (g.outgoingEdges vertex).isEmpty then some [vertex]
    else
      ((g.outgoingEdges vertex).mapM fun e => (g.longestPathFromVertex depth e.2).map (vertex :: ·)).bind
        (·.maxOn? List.length)

variable {g : DirectedGraph V}

theorem mem_outgoingEdges {v : V} {e : V × V} : e ∈ g.outgoingEdges v ↔ e.1 = v ∧ g.Edge v e.2 := by
  have hmem : e ∈ g.outgoingEdgesOf v ↔ e.1 = v ∧ g.Edge v e.2 := by
    rw [outgoingEdgesOf, List.mem_filter, decide_eq_true_iff]
    constructor
    · rintro ⟨he, rfl⟩
      exact ⟨rfl, he⟩
    · rintro ⟨rfl, he⟩
      exact ⟨he, rfl⟩
  rw [outgoingEdges]
  by_cases hv : v ∈ g.vertexSet
  · rw [containsVertex, decide_eq_true hv, if_pos rfl, hmem]
  · rw [containsVertex, decide_eq_false hv, if_neg Bool.false_ne_true]
    refine ⟨fun h => absurd h List.not_mem_nil, fun h => ?_⟩
    exact absurd (g.mem_vertexSet _ h.2).1 hv

theorem longestPathFromVertex_of_no_edge {v : V} (h : ∀ w, ¬ g.Edge v w) :
    g.longestPathFromVertex (depth + 1) v = some [v] := by
  have hnil : g.outgoingEdges v = [] := by
    rw [List.eq_nil_iff_forall_not_mem]
    exact fun e he => h e.2 (mem_outgoingEdges.mp he).2
  rw [longestPathFromVertex, hnil, List.isEmpty_nil, if_pos rfl]

theorem longestPathFromVertex_succ {v : V} {l : List V}
    (h : g.longestPathFromVertex (depth + 1) v = some l) :
    ((∀ w, ¬ g.Edge v w) ∧ l = [v]) ∨
      ∃ w t, g.Edge v w ∧ g.longestPathFromVertex depth w = some t ∧ l = v :: t ∧
        ∀ w', g.Edge v w' → ∃ t', g.longestPathFromVertex depth w' = some t' ∧
          t'.length ≤ t.length := by
  rw [longestPathFromVertex] at h
  split at h
  · rename_i hnil
    left
    refine ⟨fun w hw => ?_, (Option.some.inj h).symm⟩
    have hmem := mem_outgoingEdges.mpr (⟨rfl, hw⟩ : (v, w).1 = v ∧ g.Edge v (v, w).2)
    rw [List.isEmpty_iff.mp hnil] at hmem
    exact List.not_mem_nil hmem
  · right
    obtain ⟨paths, hpaths, hmax⟩ := Option.bind_eq_some_iff.mp h
    obtain ⟨e, he, hl⟩ := (mem_of_mapM hpaths).mp (List.maxOn?_mem hmax)
    obtain ⟨t, ht, rfl⟩ := Option.map_eq_some_iff.mp hl
    refine ⟨e.2, t, (mem_outgoingEdges.mp he).2, ht, rfl, fun w' hw' => ?_⟩
    have he' := mem_outgoingEdges.mpr (⟨rfl, hw'⟩ : (v, w').1 = v ∧ g.Edge v (v, w').2)
    obtain ⟨l', hl'⟩ := exists_eq_some_of_mapM hpaths he'
    obtain ⟨t', ht', rfl⟩ := Option.map_eq_some_iff.mp hl'
    have hmem' : (v :: t') ∈ paths := (mem_of_mapM hpaths).mpr ⟨_, he', hl'⟩
    have hle := List.le_apply_get_maxOn?_of_mem (f := List.length) hmem'
    simp only [hmax, Option.get_some, List.length_cons] at hle
    exact ⟨t', ht', by omega⟩

theorem path_of_longestPathFromVertex {v : V} {l : List V}
    (h : g.longestPathFromVertex depth v = some l) : g.Path v l := by
  induction depth generalizing v l with
  | zero => cases h
  | succ depth ih =>
    rcases longestPathFromVertex_succ h with ⟨-, rfl⟩ | ⟨w, t, hw, ht, rfl, -⟩
    · exact .single v
    · exact .cons hw (ih ht)

theorem length_le_of_longestPathFromVertex {v : V} {l p : List V}
    (h : g.longestPathFromVertex depth v = some l) (hp : g.Path v p) : p.length ≤ l.length := by
  induction depth generalizing v l p with
  | zero => cases h
  | succ depth ih =>
    rcases longestPathFromVertex_succ h with ⟨hno, rfl⟩ | ⟨w, t, -, -, rfl, hall⟩
    · cases hp with
      | single => rfl
      | cons he _ => exact absurd he (hno _)
    · cases hp with
      | single => simp
      | cons he hp =>
        obtain ⟨t', ht', hle⟩ := hall _ he
        have hp' := ih ht' hp
        rw [List.length_cons, List.length_cons]
        omega

theorem outranks_iff {d d' : ℕ} {v w : V} {l l' : List V}
    (hv : g.longestPathFromVertex d v = some l) (hw : g.longestPathFromVertex d' w = some l') :
    g.Outranks v w ↔ l'.length < l.length := by
  constructor
  · rintro ⟨p, hp, hlt⟩
    exact (hlt l' (path_of_longestPathFromVertex hw)).trans_le
      (length_le_of_longestPathFromVertex hv hp)
  · intro hlt
    exact ⟨l, path_of_longestPathFromVertex hv, fun p hp =>
      (length_le_of_longestPathFromVertex hw hp).trans_lt hlt⟩

section Acyclic

open Classical in
/-- The vertices that can be reached along at least one edge. -/
noncomputable def descendants (g : DirectedGraph V) (v : V) : Finset V :=
  g.vertexSet.toFinset.filter fun w => TransGen g.Edge v w

theorem mem_descendants {v w : V} : w ∈ g.descendants v ↔ TransGen g.Edge v w := by
  simp only [descendants, Finset.mem_filter, List.mem_toFinset]
  refine ⟨And.right, fun h => ⟨?_, h⟩⟩
  obtain ⟨u, -, hu⟩ := TransGen.tail'_iff.mp h
  exact (g.mem_vertexSet _ hu).2

theorem card_descendants_le (g : DirectedGraph V) (v : V) :
    (g.descendants v).card ≤ g.vertexSet.length := by
  classical
  exact (Finset.card_le_card (Finset.filter_subset _ _)).trans (List.toFinset_card_le _)

theorem card_descendants_lt (hg : g.Acyclic) {v w : V} (h : g.Edge v w) :
    (g.descendants w).card < (g.descendants v).card := by
  apply Finset.card_lt_card
  refine Finset.ssubset_iff_subset_ne.mpr ⟨fun u hu => ?_, fun heq => ?_⟩
  · exact mem_descendants.mpr (.head h (mem_descendants.mp hu))
  · have hmem : w ∈ g.descendants v := mem_descendants.mpr (.single h)
    rw [← heq] at hmem
    exact hg w (mem_descendants.mp hmem)

theorem exists_longestPathFromVertex_of_card_lt (hg : g.Acyclic) {v : V}
    (h : (g.descendants v).card < depth) : ∃ l, g.longestPathFromVertex depth v = some l := by
  induction depth generalizing v with
  | zero => omega
  | succ depth ih =>
    rw [longestPathFromVertex]
    split
    · exact ⟨_, rfl⟩
    · rename_i hne
      have hall : ∀ e ∈ g.outgoingEdges v, ∃ l,
          (g.longestPathFromVertex depth e.2).map (v :: ·) = some l := by
        intro e he
        have hlt := card_descendants_lt hg (mem_outgoingEdges.mp he).2
        obtain ⟨l, hl⟩ := ih (v := e.2) (by omega)
        exact ⟨v :: l, by rw [hl, Option.map_some]⟩
      obtain ⟨paths, hpaths⟩ := exists_mapM_eq_some hall
      have hsome : (paths.maxOn? List.length).isSome := by
        apply List.isSome_maxOn?_iff.mpr
        rintro rfl
        exact hne (List.isEmpty_iff.mpr (mapM_eq_some_nil.mp hpaths))
      obtain ⟨l, hl⟩ := Option.isSome_iff_exists.mp hsome
      exact ⟨l, by rw [hpaths, Option.bind_some, hl]⟩

/-- In an acyclic graph the search ends within one level more than there are vertices. -/
theorem exists_longestPathFromVertex (hg : g.Acyclic)
    (h : g.vertexSet.length < depth) (v : V) : ∃ l, g.longestPathFromVertex depth v = some l := by
  have hcard := g.card_descendants_le v
  apply exists_longestPathFromVertex_of_card_lt hg
  omega

/-- A vertex outranks every vertex that can be reached from it. -/
theorem Acyclic.outranks (hg : g.Acyclic) {v w : V} (h : TransGen g.Edge v w) : g.Outranks v w := by
  have hfound := exists_longestPathFromVertex hg (Nat.lt_succ_self _)
  obtain ⟨l, hl⟩ := hfound v
  obtain ⟨l', hl'⟩ := hfound w
  have hlonger : ∀ u p, TransGen g.Edge u w → g.Path w p → ∃ q, g.Path u q ∧ p.length < q.length := by
    intro u p hu hp
    induction hu using TransGen.head_induction_on with
    | single he => exact ⟨_, .cons he hp, by simp⟩
    | head he _ ih =>
      obtain ⟨q, hq, hlt⟩ := ih
      exact ⟨_, .cons he hq, by rw [List.length_cons]; omega⟩
  obtain ⟨q, hq, hlt⟩ := hlonger v l' h (path_of_longestPathFromVertex hl')
  exact (outranks_iff hl hl').mpr (hlt.trans_le (length_le_of_longestPathFromVertex hl hq))

end Acyclic

end DirectedGraph

end Marathon.Lib
