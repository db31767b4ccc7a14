import Marathon.Lib.Dict

/-!
# Dictionaries of sets

A dictionary whose values are sets, as a multimap or a set of updates per key is
kept: adding one binding, adding many, and the union of two.
-/

namespace Marathon.Lib

/-- A dictionary of sets. -/
abbrev SetMap (K V : Type*) := Dict K (Finset V)

namespace SetMap

variable {K V : Type*} [DecidableEq K]

/-- The set at a key, empty when there is none. -/
def get (m : SetMap K V) (k : K) : Finset V := (m.lookup k).getD ∅

@[simp]
theorem get_empty (k : K) : (∅ : SetMap K V).get k = ∅ := rfl

theorem get_of_lookup {m : SetMap K V} {k : K} {s : Finset V} (h : m.lookup k = some s) :
    m.get k = s := by
  rw [get, h, Option.getD_some]

theorem mem_of_mem_get {m : SetMap K V} {k : K} {v : V} (h : v ∈ m.get k) : k ∈ m := by
  by_contra hk
  rw [get, AList.lookup_eq_none.mpr hk] at h
  exact Finset.notMem_empty v h

theorem get_insert (m : SetMap K V) (k k' : K) (s : Finset V) :
    SetMap.get (m.insert k' s) k = if k = k' then s else m.get k := by
  by_cases h : k = k'
  · subst h
    simp [get]
  · simp [get, h, AList.lookup_insert_ne]

variable [DecidableEq V]

def addBinding (m : SetMap K V) (k : K) (v : V) : SetMap K V := m.insert k (insert v (m.get k))

def addBindings (m : SetMap K V) (bindings : List (K × V)) : SetMap K V :=
  bindings.foldl (fun m b => m.addBinding b.1 b.2) m

/-- The sets of both, united where both have the key. -/
def merge (m m' : SetMap K V) : SetMap K V :=
  m'.entries.foldl (fun m e => m.insert e.1 (m.get e.1 ∪ e.2)) m

theorem mem_get_addBinding {m : SetMap K V} {k k' : K} {v v' : V} :
    v ∈ (m.addBinding k' v').get k ↔ v ∈ m.get k ∨ k = k' ∧ v = v' := by
  rw [addBinding, get_insert]
  by_cases h : k = k'
  · subst h
    simp [or_comm]
  · simp [h]

theorem mem_get_addBindings {m : SetMap K V} {bindings : List (K × V)} {k : K} {v : V} :
    v ∈ (m.addBindings bindings).get k ↔ v ∈ m.get k ∨ (k, v) ∈ bindings := by
  induction bindings generalizing m with
  | nil => simp [addBindings]
  | cons b bindings ih =>
    have hcons : m.addBindings (b :: bindings) = (m.addBinding b.1 b.2).addBindings bindings := rfl
    rw [hcons, ih, mem_get_addBinding, List.mem_cons, Prod.ext_iff, or_assoc]

theorem mem_addBindings {m : SetMap K V} {bindings : List (K × V)} {k : K} :
    k ∈ m.addBindings bindings ↔ k ∈ m ∨ ∃ v, (k, v) ∈ bindings := by
  induction bindings generalizing m with
  | nil => simp [addBindings]
  | cons b bindings ih =>
    have hcons : m.addBindings (b :: bindings) = (m.addBinding b.1 b.2).addBindings bindings := rfl
    have hb : (∃ v, (k, v) ∈ b :: bindings) ↔ k = b.1 ∨ ∃ v, (k, v) ∈ bindings := by
      simp [Prod.ext_iff, exists_or]
    rw [hcons, ih, hb, addBinding, AList.mem_insert]
    tauto

theorem mem_get_merge {m m' : SetMap K V} {k : K} {v : V} :
    v ∈ (m.merge m').get k ↔ v ∈ m.get k ∨ v ∈ m'.get k := by
  have hfold : ∀ (entries : List (Sigma fun _ : K => Finset V)) (m : SetMap K V),
      v ∈ SetMap.get (entries.foldl (fun m e => m.insert e.1 (m.get e.1 ∪ e.2)) m) k ↔
        v ∈ m.get k ∨ ∃ s, (⟨k, s⟩ : Sigma fun _ : K => Finset V) ∈ entries ∧ v ∈ s := by
    intro entries
    induction entries with
    | nil => simp
    | cons e entries ih =>
      intro m
      obtain ⟨k', s'⟩ := e
      rw [List.foldl_cons, ih, get_insert]
      by_cases h : k = k'
      · subst h
        simp [or_and_right, exists_or, or_assoc]
      · simp [h]
  rw [merge, hfold]
  apply or_congr_right
  simp only [get, ← AList.mem_lookup_iff, Option.mem_def]
  cases m'.lookup k <;> simp

end SetMap

end Marathon.Lib
