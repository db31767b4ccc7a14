import Marathon.Lib.Dict

/-!
# Dictionaries keyed by a field of the value

A dictionary in which every value stands under its own key, so that a value can be
put in without naming the key.
-/

namespace Marathon.Lib

/-- A dictionary whose values stand under their own `key`. -/
structure Keyed {K V : Type*} [DecidableEq K] (key : V → K) where
  dict : Dict K V
  keyed : ∀ k v, dict.lookup k = some v → key v = k

namespace Keyed

variable {K V : Type*} [DecidableEq K] {key : V → K}

instance : EmptyCollection (Keyed key) := ⟨⟨∅, fun _ _ h => by cases h⟩⟩

def lookup (m : Keyed key) (k : K) : Option V := m.dict.lookup k

def values (m : Keyed key) : List V := m.dict.values

def keys (m : Keyed key) : List K := m.dict.keys

def insert (m : Keyed key) (v : V) : Keyed key where
  dict := m.dict.insert (key v) v
  keyed := by
    intro k w h
    rcases Dict.lookup_insert_eq_some.mp h with ⟨rfl, rfl⟩ | ⟨_, h⟩
    · rfl
    · exact m.keyed k w h

def erase (m : Keyed key) (k : K) : Keyed key where
  dict := m.dict.erase k
  keyed := fun k' v h => m.keyed k' v (Dict.lookup_erase_eq_some.mp h).2

/-- Every value replaced by one with the same key. -/
def map (m : Keyed key) (f : V → V) (hf : ∀ v, key (f v) = key v) : Keyed key where
  dict := m.dict.mapWithKey fun _ => f
  keyed := by
    intro k w h
    rw [Dict.lookup_mapWithKey, Option.map_eq_some_iff] at h
    obtain ⟨v, hv, rfl⟩ := h
    exact (hf v).trans (m.keyed k v hv)

theorem values_map (m : Keyed key) (f : V → V) (hf : ∀ v, key (f v) = key v) :
    (m.map f hf).values = m.values.map f := by
  show (m.dict.entries.map fun e => (⟨e.1, f e.2⟩ : Sigma fun _ : K => V)).map Sigma.snd = _
  rw [values, Dict.values, List.map_map, List.map_map]
  rfl

theorem lookup_map (m : Keyed key) (f : V → V) (hf : ∀ v, key (f v) = key v) (k : K) :
    (m.map f hf).lookup k = (m.lookup k).map f :=
  Dict.lookup_mapWithKey _ _ _

theorem lookup_insert (m : Keyed key) (v : V) (k : K) :
    (m.insert v).lookup k = if k = key v then some v else m.lookup k := by
  by_cases h : k = key v
  · subst h
    rw [if_pos rfl]
    exact AList.lookup_insert _
  · rw [if_neg h]
    exact AList.lookup_insert_ne h

theorem lookup_erase (m : Keyed key) (k k' : K) :
    (m.erase k).lookup k' = if k' = k then none else m.lookup k' := by
  by_cases h : k' = k
  · subst h
    rw [if_pos rfl]
    exact AList.lookup_erase _ _
  · rw [if_neg h]
    exact AList.lookup_erase_ne h

theorem key_of_lookup {m : Keyed key} {k : K} {v : V} (h : m.lookup k = some v) : key v = k :=
  m.keyed k v h

theorem mem_values {m : Keyed key} {v : V} : v ∈ m.values ↔ m.lookup (key v) = some v := by
  rw [values, Dict.mem_values]
  constructor
  · rintro ⟨k, h⟩
    rwa [m.keyed k v h]
  · exact fun h => ⟨key v, h⟩

theorem mem_values_of_erase {m : Keyed key} {k : K} {v : V} (h : v ∈ (m.erase k).values) :
    v ∈ m.values := by
  rw [mem_values, lookup_erase] at h
  split_ifs at h
  exact mem_values.mpr h

/-- With distinct keys the values that are put in one after another are all there. -/
theorem mem_values_foldl_insert {l : List V} (hnodup : (l.map key).Nodup) {m : Keyed key}
    (hnew : ∀ v ∈ l, m.lookup (key v) = none) {v : V} :
    v ∈ (l.foldl insert m).values ↔ v ∈ m.values ∨ v ∈ l := by
  induction l generalizing m with
  | nil => simp
  | cons w l ih =>
    rw [List.map_cons, List.nodup_cons] at hnodup
    have hne : ∀ v ∈ l, key v ≠ key w := fun v hv heq => hnodup.1 (heq ▸ List.mem_map_of_mem hv)
    have hnew' : ∀ v ∈ l, (m.insert w).lookup (key v) = none := by
      intro v hv
      rw [lookup_insert, if_neg (hne v hv)]
      exact hnew v (List.mem_cons_of_mem _ hv)
    have hinsert : v ∈ (m.insert w).values ↔ v ∈ m.values ∨ v = w := by
      rw [mem_values, lookup_insert, mem_values]
      split_ifs with heq
      · have hnone := hnew w List.mem_cons_self
        rw [heq, hnone, Option.some.injEq]
        simp [eq_comm]
      · constructor
        · exact .inl
        · rintro (hv | rfl)
          · exact hv
          · exact absurd rfl heq
    rw [List.foldl_cons, ih hnodup.2 hnew', hinsert, List.mem_cons, or_assoc]

/-- The entries are the values with their keys. -/
theorem bindings_dict (m : Keyed key) : m.dict.bindings = m.values.map fun v => (key v, v) := by
  rw [values, Dict.values, Dict.bindings, List.map_map]
  apply List.map_congr_left
  intro e he
  have hkey : key e.2 = e.1 := m.keyed e.1 e.2 (AList.mem_lookup_iff.mpr he)
  rw [Function.comp_apply, hkey]

theorem keys_eq (m : Keyed key) : m.keys = m.values.map key := by
  rw [keys, ← Dict.map_fst_bindings, bindings_dict, List.map_map]
  rfl

theorem lookup_eq_none {m : Keyed key} {k : K} : m.lookup k = none ↔ k ∉ m.dict :=
  AList.lookup_eq_none

theorem nodup_map_values (m : Keyed key) : (m.values.map key).Nodup := by
  rw [← keys_eq]
  exact m.dict.nodupKeys

theorem length_values (m : Keyed key) : m.values.length = m.dict.size := by
  rw [Dict.size, ← keys, keys_eq, List.length_map]

theorem length_insert_of_none {m : Keyed key} {v : V} (h : m.lookup (key v) = none) :
    (m.insert v).values.length = m.values.length + 1 := by
  rw [length_values, length_values]
  exact Dict.size_insert_of_notMem (lookup_eq_none.mp h)

theorem length_insert_of_some {m : Keyed key} {v w : V} (h : m.lookup (key v) = some w) :
    (m.insert v).values.length = m.values.length := by
  rw [length_values, length_values]
  exact Dict.size_insert_of_mem (Dict.mem_of_lookup_eq_some h)

theorem length_erase_le (m : Keyed key) (k : K) : (m.erase k).values.length ≤ m.values.length := by
  rw [length_values, length_values]
  by_cases h : k ∈ m.dict
  · exact Nat.le_of_lt_succ (Nat.lt_succ_of_lt (Dict.size_erase_of_mem h ▸ Nat.lt_succ_self _))
  · have hsame : m.dict.erase k = m.dict := AList.ext (List.kerase_of_notMem_keys h)
    exact Nat.le_of_eq (congrArg Dict.size hsame)

/-! ### One value and the others -/

theorem erase_of_none {m : Keyed key} {k : K} (h : m.lookup k = none) : m.erase k = m := by
  obtain ⟨dict, keyed⟩ := m
  rw [erase, mk.injEq]
  exact AList.ext (List.kerase_of_notMem_keys (AList.lookup_eq_none.mp h))

theorem values_insert (m : Keyed key) (v : V) : (m.insert v).values = v :: (m.erase (key v)).values :=
  rfl

/-- New values with distinct keys stand in front, the last one first. -/
theorem values_foldl_insert {l : List V} (hnodup : (l.map key).Nodup) {m : Keyed key}
    (hnew : ∀ v ∈ l, m.lookup (key v) = none) :
    (l.foldl insert m).values = l.reverse ++ m.values := by
  induction l generalizing m with
  | nil => rfl
  | cons w l ih =>
    rw [List.map_cons, List.nodup_cons] at hnodup
    have hnew' : ∀ v ∈ l, (m.insert w).lookup (key v) = none := by
      intro v hv
      have hne : key v ≠ key w := fun heq => hnodup.1 (heq ▸ List.mem_map_of_mem hv)
      rw [lookup_insert, if_neg hne]
      exact hnew v (List.mem_cons_of_mem _ hv)
    rw [List.foldl_cons, ih hnodup.2 hnew', values_insert, erase_of_none (hnew w List.mem_cons_self),
      List.reverse_cons, List.append_assoc]
    rfl

theorem erase_insert (m : Keyed key) (v : V) : (m.insert v).erase (key v) = m.erase (key v) := by
  rw [erase, erase, mk.injEq]
  apply AList.ext
  exact List.kerase_cons_eq (s := (⟨key v, v⟩ : Sigma fun _ : K => V)) rfl

theorem values_perm_cons_erase {m : Keyed key} {k : K} {v : V} (h : m.lookup k = some v) :
    m.values.Perm (v :: (m.erase k).values) := by
  have hkey : k ∈ m.dict.entries.keys := Dict.mem_of_lookup_eq_some h
  obtain ⟨w, before, after, -, hentries, herase⟩ := List.exists_of_kerase hkey
  have hmem : (⟨k, w⟩ : Sigma fun _ : K => V) ∈ m.dict.entries := by
    rw [hentries]
    exact List.mem_append_right before List.mem_cons_self
  obtain rfl : w = v := Option.some.inj ((AList.mem_lookup_iff.mpr hmem).symm.trans h)
  have hvalues : m.values = before.map Sigma.snd ++ w :: after.map Sigma.snd := by
    rw [values, Dict.values, hentries, List.map_append, List.map_cons]
  have herased : (m.erase k).values = before.map Sigma.snd ++ after.map Sigma.snd := by
    show (List.kerase k m.dict.entries).map Sigma.snd = _
    rw [herase, List.map_append]
  rw [hvalues, herased]
  exact List.perm_middle

end Keyed

end Marathon.Lib
