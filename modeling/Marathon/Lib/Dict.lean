import Mathlib.Data.List.AList
import Mathlib.Data.Finset.Basic

/-!
# Dictionaries

Association lists with distinct keys, with one type of values.
-/

namespace Marathon.Lib

/-- A finite map from `K` to `V`. -/
abbrev Dict (K V : Type*) := AList (fun _ : K => V)

namespace Dict

variable {K V : Type*}

/-- The values, in the order of the entries. -/
def values (d : Dict K V) : List V := d.entries.map Sigma.snd

/-- The entries, as pairs. -/
def bindings (d : Dict K V) : List (K × V) := d.entries.map fun e => (e.1, e.2)

theorem map_fst_bindings (d : Dict K V) : d.bindings.map Prod.fst = d.keys := by
  simp only [bindings, List.map_map, AList.keys, List.keys, Function.comp_def]

/-- Every value replaced by one computed from its key and itself. -/
def mapWithKey {W : Type*} (f : K → V → W) (d : Dict K V) : Dict K W where
  entries := d.entries.map fun e => ⟨e.1, f e.1 e.2⟩
  nodupKeys := by
    have hkeys : (d.entries.map fun e => (⟨e.1, f e.1 e.2⟩ : Sigma fun _ : K => W)).keys =
        d.entries.keys := by
      simp only [List.keys, List.map_map, Function.comp_def]
    rw [List.NodupKeys, hkeys]
    exact d.nodupKeys

theorem bindings_mapWithKey {W : Type*} (f : K → V → W) (d : Dict K V) :
    (d.mapWithKey f).bindings = d.bindings.map fun b => (b.1, f b.1 b.2) := by
  simp only [bindings, mapWithKey, List.map_map, Function.comp_def]

variable [DecidableEq K]

theorem mem_bindings {d : Dict K V} {k : K} {v : V} :
    (k, v) ∈ d.bindings ↔ d.lookup k = some v := by
  simp only [bindings, List.mem_map, Prod.mk.injEq]
  constructor
  · rintro ⟨⟨k', v'⟩, he, rfl, rfl⟩
    exact AList.mem_lookup_iff.mpr he
  · intro h
    exact ⟨⟨k, v⟩, AList.mem_lookup_iff.mp h, rfl, rfl⟩

/-- The entries put into the dictionary one after another, the last one of a key winning. -/
def insertAll (d : Dict K V) (entries : List (K × V)) : Dict K V :=
  entries.foldl (fun d e => d.insert e.1 e.2) d

theorem lookup_mapWithKey {W : Type*} (f : K → V → W) (d : Dict K V) (k : K) :
    (d.mapWithKey f).lookup k = (d.lookup k).map (f k) := by
  apply Option.ext
  intro w
  have hleft : (d.mapWithKey f).lookup k = some w ↔
      (⟨k, w⟩ : Sigma fun _ : K => W) ∈ (d.mapWithKey f).entries := AList.mem_lookup_iff
  rw [hleft, Option.map_eq_some_iff]
  simp only [mapWithKey, List.mem_map]
  constructor
  · rintro ⟨⟨k', v⟩, hv, heq⟩
    obtain ⟨rfl, h⟩ := Sigma.mk.inj heq
    exact ⟨v, AList.mem_lookup_iff.mpr hv, eq_of_heq h⟩
  · rintro ⟨v, hv, rfl⟩
    exact ⟨⟨k, v⟩, AList.mem_lookup_iff.mp hv, rfl⟩

theorem lookup_insertAll_of_notMem {d : Dict K V} {entries : List (K × V)} {k : K}
    (h : ∀ e ∈ entries, e.1 ≠ k) : (d.insertAll entries).lookup k = d.lookup k := by
  induction entries generalizing d with
  | nil => rfl
  | cons e entries ih =>
    have hne : k ≠ e.1 := (h e List.mem_cons_self).symm
    have htail : ∀ e' ∈ entries, e'.1 ≠ k := fun e' he' => h e' (List.mem_cons_of_mem _ he')
    rw [insertAll, List.foldl_cons, ← insertAll, ih htail, AList.lookup_insert_ne hne]

/-- With distinct keys every entry put into the dictionary is found. -/
theorem lookup_insertAll_of_mem {d : Dict K V} {entries : List (K × V)} {k : K} {v : V}
    (hnodup : (entries.map Prod.fst).Nodup) (h : (k, v) ∈ entries) :
    (d.insertAll entries).lookup k = some v := by
  induction entries generalizing d with
  | nil => cases h
  | cons e entries ih =>
    rw [List.map_cons, List.nodup_cons] at hnodup
    rw [insertAll, List.foldl_cons, ← insertAll]
    rcases List.mem_cons.mp h with rfl | hmem
    · rw [lookup_insertAll_of_notMem, AList.lookup_insert]
      intro e' he' heq
      have hkey : e'.1 ∈ entries.map Prod.fst := List.mem_map_of_mem he'
      exact hnodup.1 (heq ▸ hkey)
    · exact ih hnodup.2 hmem

theorem lookup_insertAll_map {d : Dict K V} {keys : List K} (hnodup : keys.Nodup) (f : K → V)
    (k : K) :
    (d.insertAll (keys.map fun k => (k, f k))).lookup k =
      if k ∈ keys then some (f k) else d.lookup k := by
  split_ifs with h
  · have hmem : (k, f k) ∈ keys.map fun k => (k, f k) := List.mem_map_of_mem h
    apply lookup_insertAll_of_mem _ hmem
    have hkeys : (keys.map fun k => (k, f k)).map Prod.fst = keys := by
      rw [List.map_map]
      exact List.map_id keys
    rwa [hkeys]
  · apply lookup_insertAll_of_notMem
    intro e he hkey
    obtain ⟨k', hk', rfl⟩ := List.mem_map.mp he
    exact h (hkey ▸ hk')

/-- The value at a key replaced where it stands, or put at the end when there is none. -/
def updated (d : Dict K V) (k : K) (v : V) : Dict K V :=
  d.mapWithKey (fun k' w => if k' = k then v else w) ∪ AList.singleton k v

theorem lookup_updated (d : Dict K V) (k k' : K) (v : V) :
    (d.updated k v).lookup k' = if k' = k then some v else d.lookup k' := by
  have hmem : ∀ k', k' ∈ d.mapWithKey (fun k' w => if k' = k then v else w) ↔ k' ∈ d := by
    intro k'
    rw [← AList.lookup_isSome, ← AList.lookup_isSome, lookup_mapWithKey, Option.isSome_map]
  by_cases h : k' ∈ d
  · obtain ⟨w, hw⟩ := Option.isSome_iff_exists.mp (AList.lookup_isSome.mpr h)
    rw [updated, AList.lookup_union_left ((hmem k').mpr h), lookup_mapWithKey, hw]
    split_ifs <;> rfl
  · rw [updated, AList.lookup_union_right fun hk => h ((hmem k').mp hk),
      AList.lookup_eq_none.mpr h]
    by_cases hk : k' = k
    · subst hk
      rw [if_pos rfl, ← AList.insert_empty]
      exact AList.lookup_insert ∅
    · rw [if_neg hk, AList.lookup_eq_none]
      intro hs
      have hkeys : k' ∈ [k] := hs
      exact hk (List.mem_singleton.mp hkeys)

theorem mem_values {d : Dict K V} {v : V} : v ∈ d.values ↔ ∃ k, d.lookup k = some v := by
  simp only [values, List.mem_map, Sigma.exists]
  constructor
  · rintro ⟨k, w, hw, rfl⟩
    exact ⟨k, AList.mem_lookup_iff.mpr hw⟩
  · rintro ⟨k, hk⟩
    exact ⟨k, v, AList.mem_lookup_iff.mp hk, rfl⟩

theorem lookup_insert_eq_some {d : Dict K V} {k k' : K} {v w : V} :
    (d.insert k' v).lookup k = some w ↔ (k = k' ∧ v = w) ∨ (k ≠ k' ∧ d.lookup k = some w) := by
  by_cases h : k = k'
  · subst h
    simp
  · simp [h, AList.lookup_insert_ne]

theorem lookup_insertAll_eq_some {d : Dict K V} {entries : List (K × V)} {k : K} {v : V}
    (h : (d.insertAll entries).lookup k = some v) : d.lookup k = some v ∨ (k, v) ∈ entries := by
  induction entries generalizing d with
  | nil => exact .inl h
  | cons e entries ih =>
    rcases ih h with hinsert | hmem
    · rcases lookup_insert_eq_some.mp hinsert with ⟨rfl, rfl⟩ | ⟨_, hlookup⟩
      · exact .inr List.mem_cons_self
      · exact .inl hlookup
    · exact .inr (List.mem_cons_of_mem _ hmem)

/-- Of the entries with a key that is put in, one is found. -/
theorem exists_lookup_insertAll_of_mem {d : Dict K V} {entries : List (K × V)} {k : K} {v : V}
    (h : (k, v) ∈ entries) : ∃ w, (d.insertAll entries).lookup k = some w ∧ (k, w) ∈ entries := by
  induction entries generalizing d v with
  | nil => cases h
  | cons e entries ih =>
    by_cases hlater : ∃ w, (k, w) ∈ entries
    · obtain ⟨w, hw⟩ := hlater
      obtain ⟨w', hlookup, hmem⟩ := ih (d := d.insert e.1 e.2) hw
      exact ⟨w', hlookup, List.mem_cons_of_mem _ hmem⟩
    · obtain rfl : (k, v) = e := (List.mem_cons.mp h).resolve_right fun hmem => hlater ⟨v, hmem⟩
      refine ⟨v, ?_, List.mem_cons_self⟩
      have hne : ∀ e ∈ entries, e.1 ≠ k := by
        rintro ⟨k', w⟩ hmem rfl
        exact hlater ⟨w, hmem⟩
      have hcons : d.insertAll ((k, v) :: entries) = insertAll (d.insert k v) entries := rfl
      rw [hcons, lookup_insertAll_of_notMem hne, AList.lookup_insert]

theorem lookup_erase_eq_some {d : Dict K V} {k k' : K} {w : V} :
    (d.erase k').lookup k = some w ↔ k ≠ k' ∧ d.lookup k = some w := by
  by_cases h : k = k'
  · subst h
    simp
  · simp [h, AList.lookup_erase_ne]

/-- The entries of some keys removed. -/
def eraseAll (d : Dict K V) (keys : List K) : Dict K V := keys.foldl (fun d k => d.erase k) d

theorem lookup_eraseAll (d : Dict K V) (keys : List K) (k : K) :
    (d.eraseAll keys).lookup k = if k ∈ keys then none else d.lookup k := by
  induction keys generalizing d with
  | nil => rfl
  | cons k' keys ih =>
    rw [eraseAll, List.foldl_cons, ← eraseAll, ih]
    by_cases hkeys : k ∈ keys
    · rw [if_pos hkeys, if_pos (List.mem_cons_of_mem k' hkeys)]
    · rw [if_neg hkeys]
      by_cases hk : k = k'
      · subst hk
        rw [AList.lookup_erase, if_pos List.mem_cons_self]
      · rw [AList.lookup_erase_ne hk, if_neg]
        exact fun hmem => (List.mem_cons.mp hmem).elim hk hkeys

theorem forall_lookup_iff {d : Dict K V} {P : K → V → Prop} :
    (∀ k v, d.lookup k = some v → P k v) ↔ ∀ x ∈ d.entries, P x.1 x.2 := by
  constructor
  · intro h x hx
    exact h x.1 x.2 (AList.mem_lookup_iff.mpr hx)
  · intro h k v hkv
    exact h ⟨k, v⟩ (AList.mem_lookup_iff.mp hkv)

theorem mem_of_lookup_eq_some {d : Dict K V} {k : K} {v : V} (h : d.lookup k = some v) : k ∈ d :=
  AList.lookup_isSome.mp (by simp [h])

/-- The entries in their order; of those with one key the last one, where the first one stood. -/
def ofBindings (entries : List (K × V)) : Dict K V :=
  entries.foldl (fun d e => d.updated e.1 e.2) ∅

theorem mem_values_updated {d : Dict K V} {k : K} {v w : V} (h : w ∈ (d.updated k v).values) :
    w = v ∨ w ∈ d.values := by
  obtain ⟨k', hk'⟩ := mem_values.mp h
  rw [lookup_updated] at hk'
  split_ifs at hk'
  · exact .inl (Option.some.inj hk').symm
  · exact .inr (mem_values.mpr ⟨k', hk'⟩)

/-- What is found is an entry, and an entry is found for every key of one. -/
theorem lookup_ofBindings_spec (entries : List (K × V)) (k : K) :
    (∀ v, (ofBindings entries).lookup k = some v → (k, v) ∈ entries) ∧
      ∀ v, (k, v) ∈ entries → ∃ w, (ofBindings entries).lookup k = some w := by
  unfold ofBindings
  induction entries using List.reverseRecOn with
  | nil =>
    constructor
    · intro v h
      cases h
    · intro v h
      cases h
  | append_singleton entries e ih =>
    rw [List.foldl_append, List.foldl_cons, List.foldl_nil]
    constructor
    · intro v h
      rw [lookup_updated] at h
      rw [List.mem_append, List.mem_singleton]
      split_ifs at h with hk
      · exact .inr (Prod.ext hk (Option.some.inj h).symm)
      · exact .inl (ih.1 v h)
    · intro v h
      rw [lookup_updated]
      split_ifs with hk
      · exact ⟨e.2, rfl⟩
      · rw [List.mem_append, List.mem_singleton] at h
        exact ih.2 v (h.resolve_right fun heq => hk (congrArg Prod.fst heq))

theorem lookup_ne_none_of_mem {d : Dict K V} {k : K} (h : k ∈ d) : ∃ v, d.lookup k = some v :=
  Option.isSome_iff_exists.mp (AList.lookup_isSome.mpr h)

/-- The entries that meet a condition. -/
def retain (p : K → V → Bool) (d : Dict K V) : Dict K V where
  entries := d.entries.filter fun e => p e.1 e.2
  nodupKeys := d.nodupKeys.sublist List.filter_sublist

theorem lookup_retain (p : K → V → Bool) (d : Dict K V) (k : K) :
    (d.retain p).lookup k = (d.lookup k).filter (p k) := by
  apply Option.ext
  intro v
  have hleft : (d.retain p).lookup k = some v ↔
      (⟨k, v⟩ : Sigma fun _ : K => V) ∈ (d.retain p).entries := AList.mem_lookup_iff
  have hright : d.lookup k = some v ↔ (⟨k, v⟩ : Sigma fun _ : K => V) ∈ d.entries :=
    AList.mem_lookup_iff
  rw [hleft, Option.filter_eq_some_iff, hright, retain, List.mem_filter]

/-- The number of entries. -/
def size (d : Dict K V) : ℕ := d.keys.length

theorem size_insert_of_notMem {d : Dict K V} {k : K} {v : V} (h : k ∉ d) :
    size (d.insert k v) = d.size + 1 := by
  have hkeys : (d.insert k v).keys = k :: d.keys.erase k := AList.keys_insert d
  simp only [size, hkeys, List.erase_of_not_mem h, List.length_cons]

theorem size_erase_of_mem {d : Dict K V} {k : K} (h : k ∈ d) : size (d.erase k) + 1 = d.size := by
  have hpos : 0 < d.keys.length := List.length_pos_of_mem h
  have hlen : (d.keys.erase k).length = d.keys.length - 1 := List.length_erase_of_mem h
  simp only [size, AList.keys_erase, hlen]
  omega

theorem size_insert_of_mem {d : Dict K V} {k : K} {v : V} (h : k ∈ d) :
    size (d.insert k v) = d.size := by
  have hkeys : (d.insert k v).keys = k :: d.keys.erase k := AList.keys_insert d
  rw [← size_erase_of_mem h]
  simp only [size, hkeys, List.length_cons, AList.keys_erase]

end Dict

end Marathon.Lib
