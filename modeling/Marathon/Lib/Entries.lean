import Marathon.Lib.Keyed

/-!
# Dictionaries put together from entries

Entries with distinct keys make a dictionary with just these entries, in their order, so a
dictionary comes back from its own entries, and a keyed one from its values.
-/

namespace Marathon.Lib

namespace Dict

variable {K V : Type*}

theorem bindings_injective : Function.Injective (bindings : Dict K V → List (K × V)) := by
  intro d d' h
  have hentries : ∀ d : Dict K V,
      (bindings d).map (fun b => (⟨b.1, b.2⟩ : Sigma fun _ : K => V)) = d.entries := by
    intro d
    rw [bindings, List.map_map]
    exact List.map_id d.entries
  apply AList.ext
  rw [← hentries d, ← hentries d', h]

theorem nodup_bindings (d : Dict K V) : (d.bindings.map Prod.fst).Nodup := by
  rw [map_fst_bindings]
  exact d.nodupKeys

theorem keys_mapWithKey {W : Type*} (f : K → V → W) (d : Dict K V) :
    (d.mapWithKey f).keys = d.keys := by
  rw [← map_fst_bindings, ← map_fst_bindings, bindings_mapWithKey, List.map_map]
  rfl

variable [DecidableEq K]

theorem bindings_updated_of_notMem {d : Dict K V} {k : K} {v : V} (h : k ∉ d.bindings.map Prod.fst) :
    (d.updated k v).bindings = d.bindings ++ [(k, v)] := by
  rw [map_fst_bindings] at h
  have hmap : d.mapWithKey (fun k' w => if k' = k then v else w) = d := by
    apply AList.ext
    rw [mapWithKey]
    conv_rhs => rw [← List.map_id d.entries]
    apply List.map_congr_left
    rintro ⟨k', w⟩ he
    have hne : k' ≠ k := by
      rintro rfl
      exact h (List.mem_map_of_mem (f := Sigma.fst) he)
    rw [if_neg hne]
    rfl
  have hkunion : ∀ l : List (Sigma fun _ : K => V), k ∉ l.keys →
      l.kunion [⟨k, v⟩] = l ++ [⟨k, v⟩] := by
    intro l
    induction l with
    | nil => exact fun _ => rfl
    | cons e l ih =>
      intro hl
      rw [List.keys_cons, List.mem_cons, not_or] at hl
      rw [List.kunion_cons, List.kerase_cons_ne (Ne.symm hl.1), List.kerase_nil, ih hl.2,
        List.cons_append]
  have hentries : (d.updated k v).entries = d.entries ++ [⟨k, v⟩] := by
    rw [updated, hmap, AList.union_entries]
    exact hkunion d.entries h
  rw [bindings, hentries, List.map_append]
  rfl

theorem bindings_ofBindings {entries : List (K × V)} (h : (entries.map Prod.fst).Nodup) :
    (ofBindings entries).bindings = entries := by
  induction entries using List.reverseRecOn with
  | nil => rfl
  | append_singleton entries e ih =>
    rw [List.map_append, List.nodup_append'] at h
    have hrest := ih h.1
    have hnew : e.1 ∉ (ofBindings entries).bindings.map Prod.fst := by
      rw [hrest]
      exact fun hmem => h.2.2 hmem List.mem_cons_self
    have hfold : ofBindings (entries ++ [e]) = (ofBindings entries).updated e.1 e.2 := by
      rw [ofBindings, List.foldl_append]
      rfl
    rw [hfold, bindings_updated_of_notMem hnew, hrest]

theorem subperm_ofBindings (entries : List (K × V)) :
    ((ofBindings entries).bindings.map Prod.fst).Subperm (entries.map Prod.fst) := by
  have hnodup : ((ofBindings entries).bindings.map Prod.fst).Nodup := nodup_bindings _
  apply hnodup.subperm
  intro k hk
  obtain ⟨⟨k, v⟩, hmem, rfl⟩ := List.mem_map.mp hk
  have hentry := (lookup_ofBindings_spec entries k).1 v (mem_bindings.mp hmem)
  exact List.mem_map_of_mem hentry

theorem length_bindings_ofBindings_le (entries : List (K × V)) :
    (ofBindings entries).bindings.length ≤ entries.length := by
  have hle := (subperm_ofBindings entries).length_le
  rwa [List.length_map, List.length_map] at hle

/-- Entries of which none is lost have distinct keys. -/
theorem nodup_of_length_le {entries : List (K × V)}
    (h : entries.length ≤ (ofBindings entries).bindings.length) : (entries.map Prod.fst).Nodup := by
  have hperm := (subperm_ofBindings entries).perm_of_length_le (by simpa using h)
  exact hperm.nodup (nodup_bindings _)

/-- A dictionary comes back from its own entries. -/
theorem ofBindings_bindings (d : Dict K V) : ofBindings d.bindings = d :=
  bindings_injective (bindings_ofBindings d.nodup_bindings)

end Dict

namespace Keyed

variable {K V : Type*} [DecidableEq K] {key : V → K}

/-- Values put under their own keys, the last one of a key winning. -/
def ofValues (key : V → K) (values : List V) : Keyed key where
  dict := Dict.ofBindings (values.map fun v => (key v, v))
  keyed := by
    intro k v h
    obtain ⟨w, -, heq⟩ := List.mem_map.mp ((Dict.lookup_ofBindings_spec _ k).1 v h)
    cases heq
    rfl

/-- The values that meet a condition. -/
def retain (p : V → Bool) (m : Keyed key) : Keyed key where
  dict := m.dict.retain fun _ v => p v
  keyed := by
    intro k v h
    rw [Dict.lookup_retain] at h
    exact m.keyed k v (Option.filter_eq_some_iff.mp h).1

theorem retain_true (m : Keyed key) : m.retain (fun _ => true) = m := by
  obtain ⟨dict, keyed⟩ := m
  rw [retain, mk.injEq]
  apply AList.ext
  exact List.filter_eq_self.mpr fun _ _ => rfl

/-- A keyed dictionary without some of its values comes back from the others. -/
theorem ofValues_filter (p : V → Bool) (m : Keyed key) :
    ofValues key (m.values.filter p) = m.retain p := by
  rw [ofValues, retain, mk.injEq]
  have hbindings : (m.dict.retain fun _ v => p v).bindings =
      (m.values.filter p).map fun v => (key v, v) := by
    have hfilter : (m.dict.retain fun _ v => p v).bindings = m.dict.bindings.filter fun b => p b.2 := by
      rw [Dict.bindings, Dict.bindings, Dict.retain, List.filter_map]
      rfl
    rw [hfilter, bindings_dict, List.filter_map]
    rfl
  rw [← hbindings, Dict.ofBindings_bindings]

end Keyed

end Marathon.Lib
