import Marathon.Storage.InMemoryPersistenceStore

/-!
# The cache loaded at start

A cache of all ids and of all current values, loaded before the first request. Loaded
values stay serialized until they are read for the first time.
-/

namespace Marathon.Storage

open Lib

/-- The store behind the cache and the two caches. -/
structure LoadTimeCachingPersistenceStore (σ C I T V S : Type*) where
  store : σ
  idCache : Dict C (Finset I)
  valueCache : Dict (StorageId C I T) (S ⊕ V)

namespace LoadTimeCachingPersistenceStore

variable {σ C I T V S : Type*} [DecidableEq C] [DecidableEq I] [DecidableEq T]
  (store : BasePersistenceStore σ C I T V S)

section Operations

variable (s : LoadTimeCachingPersistenceStore σ C I T V S) (category : C) (id : I)

/-- One of the keys that are loaded; it is listed even if there is no value. -/
def load (s : LoadTimeCachingPersistenceStore σ C I T V S) (key : StorageId C I T) :
    LoadTimeCachingPersistenceStore σ C I T V S :=
  { s with
    valueCache := match store.rawGet s.store key with
      | some v => s.valueCache.insert key (.inl v)
      | none => s.valueCache
    idCache := s.idCache.insert key.category
      (insert key.id ((s.idCache.lookup key.category).getD ∅)) }

def preDriverStarts (content : σ) : LoadTimeCachingPersistenceStore σ C I T V S :=
  (store.allKeys content).foldl (load store)
    { store := content, idCache := ∅, valueCache := ∅ }

def ids : Finset I := (s.idCache.lookup category).getD ∅

def deleteCurrentOrAll (delete : σ → σ) : LoadTimeCachingPersistenceStore σ C I T V S :=
  let old := (s.idCache.lookup category).getD ∅
  let children := old.erase id
  { store := delete s.store
    valueCache := s.valueCache.erase ⟨category, id, none⟩
    idCache :=
      if children.Nonempty then s.idCache.insert category children
      else s.idCache.erase category }

def get : Option V × LoadTimeCachingPersistenceStore σ C I T V S :=
  match s.valueCache.lookup ⟨category, id, none⟩ with
  | some (.inl v) =>
    let deserialized := store.ir.unmarshal category v
    (some deserialized,
      { s with valueCache := s.valueCache.insert ⟨category, id, none⟩ (.inr deserialized) })
  | some (.inr v) => (some v, s)
  | none => (none, s)

def storeCurrent (v : V) : LoadTimeCachingPersistenceStore σ C I T V S :=
  let old := (s.idCache.lookup category).getD ∅
  { store := store.storeCurrent s.store category id v
    valueCache := s.valueCache.insert ⟨category, id, none⟩ (.inr v)
    idCache := s.idCache.insert category (insert id old) }

def storeVersion (v : V) (version : T) : LoadTimeCachingPersistenceStore σ C I T V S :=
  let old := (s.idCache.lookup category).getD ∅
  { s with
    store := store.storeVersion s.store category id version v
    idCache := s.idCache.insert category (insert id old) }

end Operations

/-- The store behind the cache, each call completed before the next one. -/
def component : Component (LoadTimeCachingPersistenceStore σ C I T V S) (Request C I T V)
    (Response I T V)
  | s, .ids category => (.ids (s.ids category), s)
  | s, .versions category id => (.versions (store.versions s.store category id), s)
  | s, .get category id => (.value (s.get store category id).1, (s.get store category id).2)
  | s, .getVersion category id version =>
    (.value (store.getVersion s.store category id version), s)
  | s, .getVersions category list => (.values (store.getVersions s.store category list), s)
  | s, .store category id v => (.done, s.storeCurrent store category id v)
  | s, .storeVersion category id v version =>
    (.done, s.storeVersion store category id v version)
  | s, .deleteCurrent category id =>
    (.done, s.deleteCurrentOrAll category id fun content => store.deleteCurrent content category id)
  | s, .deleteVersion category id version =>
    (.done, { s with store := store.deleteVersion s.store category id version })
  | s, .deleteAll category id =>
    (.done, s.deleteCurrentOrAll category id fun content => store.deleteAll content category id)

/-- Every id that the store lists is among the keys that are loaded. -/
def LoadsAll (content : σ) : Prop :=
  ∀ category, ∀ id ∈ store.ids content category, ⟨category, id, none⟩ ∈ store.allKeys content

/-- Whether the caches still agree with the store after a call: a value is read back as it was
stored, a version makes its id listed or the id was listed before, and an id goes with its
current value but not with a version. -/
def KeepsAgreement (content : σ) : Request C I T V → Prop
  | .store category id v =>
    store.get (store.storeCurrent content category id v) category id = some v
  | .storeVersion category id _ _ =>
    store.ir.hasVersions category ∨ id ∈ store.ids content category
  | .deleteCurrent category id =>
    id ∉ store.ids (store.deleteCurrent content category id) category
  | .deleteVersion category id version =>
    id ∈ store.ids content category →
      id ∈ store.ids (store.deleteVersion content category id version) category
  | _ => True

instance [DecidableEq V] (content : σ) :
    ∀ r : Request C I T V, Decidable (KeepsAgreement store content r)
  | .ids _ => inferInstanceAs (Decidable True)
  | .versions _ _ => inferInstanceAs (Decidable True)
  | .get _ _ => inferInstanceAs (Decidable True)
  | .getVersion _ _ _ => inferInstanceAs (Decidable True)
  | .getVersions _ _ => inferInstanceAs (Decidable True)
  | .store _ _ _ => inferInstanceAs (Decidable (_ = _))
  | .storeVersion _ _ _ _ => inferInstanceAs (Decidable (_ ∨ _))
  | .deleteCurrent _ _ => inferInstanceAs (Decidable (_ ∉ _))
  | .deleteVersion _ _ _ => inferInstanceAs (Decidable (_ → _))
  | .deleteAll _ _ => inferInstanceAs (Decidable True)

/-! ## Loading -/

section Loading

variable {store} {s : LoadTimeCachingPersistenceStore σ C I T V S}

theorem mem_ids_load {key : StorageId C I T} {category : C} {id : I} :
    id ∈ (load store s key).ids category ↔
      id ∈ s.ids category ∨ (category = key.category ∧ id = key.id) := by
  rw [ids, load, ids]
  by_cases hc : category = key.category
  · rw [hc, AList.lookup_insert, Option.getD_some, Finset.mem_insert, or_comm]
    simp only [true_and]
  · rw [AList.lookup_insert_ne hc]
    simp only [hc, false_and, or_false]

theorem lookup_load {key k : StorageId C I T} :
    (load store s key).valueCache.lookup k =
      if k = key ∧ (store.rawGet s.store key).isSome then (store.rawGet s.store key).map .inl
      else s.valueCache.lookup k := by
  rw [load]
  cases hvalue : store.rawGet s.store key with
  | none => exact (if_neg fun h => Bool.false_ne_true h.2).symm
  | some v =>
    by_cases hk : k = key
    · rw [if_pos ⟨hk, rfl⟩, hk]
      exact AList.lookup_insert _
    · rw [if_neg fun h => hk h.1]
      exact AList.lookup_insert_ne hk

theorem load_all (store : BasePersistenceStore σ C I T V S)
    (s : LoadTimeCachingPersistenceStore σ C I T V S) (keys : List (StorageId C I T)) :
    (keys.foldl (load store) s).store = s.store ∧
      (∀ category id, id ∈ (keys.foldl (load store) s).ids category ↔
        id ∈ s.ids category ∨ ∃ key ∈ keys, category = key.category ∧ id = key.id) ∧
      ∀ k, (keys.foldl (load store) s).valueCache.lookup k =
        if k ∈ keys ∧ (store.rawGet s.store k).isSome then (store.rawGet s.store k).map .inl
        else s.valueCache.lookup k := by
  induction keys generalizing s with
  | nil => simp
  | cons key keys ih =>
    obtain ⟨hstore, hids, hvalues⟩ := ih (load store s key)
    have hload : (load store s key).store = s.store := rfl
    rw [List.foldl_cons]
    refine ⟨hstore, ?_, ?_⟩
    · intro category id
      rw [hids, mem_ids_load, List.exists_mem_cons_iff, or_assoc]
    · intro k
      rw [hvalues, hload, lookup_load]
      by_cases hk : k = key
      · subst hk
        rw [if_congr (and_iff_right List.mem_cons_self) rfl rfl, if_congr (and_iff_right rfl) rfl rfl]
        by_cases hsome : (store.rawGet s.store k).isSome
        · rw [if_pos hsome, ite_self]
        · rw [if_neg fun h => hsome h.2]
      · simp only [List.mem_cons, hk, false_or, false_and, if_false]

end Loading

/-! ## Agreement of the caches with the store -/

variable {store}

/-- The value of an entry of the cache. -/
def decoded (store : BasePersistenceStore σ C I T V S) (category : C) : S ⊕ V → V
  | .inl v => store.ir.unmarshal category v
  | .inr v => v

/-- The caches hold the ids and the current values of the store. -/
structure Agrees (store : BasePersistenceStore σ C I T V S)
    (s : LoadTimeCachingPersistenceStore σ C I T V S) : Prop where
  ids : ∀ category, s.ids category = store.ids s.store category
  values : ∀ category id, (s.valueCache.lookup ⟨category, id, none⟩).map (decoded store category) =
    store.get s.store category id

theorem agrees_preDriverStarts (h : store.Lawful) {content : σ} (hload : LoadsAll store content) :
    Agrees store (preDriverStarts store content) := by
  obtain ⟨hstore, hids, hvalues⟩ := load_all store
    { store := content, idCache := ∅, valueCache := ∅ } (store.allKeys content)
  constructor
  · intro category
    ext id
    rw [preDriverStarts, hids, hstore]
    constructor
    · rintro (hempty | ⟨key, hkey, rfl, rfl⟩)
      · cases hempty
      · exact (h.mem_rawIds_of_allKeys content key hkey).2
    · intro hid
      exact .inr ⟨_, hload category id hid, rfl, rfl⟩
  · intro category id
    rw [preDriverStarts, hvalues, hstore, BasePersistenceStore.get]
    cases hvalue : store.rawGet content ⟨category, id, none⟩ with
    | none => rw [if_neg fun h => Bool.false_ne_true h.2]; rfl
    | some v =>
      rw [if_pos ⟨h.mem_allKeys_of_rawGet content category id v hvalue, rfl⟩]
      rfl

variable {s : LoadTimeCachingPersistenceStore σ C I T V S} {category : C} {id : I}

omit [DecidableEq I] [DecidableEq T] in
theorem getD_insert (ids : Finset I) (category' : C) :
    ((s.idCache.insert category ids).lookup category').getD ∅ =
      if category' = category then ids else s.ids category' := by
  split_ifs with hc
  · rw [hc, AList.lookup_insert, Option.getD_some]
  · rw [AList.lookup_insert_ne hc]
    rfl

theorem ids_deleteCurrentOrAll (delete : σ → σ) (category' : C) :
    (s.deleteCurrentOrAll category id delete).ids category' =
      if category' = category then (s.ids category').erase id else s.ids category' := by
  rw [deleteCurrentOrAll, ids]
  by_cases hchildren : (((s.idCache.lookup category).getD ∅).erase id).Nonempty
  · rw [if_pos hchildren, getD_insert]
    split_ifs with hc
    · rw [hc, ids]
    · rfl
  · rw [if_neg hchildren]
    split_ifs with hc
    · rw [hc, AList.lookup_erase, Option.getD_none]
      exact (Finset.not_nonempty_iff_eq_empty.mp hchildren).symm
    · rw [AList.lookup_erase_ne hc]
      rfl

theorem map_lookup_insert (v : S ⊕ V) (category' : C) (id' : I) :
    ((s.valueCache.insert ⟨category, id, none⟩ v).lookup ⟨category', id', none⟩).map
        (decoded store category') =
      if category' = category ∧ id' = id then some (decoded store category v)
      else (s.valueCache.lookup ⟨category', id', none⟩).map (decoded store category') := by
  split_ifs with hk
  · obtain ⟨rfl, rfl⟩ := hk
    rw [AList.lookup_insert, Option.map_some]
  · rw [AList.lookup_insert_ne]
    intro heq
    exact hk ⟨congrArg StorageId.category heq, congrArg StorageId.id heq⟩

namespace Agrees

variable (hs : Agrees store s)

include hs

theorem get_eq (category : C) (id : I) : (s.get store category id).1 = store.get s.store category id ∧
    (s.get store category id).2.store = s.store ∧ Agrees store (s.get store category id).2 := by
  have hvalue := hs.values category id
  rw [LoadTimeCachingPersistenceStore.get]
  cases hcache : s.valueCache.lookup ⟨category, id, none⟩ with
  | none =>
    rw [hcache] at hvalue
    exact ⟨hvalue, rfl, hs⟩
  | some entry =>
    rw [hcache] at hvalue
    cases entry with
    | inr v => exact ⟨hvalue, rfl, hs⟩
    | inl v =>
      refine ⟨hvalue, rfl, hs.ids, ?_⟩
      intro category' id'
      rw [map_lookup_insert]
      split_ifs with hk
      · obtain ⟨rfl, rfl⟩ := hk
        exact hvalue
      · exact hs.values category' id'

variable (h : store.Lawful)

include h

theorem storeCurrent {v : V} (hok : KeepsAgreement store s.store (.store category id v)) :
    Agrees store (s.storeCurrent store category id v) := by
  constructor
  · intro category'
    refine (getD_insert _ category').trans ?_
    have hids : (s.idCache.lookup category).getD ∅ = store.ids s.store category := hs.ids category
    have hafter := h.ids_storeCurrent s.store category id v category'
    refine Eq.trans ?_ hafter.symm
    split_ifs with hc
    · rw [hids, hc]
    · exact hs.ids category'
  · intro category' id'
    refine (map_lookup_insert _ category' id').trans ?_
    split_ifs with hk
    · obtain ⟨rfl, rfl⟩ := hk
      exact hok.symm
    · exact (hs.values category' id').trans
        (h.get_storeCurrent_of_ne s.store category id hk v).symm

theorem storeVersion {v : V} {version : T}
    (hok : KeepsAgreement store s.store (.storeVersion category id v version)) :
    Agrees store (s.storeVersion store category id v version) := by
  constructor
  · intro category'
    refine (getD_insert _ category').trans ?_
    have hids : (s.idCache.lookup category).getD ∅ = store.ids s.store category := hs.ids category
    have hafter := h.ids_storeVersion s.store category id version v category'
    refine Eq.trans ?_ hafter.symm
    split_ifs with hc hversions hversions
    · rw [hids, hc]
    · rw [hids, hc]
      exact Finset.insert_eq_of_mem (hok.resolve_left fun hv => hversions ⟨hc, hv⟩)
    · exact absurd hversions.1 hc
    · exact hs.ids category'
  · intro category' id'
    exact (hs.values category' id').trans
      (h.get_storeVersion s.store category id version v category' id').symm

omit h in
theorem deleteCurrentOrAll {delete : σ → σ}
    (hvalues : ∀ category' id', store.get (delete s.store) category' id' =
      if category' = category ∧ id' = id then none else store.get s.store category' id')
    (hids : ∀ category', store.ids (delete s.store) category' =
      if category' = category then (store.ids s.store category').erase id
      else store.ids s.store category') :
    Agrees store (s.deleteCurrentOrAll category id delete) := by
  constructor
  · intro category'
    rw [ids_deleteCurrentOrAll, hs.ids]
    exact (hids category').symm
  · intro category' id'
    refine Eq.trans ?_ (hvalues category' id').symm
    rw [LoadTimeCachingPersistenceStore.deleteCurrentOrAll]
    dsimp only
    split_ifs with hk
    · obtain ⟨rfl, rfl⟩ := hk
      rw [AList.lookup_erase, Option.map_none]
    · rw [AList.lookup_erase_ne]
      · exact hs.values category' id'
      · intro heq
        exact hk ⟨congrArg StorageId.category heq, congrArg StorageId.id heq⟩

theorem deleteCurrent (hok : KeepsAgreement store s.store (.deleteCurrent category id)) :
    Agrees store (s.deleteCurrentOrAll category id
      fun content => store.deleteCurrent content category id) := by
  have hkeeps := h.rawIds_rawDeleteCurrent s.store ⟨category, id, none⟩
  apply hs.deleteCurrentOrAll (h.get_deleteCurrent s.store category id)
  intro category'
  split_ifs with hc
  · subst hc
    exact BasePersistenceStore.ids_eq_erase hkeeps hok
  · exact BasePersistenceStore.ids_eq_of_ne hkeeps hc

theorem deleteAll : Agrees store (s.deleteCurrentOrAll category id
    fun content => store.deleteAll content category id) :=
  hs.deleteCurrentOrAll (h.get_deleteAll s.store category id)
    (h.ids_deleteAll s.store category id)

theorem deleteVersion {version : T}
    (hok : KeepsAgreement store s.store (.deleteVersion category id version)) :
    Agrees store { s with store := store.deleteVersion s.store category id version } := by
  have hkeeps := h.rawIds_rawDelete s.store ⟨category, id, some version⟩ version
  constructor
  · intro category'
    exact (hs.ids category').trans (BasePersistenceStore.ids_eq_of_stays hkeeps hok category').symm
  · intro category' id'
    exact (hs.values category' id').trans
      (h.get_deleteVersion s.store category id version category' id').symm

/-- A call that keeps the caches in agreement is answered as the store alone answers it. -/
theorem component_eq (r : Request C I T V) (hok : KeepsAgreement store s.store r) :
    (store.component s.store r).1 = (component store s r).1 ∧
      (component store s r).2.store = (store.component s.store r).2 ∧
        Agrees store (component store s r).2 := by
  cases r with
  | ids category => exact ⟨congrArg Response.ids (hs.ids category).symm, rfl, hs⟩
  | get category id =>
    obtain ⟨hanswer, hstore, hagrees⟩ := hs.get_eq category id
    exact ⟨congrArg Response.value hanswer.symm, hstore, hagrees⟩
  | versions category id => exact ⟨rfl, rfl, hs⟩
  | getVersion category id version => exact ⟨rfl, rfl, hs⟩
  | getVersions category list => exact ⟨rfl, rfl, hs⟩
  | store category id v => exact ⟨rfl, rfl, hs.storeCurrent h hok⟩
  | storeVersion category id v version => exact ⟨rfl, rfl, hs.storeVersion h hok⟩
  | deleteCurrent category id => exact ⟨rfl, rfl, hs.deleteCurrent h hok⟩
  | deleteVersion category id version => exact ⟨rfl, rfl, hs.deleteVersion h hok⟩
  | deleteAll category id => exact ⟨rfl, rfl, hs.deleteAll h⟩

end Agrees

/-- If every id of the store has a key to be loaded, then, as long as every call keeps the
caches in agreement with the store, every result is that of the store alone. -/
theorem answers_eq_of_loadsAll (h : store.Lawful) {content : σ} (hload : LoadsAll store content)
    {requests : List (Request C I T V)}
    (hok : store.component.Along (KeepsAgreement store) content requests) :
    (component store).answers (preDriverStarts store content) requests =
      store.component.answers content requests := by
  have hstart : (preDriverStarts store content).store = content := (load_all _ _ _).1
  symm
  apply Component.answers_eq_of_along
    (R := fun t s => s.store = t ∧ Agrees store s) _ _
    ⟨hstart, agrees_preDriverStarts h hload⟩ hok
  · rintro _ s r ⟨rfl, hs⟩ hr
    exact (hs.component_eq h r hr).1
  · rintro _ s r ⟨rfl, hs⟩ hr
    exact (hs.component_eq h r hr).2

namespace VersionsOnly

/-- Strings, each with a version of its own. -/
def ir : IdResolver String String String String where
  hasVersions _ := true
  version v := v
  marshal v := v
  unmarshal _ s := s

/-- A store that holds one app and its version. -/
def content : InMemoryPersistenceStore.Entries String String String String :=
  (AList.singleton ⟨"apps", "_a", none⟩ "v1").insert ⟨"apps", "_a", some "v1"⟩ "v1"

theorem loadsAll : LoadsAll (inMemoryPersistenceStore ir) content := by
  have hkeys : ∀ k ∈ content.keys, { k with version := none } ∈ content.keys := by decide
  intro category id hid
  obtain ⟨version, hsome⟩ := InMemoryPersistenceStore.mem_rawIds.mp hid
  apply List.mem_filter.mpr
  exact ⟨hkeys _ (AList.lookup_isSome.mp hsome), rfl⟩

theorem loaded_answers_eq :
    (component (inMemoryPersistenceStore ir)).answers
        (preDriverStarts (inMemoryPersistenceStore ir) content)
        [.ids "apps", .store "apps" "_a" "v2", .get "apps" "_a", .deleteVersion "apps" "_a" "v1",
          .deleteAll "apps" "_a", .ids "apps"] =
      (inMemoryPersistenceStore ir).component.answers content
        [.ids "apps", .store "apps" "_a" "v2", .get "apps" "_a", .deleteVersion "apps" "_a" "v1",
          .deleteAll "apps" "_a", .ids "apps"] :=
  answers_eq_of_loadsAll (InMemoryPersistenceStore.lawful ir) loadsAll (by decide)

/-- Without its current value the app is no longer listed, although the store lists it with its
version. -/
theorem not_forall_loaded_answers_eq :
    ¬∀ (content : InMemoryPersistenceStore.Entries String String String String)
      (requests : List (Request String String String String)),
      (component (inMemoryPersistenceStore ir)).answers
          (preDriverStarts (inMemoryPersistenceStore ir) content) requests =
        (inMemoryPersistenceStore ir).component.answers content requests := by
  intro h
  have hids := h content [.deleteCurrent "apps" "_a", .ids "apps"]
  revert hids
  decide

end VersionsOnly

end LoadTimeCachingPersistenceStore

end Marathon.Storage
