import Marathon.Storage.InMemoryPersistenceStore

/-!
# The lazily filled cache

A cache of the ids of each category and of the current values in front of a store. Reads
fill it, and so do writes, whether or not anything was read before.
-/

namespace Marathon.Storage

open Lib

/-- The store behind the cache and the two caches. -/
structure LazyCachingPersistenceStore (σ C I T V : Type*) where
  store : σ
  idCache : Dict C (Finset I)
  valueCache : Dict (StorageId C I T) (Option V)

namespace LazyCachingPersistenceStore

variable {σ C I T V S : Type*} [DecidableEq C] [DecidableEq I] [DecidableEq T]
  (store : BasePersistenceStore σ C I T V S)

section Operations

variable (s : LazyCachingPersistenceStore σ C I T V) (category : C) (id : I)

/-- A cache in front of a store with content of any kind. -/
def opened (content : σ) : LazyCachingPersistenceStore σ C I T V where
  store := content
  idCache := ∅
  valueCache := ∅

def ids : Finset I × LazyCachingPersistenceStore σ C I T V :=
  match s.idCache.lookup category with
  | some ids => (ids, s)
  | none =>
    let children := store.ids s.store category
    (children, { s with idCache := s.idCache.insert category children })

def deleteCurrentOrAll (delete : σ → σ) : LazyCachingPersistenceStore σ C I T V :=
  let old := (s.idCache.lookup category).getD ∅
  let children := old.erase id
  { store := delete s.store
    valueCache := s.valueCache.erase ⟨category, id, none⟩
    idCache :=
      if children.Nonempty then s.idCache.insert category children
      else s.idCache.erase category }

def get : Option V × LazyCachingPersistenceStore σ C I T V :=
  match s.valueCache.lookup ⟨category, id, none⟩ with
  | some v => (v, s)
  | none =>
    let value := store.get s.store category id
    (value, { s with valueCache := s.valueCache.insert ⟨category, id, none⟩ value })

/-- The id is put into the cached ids even if there are none yet. -/
def storeCurrent (v : V) : LazyCachingPersistenceStore σ C I T V :=
  let cachedIds := (s.idCache.lookup category).getD ∅
  { store := store.storeCurrent s.store category id v
    valueCache := s.valueCache.insert ⟨category, id, none⟩ (some v)
    idCache := s.idCache.insert category (insert id cachedIds) }

def storeVersion (v : V) (version : T) : LazyCachingPersistenceStore σ C I T V :=
  let old := (s.idCache.lookup category).getD ∅
  { s with
    store := store.storeVersion s.store category id version v
    idCache := s.idCache.insert category (insert id old) }

end Operations

/-- The store behind the cache, each call completed before the next one. -/
def component : Component (LazyCachingPersistenceStore σ C I T V) (Request C I T V)
    (Response I T V)
  | s, .ids category => (.ids (s.ids store category).1, (s.ids store category).2)
  | s, .versions category id => (.versions (store.versions s.store category id), s)
  | s, .get category id => (.value (s.get store category id).1, (s.get store category id).2)
  | s, .getVersion category id version =>
    (.value (store.getVersion s.store category id version), s)
  | s, .getVersions category list => (.values (store.getVersions s.store category list), s)
  | s, .store category id v => (.done, s.storeCurrent store category id v)
  | s, .storeVersion category id v version =>
    (.done, s.storeVersion store category id v version)
  | s, .deleteCurrent category id =>
    (.done, s.deleteCurrentOrAll category id fun content => store.deleteCurrent content category id)
  | s, .deleteVersion category id version =>
    (.done, { s with store := store.deleteVersion s.store category id version })
  | s, .deleteAll category id =>
    (.done, s.deleteCurrentOrAll category id fun content => store.deleteAll content category id)

/-- Whether the caches still agree with the store after a call: a first write to a category
finds no other id there, only ids are cached that the store lists, a value is read back as it
was stored, and an id goes from the cache exactly when the store drops it. -/
def KeepsAgreement (s : LazyCachingPersistenceStore σ C I T V) : Request C I T V → Prop
  | .store category id v =>
    (s.idCache.lookup category = none → store.ids s.store category ⊆ {id}) ∧
      store.get (store.storeCurrent s.store category id v) category id = some v
  | .storeVersion category id _ _ =>
    (s.idCache.lookup category = none → store.ids s.store category ⊆ {id}) ∧
      (store.ir.hasVersions category ∨ id ∈ store.ids s.store category)
  | .deleteCurrent category id =>
    ∀ ids, s.idCache.lookup category = some ids →
      ids ⊆ {id} ∨ id ∉ store.ids (store.deleteCurrent s.store category id) category
  | .deleteVersion category id version =>
    s.idCache.lookup category ≠ none → id ∈ store.ids s.store category →
      id ∈ store.ids (store.deleteVersion s.store category id version) category
  | _ => True

/-! ## Agreement of the caches with the store -/

/-- What is cached is what the store holds. -/
structure Agrees (s : LazyCachingPersistenceStore σ C I T V) : Prop where
  ids : ∀ category ids, s.idCache.lookup category = some ids → ids = store.ids s.store category
  values : ∀ category id v, s.valueCache.lookup ⟨category, id, none⟩ = some v →
    v = store.get s.store category id

variable {store} {s : LazyCachingPersistenceStore σ C I T V} {category : C} {id : I}

theorem agrees_opened (content : σ) :
    Agrees store (opened content : LazyCachingPersistenceStore σ C I T V) where
  ids _ _ h := by cases h
  values _ _ _ h := by cases h

namespace Agrees

variable (hs : Agrees store s)

include hs

theorem ids_eq (category : C) : (s.ids store category).1 = store.ids s.store category ∧
    (s.ids store category).2.store = s.store ∧ Agrees store (s.ids store category).2 := by
  rw [LazyCachingPersistenceStore.ids]
  cases hcache : s.idCache.lookup category with
  | some ids => exact ⟨hs.ids category ids hcache, rfl, hs⟩
  | none =>
    refine ⟨rfl, rfl, ?_, hs.values⟩
    intro category' ids hlookup
    rcases Dict.lookup_insert_eq_some.mp hlookup with ⟨rfl, rfl⟩ | ⟨_, hlookup⟩
    · rfl
    · exact hs.ids category' ids hlookup

theorem get_eq (category : C) (id : I) : (s.get store category id).1 = store.get s.store category id ∧
    (s.get store category id).2.store = s.store ∧ Agrees store (s.get store category id).2 := by
  rw [LazyCachingPersistenceStore.get]
  cases hcache : s.valueCache.lookup ⟨category, id, none⟩ with
  | some v => exact ⟨hs.values category id v hcache, rfl, hs⟩
  | none =>
    refine ⟨rfl, rfl, hs.ids, ?_⟩
    intro category' id' v hlookup
    rcases Dict.lookup_insert_eq_some.mp hlookup with ⟨heq, rfl⟩ | ⟨_, hlookup⟩
    · cases heq
      rfl
    · exact hs.values category' id' v hlookup

theorem insert_getD (hcold : s.idCache.lookup category = none → store.ids s.store category ⊆ {id}) :
    insert id ((s.idCache.lookup category).getD ∅) = insert id (store.ids s.store category) := by
  cases hcache : s.idCache.lookup category with
  | some ids => rw [Option.getD_some, hs.ids category ids hcache]
  | none =>
    rw [Option.getD_none, insert_empty_eq]
    exact (Finset.singleton_subset_iff.mpr (Finset.mem_insert_self id _)).antisymm
      (Finset.insert_subset (Finset.mem_singleton_self id) (hcold hcache))

/-- A deletion of the current value that removes the id from the cache; in other categories
nothing changes, and in its own one the id is gone or the cache is emptied. -/
theorem deleteCurrentOrAll {delete : σ → σ}
    (hvalues : ∀ category' id', store.get (delete s.store) category' id' =
      if category' = category ∧ id' = id then none else store.get s.store category' id')
    (hothers : ∀ category', category' ≠ category →
      store.ids (delete s.store) category' = store.ids s.store category')
    (hids : ∀ ids, s.idCache.lookup category = some ids → (ids.erase id).Nonempty →
      store.ids (delete s.store) category = (store.ids s.store category).erase id) :
    Agrees store (s.deleteCurrentOrAll category id delete) := by
  constructor
  · intro category' ids hlookup
    rw [LazyCachingPersistenceStore.deleteCurrentOrAll] at hlookup ⊢
    dsimp only at hlookup ⊢
    have hkept : category' ≠ category → s.idCache.lookup category' = some ids →
        ids = store.ids (delete s.store) category' := by
      intro hne hold
      rw [hothers category' hne, hs.ids category' ids hold]
    split_ifs at hlookup with hchildren
    · rcases Dict.lookup_insert_eq_some.mp hlookup with ⟨rfl, rfl⟩ | ⟨hne, hold⟩
      · cases hcache : s.idCache.lookup category' with
        | none =>
          rw [hcache, Option.getD_none] at hchildren
          exact absurd hchildren (by simp)
        | some old =>
          rw [hcache, Option.getD_some] at hchildren
          rw [Option.getD_some, hids old hcache hchildren, hs.ids category' old hcache]
      · exact hkept hne hold
    · obtain ⟨hne, hold⟩ := Dict.lookup_erase_eq_some.mp hlookup
      exact hkept hne hold
  · intro category' id' v hlookup
    obtain ⟨hne, hold⟩ := Dict.lookup_erase_eq_some.mp hlookup
    have hother : ¬(category' = category ∧ id' = id) := by
      rintro ⟨rfl, rfl⟩
      exact hne rfl
    exact (hs.values category' id' v hold).trans
      ((hvalues category' id').trans (if_neg hother)).symm

variable (h : store.Lawful)

include h

theorem storeCurrent {v : V} (hok : KeepsAgreement store s (.store category id v)) :
    Agrees store (s.storeCurrent store category id v) := by
  constructor
  · intro category' ids hlookup
    have hids := h.ids_storeCurrent s.store category id v category'
    refine Eq.trans ?_ hids.symm
    rcases Dict.lookup_insert_eq_some.mp hlookup with ⟨rfl, rfl⟩ | ⟨hne, hlookup⟩
    · rw [if_pos rfl, hs.insert_getD hok.1]
    · rw [if_neg hne, hs.ids category' ids hlookup]
  · intro category' id' w hlookup
    rcases Dict.lookup_insert_eq_some.mp hlookup with ⟨heq, rfl⟩ | ⟨hne, hlookup⟩
    · cases heq
      exact hok.2.symm
    · have hother : ¬(category' = category ∧ id' = id) := by
        rintro ⟨rfl, rfl⟩
        exact hne rfl
      exact (hs.values category' id' w hlookup).trans
        (h.get_storeCurrent_of_ne s.store category id hother v).symm

theorem storeVersion {v : V} {version : T}
    (hok : KeepsAgreement store s (.storeVersion category id v version)) :
    Agrees store (s.storeVersion store category id v version) := by
  constructor
  · intro category' ids hlookup
    have hids := h.ids_storeVersion s.store category id version v category'
    refine Eq.trans ?_ hids.symm
    rcases Dict.lookup_insert_eq_some.mp hlookup with ⟨rfl, rfl⟩ | ⟨hne, hlookup⟩
    · rw [hs.insert_getD hok.1]
      split_ifs with hversions
      · rfl
      · exact Finset.insert_eq_of_mem (hok.2.resolve_left fun hv => hversions ⟨rfl, hv⟩)
    · rw [if_neg fun hc => hne hc.1, hs.ids category' ids hlookup]
  · intro category' id' w hlookup
    exact (hs.values category' id' w hlookup).trans
      (h.get_storeVersion s.store category id version v category' id').symm

theorem deleteCurrent (hok : KeepsAgreement store s (.deleteCurrent category id)) :
    Agrees store (s.deleteCurrentOrAll category id
      fun content => store.deleteCurrent content category id) := by
  have hkeeps := h.rawIds_rawDeleteCurrent s.store ⟨category, id, none⟩
  apply hs.deleteCurrentOrAll (h.get_deleteCurrent s.store category id)
  · intro category' hne
    exact BasePersistenceStore.ids_eq_of_ne hkeeps hne
  · intro ids hcache hnonempty
    apply BasePersistenceStore.ids_eq_erase hkeeps
    apply (hok ids hcache).resolve_left
    intro hsub
    obtain ⟨other, hother⟩ := hnonempty
    obtain ⟨hne, hmem⟩ := Finset.mem_erase.mp hother
    exact hne (Finset.mem_singleton.mp (hsub hmem))

theorem deleteAll : Agrees store (s.deleteCurrentOrAll category id
    fun content => store.deleteAll content category id) := by
  apply hs.deleteCurrentOrAll (h.get_deleteAll s.store category id)
  · intro category' hne
    rw [h.ids_deleteAll, if_neg hne]
  · intro ids _ _
    rw [h.ids_deleteAll, if_pos rfl]

theorem deleteVersion {version : T}
    (hok : KeepsAgreement store s (.deleteVersion category id version)) :
    Agrees store { s with store := store.deleteVersion s.store category id version } := by
  have hkeeps := h.rawIds_rawDelete s.store ⟨category, id, some version⟩ version
  constructor
  · intro category' ids hlookup
    refine (hs.ids category' ids hlookup).trans ?_
    by_cases hc : category' = category
    · subst hc
      have hcached : s.idCache.lookup category' ≠ none := by
        rw [hlookup]
        exact Option.some_ne_none _
      exact (BasePersistenceStore.ids_eq_of_stays hkeeps (hok hcached) category').symm
    · exact (BasePersistenceStore.ids_eq_of_ne hkeeps hc).symm
  · intro category' id' v hlookup
    exact (hs.values category' id' v hlookup).trans
      (h.get_deleteVersion s.store category id version category' id').symm

/-- A call that keeps the caches in agreement is answered as the store alone answers it. -/
theorem component_eq (r : Request C I T V) (hok : KeepsAgreement store s r) :
    (component store s r).1 = (store.component s.store r).1 ∧
      (component store s r).2.store = (store.component s.store r).2 ∧
        Agrees store (component store s r).2 := by
  cases r with
  | ids category =>
    obtain ⟨hanswer, hstore, hagrees⟩ := hs.ids_eq category
    exact ⟨congrArg Response.ids hanswer, hstore, hagrees⟩
  | get category id =>
    obtain ⟨hanswer, hstore, hagrees⟩ := hs.get_eq category id
    exact ⟨congrArg Response.value hanswer, hstore, hagrees⟩
  | versions category id => exact ⟨rfl, rfl, hs⟩
  | getVersion category id version => exact ⟨rfl, rfl, hs⟩
  | getVersions category list => exact ⟨rfl, rfl, hs⟩
  | store category id v => exact ⟨rfl, rfl, hs.storeCurrent h hok⟩
  | storeVersion category id v version => exact ⟨rfl, rfl, hs.storeVersion h hok⟩
  | deleteCurrent category id => exact ⟨rfl, rfl, hs.deleteCurrent h hok⟩
  | deleteVersion category id version => exact ⟨rfl, rfl, hs.deleteVersion h hok⟩
  | deleteAll category id => exact ⟨rfl, rfl, hs.deleteAll h⟩

end Agrees

/-- As long as every call keeps the caches in agreement with the store, whatever it held at
first, every result is that of the store alone. -/
theorem answers_eq_of_keepsAgreement (h : store.Lawful) (content : σ)
    (requests : List (Request C I T V))
    (hok : (component store).Along (KeepsAgreement store) (opened content) requests) :
    (component store).answers (opened content) requests =
      store.component.answers content requests := by
  apply Component.answers_eq_of_along
    (R := fun s t => s.store = t ∧ Agrees store s) _ _ ⟨rfl, agrees_opened content⟩ hok
  · rintro s _ r ⟨rfl, hs⟩ hr
    exact (hs.component_eq h r hr).1
  · rintro s _ r ⟨rfl, hs⟩ hr
    exact (hs.component_eq h r hr).2

namespace ColdCache

/-- Versioned strings, all of the same version. -/
def ir : IdResolver String ℕ String String where
  hasVersions _ := true
  version _ := 0
  marshal v := v
  unmarshal _ s := s

/-- A store that holds one app. -/
def content : InMemoryPersistenceStore.Entries String String ℕ String :=
  AList.singleton ⟨"apps", "_a", none⟩ "a"

theorem warm_answers_eq :
    (component (inMemoryPersistenceStore ir)).answers (opened content)
        [.ids "apps", .store "apps" "_b" "b", .ids "apps", .deleteAll "apps" "_a", .ids "apps"] =
      (inMemoryPersistenceStore ir).component.answers content
        [.ids "apps", .store "apps" "_b" "b", .ids "apps", .deleteAll "apps" "_a", .ids "apps"] :=
  answers_eq_of_keepsAgreement (InMemoryPersistenceStore.lawful ir) content _
    ⟨trivial, ⟨by decide, by decide⟩, trivial, trivial, trivial, trivial⟩

/-- The first write puts its id alone into the cache, and the app that was there before is no
longer listed. -/
theorem not_forall_answers_eq :
    ¬∀ (content : InMemoryPersistenceStore.Entries String String ℕ String)
      (requests : List (Request String String ℕ String)),
      (component (inMemoryPersistenceStore ir)).answers (opened content) requests =
        (inMemoryPersistenceStore ir).component.answers content requests := by
  intro h
  have hids := h content [.store "apps" "_b" "b", .ids "apps"]
  revert hids
  decide

end ColdCache

end LazyCachingPersistenceStore

end Marathon.Storage
