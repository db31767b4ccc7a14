import Marathon.Lib.Component
import Marathon.Lib.Dict
import Mathlib.Data.Finset.Image

/-!
# Persistence stores

What all stores share: values are marshalled and kept under storage ids, the current value
of an id under the id alone and its versions under the id and a version. Ids are storage
ids here, since the resolvers translate one into the other without loss.
-/

namespace Marathon.Storage

open Lib

/-- The key of an entry, `RamId` and `ZkId` of the two stores. -/
structure StorageId (C I T : Type*) where
  category : C
  id : I
  version : Option T
deriving DecidableEq

/-- How the values of a category are stored. -/
structure IdResolver (C T V S : Type*) where
  hasVersions : C → Bool
  version : V → T
  marshal : V → S
  unmarshal : C → S → V

/-- A call to a persistence store. -/
inductive Request (C I T V : Type*)
  | ids (category : C)
  | versions (category : C) (id : I)
  | get (category : C) (id : I)
  | getVersion (category : C) (id : I) (version : T)
  | getVersions (category : C) (list : List (I × T))
  | store (category : C) (id : I) (v : V)
  | storeVersion (category : C) (id : I) (v : V) (version : T)
  | deleteCurrent (category : C) (id : I)
  | deleteVersion (category : C) (id : I) (version : T)
  | deleteAll (category : C) (id : I)

/-- The id that a request is about, if it is about one only. -/
def Request.key {C I T V : Type*} : Request C I T V → Option (C × I)
  | .ids _ => none
  | .getVersions _ _ => none
  | .versions category id => some (category, id)
  | .get category id => some (category, id)
  | .getVersion category id _ => some (category, id)
  | .store category id _ => some (category, id)
  | .storeVersion category id _ _ => some (category, id)
  | .deleteCurrent category id => some (category, id)
  | .deleteVersion category id _ => some (category, id)
  | .deleteAll category id => some (category, id)

def Request.isDelete {C I T V : Type*} : Request C I T V → Bool
  | .deleteCurrent _ _ => true
  | .deleteVersion _ _ _ => true
  | .deleteAll _ _ => true
  | _ => false

/-- Whether a request changes what is stored. -/
def Request.writes {C I T V : Type*} : Request C I T V → Bool
  | .store _ _ _ => true
  | .storeVersion _ _ _ _ => true
  | r => r.isDelete

/-- What a completed call returns; ids and versions are sets. -/
inductive Response (I T V : Type*)
  | ids (ids : Finset I)
  | versions (versions : Finset T)
  | value (v : Option V)
  | values (list : List V)
  | done
deriving DecidableEq

/-- The operations on serialized values that a store implements, and its resolver. -/
structure BasePersistenceStore (σ C I T V S : Type*) where
  rawIds : σ → C → Finset I
  rawVersions : σ → StorageId C I T → Finset T
  rawGet : σ → StorageId C I T → Option S
  rawStore : σ → StorageId C I T → S → σ
  rawDelete : σ → StorageId C I T → T → σ
  rawDeleteCurrent : σ → StorageId C I T → σ
  rawDeleteAll : σ → StorageId C I T → σ
  /-- The keys without version, from which caches are loaded. -/
  allKeys : σ → List (StorageId C I T)
  ir : IdResolver C T V S

namespace BasePersistenceStore

variable {σ C I T V S : Type*} (store : BasePersistenceStore σ C I T V S) (s : σ) (category : C)
  (id : I) (version : T)

def ids : Finset I := store.rawIds s category

def versions : Finset T := store.rawVersions s ⟨category, id, none⟩

def get : Option V := (store.rawGet s ⟨category, id, none⟩).map (store.ir.unmarshal category)

def getVersion : Option V :=
  (store.rawGet s ⟨category, id, some version⟩).map (store.ir.unmarshal category)

/-- Versions that are missing are left out. -/
def getVersions (list : List (I × T)) : List V :=
  list.filterMap fun e => store.getVersion s category e.1 e.2

/-- The current value, and for versioned values the version of its own as well. -/
def storeCurrent (v : V) : σ :=
  let serialized := store.ir.marshal v
  let s := store.rawStore s ⟨category, id, none⟩ serialized
  if store.ir.hasVersions category then
    store.rawStore s ⟨category, id, some (store.ir.version v)⟩ serialized
  else
    s

/-- `store` at a version, which leaves the current value alone; without versions nothing
is stored. -/
def storeVersion (v : V) : σ :=
  if store.ir.hasVersions category then
    store.rawStore s ⟨category, id, some version⟩ (store.ir.marshal v)
  else
    s

def deleteCurrent : σ := store.rawDeleteCurrent s ⟨category, id, none⟩

def deleteVersion : σ := store.rawDelete s ⟨category, id, some version⟩ version

def deleteAll : σ := store.rawDeleteAll s ⟨category, id, none⟩

/-- The store on its own, each call completed before the next one. -/
def component : Component σ (Request C I T V) (Response I T V)
  | s, .ids category => (.ids (store.ids s category), s)
  | s, .versions category id => (.versions (store.versions s category id), s)
  | s, .get category id => (.value (store.get s category id), s)
  | s, .getVersion category id version => (.value (store.getVersion s category id version), s)
  | s, .getVersions category list => (.values (store.getVersions s category list), s)
  | s, .store category id v => (.done, store.storeCurrent s category id v)
  | s, .storeVersion category id v version => (.done, store.storeVersion s category id version v)
  | s, .deleteCurrent category id => (.done, store.deleteCurrent s category id)
  | s, .deleteVersion category id version => (.done, store.deleteVersion s category id version)
  | s, .deleteAll category id => (.done, store.deleteAll s category id)

/-- The ids that stay when something of `k` is deleted: all others, and none is new. -/
def KeepsOthers (k : StorageId C I T) (s s' : σ) : Prop :=
  ∀ category, store.rawIds s' category ⊆ store.rawIds s category ∧
    ∀ id ∈ store.rawIds s category, (category, id) ≠ (k.category, k.id) →
      id ∈ store.rawIds s' category

/-- What the raw operations do to the ids of a store and to the current values that they
are not about. Whether an id stays when its values are deleted is left to the store. -/
structure Lawful [DecidableEq C] [DecidableEq I] : Prop where
  rawIds_rawStore : ∀ s k v category, store.rawIds (store.rawStore s k v) category =
    if category = k.category then insert k.id (store.rawIds s category)
    else store.rawIds s category
  rawIds_rawDelete : ∀ s k version, store.KeepsOthers k s (store.rawDelete s k version)
  rawIds_rawDeleteCurrent : ∀ s k, store.KeepsOthers k s (store.rawDeleteCurrent s k)
  rawIds_rawDeleteAll : ∀ s k category, store.rawIds (store.rawDeleteAll s k) category =
    if category = k.category then (store.rawIds s category).erase k.id
    else store.rawIds s category
  rawGet_rawStore : ∀ s k v c i, (⟨c, i, none⟩ : StorageId C I T) ≠ k →
    store.rawGet (store.rawStore s k v) ⟨c, i, none⟩ = store.rawGet s ⟨c, i, none⟩
  rawGet_rawDelete : ∀ s k version c i,
    store.rawGet (store.rawDelete s k version) ⟨c, i, none⟩ = store.rawGet s ⟨c, i, none⟩
  rawGet_rawDeleteCurrent : ∀ s c i c' i',
    store.rawGet (store.rawDeleteCurrent s ⟨c, i, none⟩) ⟨c', i', none⟩ =
      if c' = c ∧ i' = i then none else store.rawGet s ⟨c', i', none⟩
  rawGet_rawDeleteAll : ∀ s k c i,
    store.rawGet (store.rawDeleteAll s k) ⟨c, i, none⟩ =
      if c = k.category ∧ i = k.id then none else store.rawGet s ⟨c, i, none⟩
  mem_rawIds_of_rawGet : ∀ s k v, store.rawGet s k = some v → k.id ∈ store.rawIds s k.category
  mem_allKeys_of_rawGet : ∀ s c i v, store.rawGet s ⟨c, i, none⟩ = some v →
    ⟨c, i, none⟩ ∈ store.allKeys s
  mem_rawIds_of_allKeys : ∀ s k, k ∈ store.allKeys s →
    k.version = none ∧ k.id ∈ store.rawIds s k.category

/-! ## Ids after deletions -/

section KeepsOthers

variable {store} {s} {s' : σ} {k : StorageId C I T} (hk : store.KeepsOthers k s s')

include hk

theorem ids_eq_of_ne {category : C} (hc : category ≠ k.category) :
    store.ids s' category = store.ids s category := by
  apply (hk category).1.antisymm
  intro id hid
  exact (hk category).2 id hid fun heq => hc (Prod.ext_iff.mp heq).1

theorem ids_eq_of_stays (hstays : k.id ∈ store.ids s k.category → k.id ∈ store.ids s' k.category)
    (category : C) : store.ids s' category = store.ids s category := by
  apply (hk category).1.antisymm
  intro id hid
  by_cases heq : (category, id) = (k.category, k.id)
  · obtain ⟨rfl, rfl⟩ := Prod.ext_iff.mp heq
    exact hstays hid
  · exact (hk category).2 id hid heq

theorem ids_eq_erase [DecidableEq I] (hgone : k.id ∉ store.ids s' k.category) :
    store.ids s' k.category = (store.ids s k.category).erase k.id := by
  ext id
  rw [Finset.mem_erase]
  constructor
  · intro hid
    refine ⟨?_, (hk k.category).1 hid⟩
    rintro rfl
    exact hgone hid
  · rintro ⟨hne, hid⟩
    exact (hk k.category).2 id hid fun heq => hne (Prod.ext_iff.mp heq).2

end KeepsOthers

/-! ## Ids and current values after an operation -/

variable {store} [DecidableEq C] [DecidableEq I]

namespace Lawful

variable (h : store.Lawful)

include h

theorem ids_storeCurrent (v : V) (category' : C) :
    store.ids (store.storeCurrent s category id v) category' =
      if category' = category then insert id (store.ids s category')
      else store.ids s category' := by
  simp only [ids, storeCurrent]
  split_ifs with hversions hc hc
  all_goals
    simp only [h.rawIds_rawStore, hc, if_true, if_false, Finset.insert_idem]

theorem ids_storeVersion (v : V) (category' : C) :
    store.ids (store.storeVersion s category id version v) category' =
      if category' = category ∧ store.ir.hasVersions category then
        insert id (store.ids s category')
      else store.ids s category' := by
  simp only [ids, storeVersion]
  by_cases hversions : store.ir.hasVersions category
  · simp only [hversions, if_true, and_true, h.rawIds_rawStore]
  · rw [if_neg hversions, if_neg fun h => hversions h.2]

theorem ids_deleteAll (category' : C) :
    store.ids (store.deleteAll s category id) category' =
      if category' = category then (store.ids s category').erase id
      else store.ids s category' :=
  h.rawIds_rawDeleteAll s _ category'

theorem get_storeCurrent_of_ne {category' : C} {id' : I}
    (hne : ¬(category' = category ∧ id' = id)) (v : V) :
    store.get (store.storeCurrent s category id v) category' id' =
      store.get s category' id' := by
  have hcurrent : (⟨category', id', none⟩ : StorageId C I T) ≠ ⟨category, id, none⟩ := by
    intro heq
    exact hne ⟨congrArg StorageId.category heq, congrArg StorageId.id heq⟩
  have hversion : ∀ version, (⟨category', id', none⟩ : StorageId C I T) ≠
      ⟨category, id, some version⟩ := by
    intro version heq
    cases congrArg StorageId.version heq
  simp only [get, storeCurrent]
  split_ifs
  · rw [h.rawGet_rawStore _ _ _ _ _ (hversion _), h.rawGet_rawStore _ _ _ _ _ hcurrent]
  · rw [h.rawGet_rawStore _ _ _ _ _ hcurrent]

theorem get_storeVersion (v : V) (category' : C) (id' : I) :
    store.get (store.storeVersion s category id version v) category' id' =
      store.get s category' id' := by
  have hversion : (⟨category', id', none⟩ : StorageId C I T) ≠ ⟨category, id, some version⟩ := by
    intro heq
    cases congrArg StorageId.version heq
  simp only [get, storeVersion]
  split_ifs
  · rw [h.rawGet_rawStore _ _ _ _ _ hversion]
  · rfl

theorem get_deleteVersion (category' : C) (id' : I) :
    store.get (store.deleteVersion s category id version) category' id' =
      store.get s category' id' := by
  rw [get, deleteVersion, h.rawGet_rawDelete, get]

theorem get_deleteCurrent (category' : C) (id' : I) :
    store.get (store.deleteCurrent s category id) category' id' =
      if category' = category ∧ id' = id then none else store.get s category' id' := by
  rw [get, deleteCurrent, h.rawGet_rawDeleteCurrent]
  split_ifs <;> rfl

theorem get_deleteAll (category' : C) (id' : I) :
    store.get (store.deleteAll s category id) category' id' =
      if category' = category ∧ id' = id then none else store.get s category' id' := by
  rw [get, deleteAll, h.rawGet_rawDeleteAll]
  split_ifs <;> rfl

end Lawful

/-! ## Versions after an operation -/

/-- The versions of an id are those that are found, and the raw operations leave those alone
that they are not about. -/
structure LawfulVersions (store : BasePersistenceStore σ C I T V S) : Prop where
  mem_rawVersions : ∀ s c i t,
    t ∈ store.rawVersions s ⟨c, i, none⟩ ↔ (store.rawGet s ⟨c, i, some t⟩).isSome
  version_rawStore : ∀ s k v c i t, (⟨c, i, some t⟩ : StorageId C I T) ≠ k →
    store.rawGet (store.rawStore s k v) ⟨c, i, some t⟩ = store.rawGet s ⟨c, i, some t⟩
  version_rawDelete : ∀ s c i t c' i' t', store.rawGet (store.rawDelete s ⟨c, i, some t⟩ t)
    ⟨c', i', some t'⟩ = store.rawGet s ⟨c', i', some t'⟩ ∨
      (c' = c ∧ i' = i) ∧ store.rawGet (store.rawDelete s ⟨c, i, some t⟩ t) ⟨c', i', some t'⟩ = none
  version_rawDeleteCurrent : ∀ s c i c' i' t',
    store.rawGet (store.rawDeleteCurrent s ⟨c, i, none⟩) ⟨c', i', some t'⟩ =
      store.rawGet s ⟨c', i', some t'⟩
  version_rawDeleteAll : ∀ s c i c' i' t',
    store.rawGet (store.rawDeleteAll s ⟨c, i, none⟩) ⟨c', i', some t'⟩ =
      if c' = c ∧ i' = i then none else store.rawGet s ⟨c', i', some t'⟩

namespace LawfulVersions

variable (h : store.LawfulVersions) {s : σ} {category category' : C} {id id' : I}
  {version version' : T}

include h

theorem mem_versions :
    version ∈ store.versions s category id ↔ (store.getVersion s category id version).isSome := by
  rw [versions, h.mem_rawVersions, getVersion, Option.isSome_map]

theorem versions_eq {s' : σ} (hget : ∀ version,
    store.getVersion s' category id version = store.getVersion s category id version) :
    store.versions s' category id = store.versions s category id := by
  ext version
  rw [h.mem_versions, h.mem_versions, hget]

theorem getVersion_storeCurrent {v : V}
    (hne : (store.ir.hasVersions category → version' ≠ store.ir.version v) ∨
      (category', id') ≠ (category, id)) :
    store.getVersion (store.storeCurrent s category id v) category' id' version' =
      store.getVersion s category' id' version' := by
  have hcurrent : (⟨category', id', some version'⟩ : StorageId C I T) ≠ ⟨category, id, none⟩ := by
    intro heq
    cases congrArg StorageId.version heq
  simp only [getVersion, storeCurrent]
  split_ifs with hversions
  · have hother : (⟨category', id', some version'⟩ : StorageId C I T) ≠
        ⟨category, id, some (store.ir.version v)⟩ := by
      intro heq
      obtain ⟨rfl, rfl, hversion⟩ := StorageId.mk.inj heq
      exact hne.elim (fun hne => hne hversions (Option.some.inj hversion)) fun hne => hne rfl
    rw [h.version_rawStore _ _ _ _ _ _ hother, h.version_rawStore _ _ _ _ _ _ hcurrent]
  · rw [h.version_rawStore _ _ _ _ _ _ hcurrent]

theorem getVersion_storeVersion {v : V}
    (hne : version' ≠ version ∨ (category', id') ≠ (category, id)) :
    store.getVersion (store.storeVersion s category id version v) category' id' version' =
      store.getVersion s category' id' version' := by
  have hother : (⟨category', id', some version'⟩ : StorageId C I T) ≠
      ⟨category, id, some version⟩ := by
    intro heq
    obtain ⟨rfl, rfl, hversion⟩ := StorageId.mk.inj heq
    exact hne.elim (fun hne => hne (Option.some.inj hversion)) fun hne => hne rfl
  simp only [getVersion, storeVersion]
  split_ifs
  · rw [h.version_rawStore _ _ _ _ _ _ hother]
  · rfl

theorem getVersion_delete {r : Request C I T V} (hr : r.isDelete) :
    store.getVersion (store.component s r).2 category id version =
        store.getVersion s category id version ∨
      r.key = some (category, id) ∧
        store.getVersion (store.component s r).2 category id version = none := by
  cases r with
  | deleteCurrent c i =>
    exact .inl (congrArg _ (h.version_rawDeleteCurrent s c i category id version))
  | deleteVersion c i t =>
    rcases h.version_rawDelete s c i t category id version with hsame | ⟨⟨rfl, rfl⟩, hgone⟩
    · exact .inl (congrArg _ hsame)
    · exact .inr ⟨rfl, congrArg _ hgone⟩
  | deleteAll c i =>
    have hall := h.version_rawDeleteAll s c i category id version
    split_ifs at hall with hk
    · obtain ⟨rfl, rfl⟩ := hk
      exact .inr ⟨rfl, congrArg _ hall⟩
    · exact .inl (congrArg _ hall)
  | _ => cases hr

theorem getVersion_component_of_ne {r : Request C I T V} (hne : r.key ≠ some (category, id)) :
    store.getVersion (store.component s r).2 category id version =
      store.getVersion s category id version := by
  have hkey : ∀ {c i}, some (c, i) ≠ some (category, id) → (category, id) ≠ (c, i) :=
    fun hne heq => hne (congrArg some heq.symm)
  by_cases hdelete : r.isDelete
  · exact (h.getVersion_delete hdelete).resolve_right fun hk => hne hk.1
  · cases r with
    | store c i v => exact h.getVersion_storeCurrent (.inr (hkey hne))
    | storeVersion c i v t => exact h.getVersion_storeVersion (.inr (hkey hne))
    | deleteCurrent _ _ => exact absurd rfl hdelete
    | deleteVersion _ _ _ => exact absurd rfl hdelete
    | deleteAll _ _ => exact absurd rfl hdelete
    | ids _ => rfl
    | versions _ _ => rfl
    | get _ _ => rfl
    | getVersion _ _ _ => rfl
    | getVersions _ _ => rfl

end LawfulVersions

end BasePersistenceStore

end Marathon.Storage
