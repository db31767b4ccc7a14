import Marathon.Storage.PersistenceStore

/-!
# The store in memory

One flat map of entries, as it is used in tests.
-/

namespace Marathon.Storage

open Lib

namespace InMemoryPersistenceStore

variable {C I T V S : Type*} [DecidableEq C] [DecidableEq I] [DecidableEq T]

abbrev Entries (C I T S : Type*) := Dict (StorageId C I T) S

/-- An id is listed even if it has versions only. -/
def rawIds (entries : Entries C I T S) (category : C) : Finset I :=
  ((entries.keys.filter fun k => k.category = category).map StorageId.id).toFinset

def rawVersions (entries : Entries C I T S) (id : StorageId C I T) : Finset T :=
  (entries.keys.filterMap fun k =>
    if k.category = id.category ∧ k.id = id.id then k.version else none).toFinset

def rawGet (entries : Entries C I T S) (k : StorageId C I T) : Option S := entries.lookup k

def rawStore (entries : Entries C I T S) (k : StorageId C I T) (v : S) : Entries C I T S :=
  entries.insert k v

def rawDelete (entries : Entries C I T S) (k : StorageId C I T) (version : T) :
    Entries C I T S :=
  entries.erase { k with version := some version }

def rawDeleteCurrent (entries : Entries C I T S) (k : StorageId C I T) : Entries C I T S :=
  entries.erase k

def rawDeleteAll (entries : Entries C I T S) (k : StorageId C I T) : Entries C I T S :=
  entries.eraseAll (entries.keys.filter fun id => k.category = id.category ∧ k.id = id.id)

/-- Ids that have versions only have no key here. -/
def allKeys (entries : Entries C I T S) : List (StorageId C I T) :=
  entries.keys.filter fun k => k.version = none

end InMemoryPersistenceStore

section

variable {C I T V S : Type*} [DecidableEq C] [DecidableEq I] [DecidableEq T]

open InMemoryPersistenceStore in
/-- The store in memory as a persistence store. -/
def inMemoryPersistenceStore (ir : IdResolver C T V S) :
    BasePersistenceStore (Entries C I T S) C I T V S where
  rawIds := rawIds
  rawVersions := rawVersions
  rawGet := rawGet
  rawStore := rawStore
  rawDelete := rawDelete
  rawDeleteCurrent := rawDeleteCurrent
  rawDeleteAll := rawDeleteAll
  allKeys := allKeys
  ir := ir

end

namespace InMemoryPersistenceStore

variable {C I T V S : Type*} [DecidableEq C] [DecidableEq I] [DecidableEq T]
  {entries : Entries C I T S}

theorem mem_rawIds {category : C} {id : I} :
    id ∈ rawIds entries category ↔
      ∃ version, (rawGet entries ⟨category, id, version⟩).isSome := by
  simp only [rawIds, List.mem_toFinset, List.mem_map, List.mem_filter, decide_eq_true_eq, rawGet,
    AList.lookup_isSome]
  constructor
  · rintro ⟨⟨c, i, version⟩, ⟨hmem, rfl⟩, rfl⟩
    exact ⟨version, hmem⟩
  · rintro ⟨version, hmem⟩
    exact ⟨_, ⟨hmem, rfl⟩, rfl⟩

theorem mem_rawVersions {k : StorageId C I T} {version : T} :
    version ∈ rawVersions entries k ↔
      (rawGet entries ⟨k.category, k.id, some version⟩).isSome := by
  simp only [rawVersions, List.mem_toFinset, List.mem_filterMap, rawGet, AList.lookup_isSome]
  constructor
  · rintro ⟨⟨c, i, v⟩, hmem, h⟩
    obtain ⟨⟨rfl, rfl⟩, rfl⟩ := Option.ite_none_right_eq_some.mp h
    exact hmem
  · intro hmem
    exact ⟨_, hmem, if_pos ⟨rfl, rfl⟩⟩

theorem rawGet_rawStore (k k' : StorageId C I T) (v : S) :
    rawGet (rawStore entries k v) k' = if k' = k then some v else rawGet entries k' := by
  rw [rawGet, rawStore, rawGet]
  split_ifs with h
  · rw [h, AList.lookup_insert]
  · rw [AList.lookup_insert_ne h]

theorem rawGet_erase (k k' : StorageId C I T) :
    rawGet (entries.erase k) k' = if k' = k then none else rawGet entries k' := by
  rw [rawGet, rawGet]
  split_ifs with h
  · rw [h, AList.lookup_erase]
  · rw [AList.lookup_erase_ne h]

theorem rawGet_rawDelete (entries : Entries C I T S) (k k' : StorageId C I T) (version : T) :
    rawGet (rawDelete entries k version) k' =
      if k' = { k with version := some version } then none else rawGet entries k' :=
  rawGet_erase _ k'

theorem rawGet_rawDeleteCurrent (k k' : StorageId C I T) :
    rawGet (rawDeleteCurrent entries k) k' = if k' = k then none else rawGet entries k' :=
  rawGet_erase k k'

theorem rawGet_rawDeleteAll (entries : Entries C I T S) (k k' : StorageId C I T) :
    rawGet (rawDeleteAll entries k) k' =
      if k'.category = k.category ∧ k'.id = k.id then none else rawGet entries k' := by
  rw [rawGet, rawDeleteAll, Dict.lookup_eraseAll, rawGet]
  by_cases h : k'.category = k.category ∧ k'.id = k.id
  · rw [if_pos h]
    split_ifs with hkeys
    · rfl
    · rw [AList.lookup_eq_none]
      intro hmem
      apply hkeys
      rw [List.mem_filter, decide_eq_true_eq]
      exact ⟨hmem, h.1.symm, h.2.symm⟩
  · rw [if_neg h, if_neg]
    intro hkeys
    rw [List.mem_filter, decide_eq_true_eq] at hkeys
    exact h ⟨hkeys.2.1.symm, hkeys.2.2.symm⟩

theorem rawIds_rawStore (k : StorageId C I T) (v : S) (category : C) :
    rawIds (rawStore entries k v) category =
      if category = k.category then insert k.id (rawIds entries category)
      else rawIds entries category := by
  obtain ⟨c, i, version⟩ := k
  ext id
  rw [mem_rawIds]
  simp only [rawGet_rawStore, StorageId.mk.injEq]
  split_ifs with hc
  · rw [Finset.mem_insert, mem_rawIds]
    constructor
    · rintro ⟨version', h⟩
      split_ifs at h with hk
      · exact .inl hk.2.1
      · exact .inr ⟨version', h⟩
    · rintro (rfl | ⟨version', h⟩)
      · exact ⟨version, by rw [if_pos ⟨hc, rfl, rfl⟩]; rfl⟩
      · refine ⟨version', ?_⟩
        split_ifs
        · rfl
        · exact h
  · simp only [hc, false_and, if_false, mem_rawIds]

theorem rawIds_rawDeleteAll (k : StorageId C I T) (category : C) :
    rawIds (rawDeleteAll entries k) category =
      if category = k.category then (rawIds entries category).erase k.id
      else rawIds entries category := by
  ext id
  rw [mem_rawIds]
  simp only [rawGet_rawDeleteAll]
  by_cases hc : category = k.category
  · rw [if_pos hc, Finset.mem_erase, mem_rawIds]
    by_cases hid : id = k.id
    · have hgone : ∀ version : Option T, ¬(if category = k.category ∧ id = k.id then none
          else rawGet entries ⟨category, id, version⟩).isSome := by
        intro version
        rw [if_pos ⟨hc, hid⟩]
        exact Bool.false_ne_true
      exact iff_of_false (fun ⟨version, h⟩ => hgone version h) fun h => h.1 hid
    · simp only [hc, hid, and_false, if_false, ne_eq, not_false_eq_true, true_and]
  · simp only [hc, false_and, if_false, mem_rawIds]

theorem keepsOthers_erase (ir : IdResolver C T V S) {k k' : StorageId C I T}
    (h : k'.category = k.category ∧ k'.id = k.id) :
    (inMemoryPersistenceStore ir).KeepsOthers k entries (entries.erase k') := by
  intro category
  constructor
  · intro id hid
    obtain ⟨version, hsome⟩ := mem_rawIds.mp hid
    rw [rawGet_erase] at hsome
    apply mem_rawIds.mpr
    split_ifs at hsome
    · cases hsome
    · exact ⟨version, hsome⟩
  · intro id hid hne
    obtain ⟨version, hsome⟩ := mem_rawIds.mp hid
    apply mem_rawIds.mpr
    refine ⟨version, ?_⟩
    rw [rawGet_erase, if_neg]
    · exact hsome
    · rintro rfl
      exact hne (Prod.ext h.1 h.2)

theorem lawful (ir : IdResolver C T V S) : (inMemoryPersistenceStore (I := I) ir).Lawful where
  rawIds_rawStore entries k v category := rawIds_rawStore k v category
  rawIds_rawDelete entries k version := keepsOthers_erase ir ⟨rfl, rfl⟩
  rawIds_rawDeleteCurrent entries k := keepsOthers_erase ir ⟨rfl, rfl⟩
  rawIds_rawDeleteAll entries k category := rawIds_rawDeleteAll k category
  rawGet_rawStore entries k v c i h := (rawGet_rawStore k _ v).trans (if_neg h)
  rawGet_rawDelete entries k version c i := by
    apply (rawGet_rawDelete entries k _ version).trans
    apply if_neg
    intro h
    cases congrArg StorageId.version h
  rawGet_rawDeleteCurrent entries c i c' i' := by
    apply (rawGet_rawDeleteCurrent _ _).trans
    simp only [StorageId.mk.injEq, and_true]
    rfl
  rawGet_rawDeleteAll entries k c i := rawGet_rawDeleteAll entries k _
  mem_rawIds_of_rawGet entries k v h := by
    apply mem_rawIds.mpr
    exact ⟨k.version, Option.isSome_iff_exists.mpr ⟨v, h⟩⟩
  mem_allKeys_of_rawGet entries c i v h := by
    apply List.mem_filter.mpr
    exact ⟨AList.lookup_isSome.mp (Option.isSome_iff_exists.mpr ⟨v, h⟩), decide_eq_true rfl⟩
  mem_rawIds_of_allKeys entries k h := by
    obtain ⟨hmem, hversion⟩ := List.mem_filter.mp h
    refine ⟨of_decide_eq_true hversion, mem_rawIds.mpr ⟨k.version, ?_⟩⟩
    exact AList.lookup_isSome.mpr hmem

theorem lawfulVersions (ir : IdResolver C T V S) :
    (inMemoryPersistenceStore (I := I) ir).LawfulVersions where
  mem_rawVersions _ _ _ _ := mem_rawVersions
  version_rawStore entries k v c i t hne := (rawGet_rawStore k _ v).trans (if_neg hne)
  version_rawDelete entries c i t c' i' t' := by
    have hget := rawGet_rawDelete entries ⟨c, i, some t⟩ ⟨c', i', some t'⟩ t
    split_ifs at hget with hk
    · cases hk
      exact .inr ⟨⟨rfl, rfl⟩, hget⟩
    · exact .inl hget
  version_rawDeleteCurrent entries c i c' i' t' := by
    apply (rawGet_rawDeleteCurrent _ _).trans
    apply if_neg
    intro heq
    cases congrArg StorageId.version heq
  version_rawDeleteAll entries c i c' i' t' := rawGet_rawDeleteAll entries _ _

end InMemoryPersistenceStore

end Marathon.Storage
