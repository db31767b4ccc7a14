import Marathon.Storage.InMemoryPersistenceStore
import Marathon.Storage.ZkPersistenceStore

/-!
# The two stores give the same answers

From no entries at all, the store in ZooKeeper and the one in memory are asked the same
requests. They hold the same values at any time, but a node whose current value was
emptied, or that was created for a version, stays when its last value is deleted. Only
`deleteAll` removes it, and until then its id is listed.
-/

namespace Marathon.Storage

open Lib ZkPersistenceStore

variable {k : ZkId} {version : OffsetDateTime}

namespace StoreAgreement

section Agreement

variable {V : Type*}

/-- The values of the store in memory are kept as they are. -/
def identity {C T S : Type*} (ir : IdResolver C T V S) : IdResolver C T V V where
  hasVersions := ir.hasVersions
  version := ir.version
  marshal v := v
  unmarshal _ v := v

abbrev Entries (V : Type*) :=
  InMemoryPersistenceStore.Entries NodeName NodeName OffsetDateTime V

variable (ir : IdResolver NodeName OffsetDateTime V Bytes)

/-- The serialized value is not empty and is read back as the value. -/
def Storable (category : NodeName) (v : V) : Prop :=
  ir.marshal v ≠ [] ∧ ir.unmarshal category (ir.marshal v) = v

/-- Versions have millisecond precision, and values can be stored. -/
def WellFormed : Request NodeName NodeName OffsetDateTime V → Prop
  | .getVersion _ _ version => IsMillis version
  | .getVersions _ list => ∀ e ∈ list, IsMillis e.2
  | .store category _ v =>
    Storable ir category v ∧ (ir.hasVersions category → IsMillis (ir.version v))
  | .storeVersion category _ v version => Storable ir category v ∧ IsMillis version
  | .deleteVersion _ _ version => IsMillis version
  | _ => True

/-- A node without data and without versions. -/
def LeftBehind (s : ZkNodes) (category id : NodeName) : Prop :=
  s.tree.data (ZkId.path ⟨category, id, none⟩) = some [] ∧
    s.tree.children (ZkId.path ⟨category, id, none⟩) = some []

/-- No node of a category is left behind when its ids are listed. -/
def NothingLeft (s : ZkNodes) : Request NodeName NodeName OffsetDateTime V → Prop
  | .ids category => ∀ id, ¬LeftBehind s category id
  | _ => True

/-- Keys of current values, and of versions with millisecond precision. -/
def Precise (k : ZkId) : Prop := ∀ version ∈ k.version, IsMillis version

theorem path_inj {k' : ZkId} (h : Precise k) (h' : Precise k') :
    ZkId.path k = ZkId.path k' ↔ k = k' := by
  constructor
  · intro heq
    obtain ⟨c, i, version⟩ := k
    obtain ⟨c', i', version'⟩ := k'
    obtain ⟨rfl, rfl, hversion⟩ := path_eq_iff.mp heq
    cases version with
    | none =>
      cases version' with
      | none => rfl
      | some version' => cases hversion
    | some version =>
      cases version' with
      | none => cases hversion
      | some version' =>
        have hname := Option.some.inj hversion
        obtain rfl := (versionName_inj (h version rfl) (h' version' rfl)).mp hname
        rfl
  · rintro rfl
    rfl

theorem precise_none {category id : NodeName} : Precise ⟨category, id, none⟩ := by
  intro version h
  cases h

theorem precise_some {category id : NodeName}
    (h : IsMillis version) : Precise ⟨category, id, some version⟩ := by
  intro version' hversion
  cases hversion
  exact h

/-- Both stores hold the same values, and the only nodes of versions are those of values. -/
structure Same (z : ZkNodes) (d : Entries V) : Prop where
  values : ∀ k, Precise k → rawGet z.tree k = (d.lookup k).map ir.marshal
  entries : ∀ k v, d.lookup k = some v → Precise k ∧ Storable ir k.category v
  versions : ∀ c i version, IsMillis version →
    ZkId.path ⟨c, i, some version⟩ ∈ z.tree.nodes → (d.lookup ⟨c, i, some version⟩).isSome

namespace Same

variable {ir} {z : ZkNodes} {d : Entries V}

theorem empty : Same ir noNodes (∅ : Entries V) where
  values k _ := by
    rw [rawGet_eq]
    have hnone : noNodes.tree.data (ZkId.path k) = none :=
      AList.lookup_eq_none.mpr fun h => path_ne_nil k (NodeTree.mem_rootOnly.mp h)
    rw [hnone]
    rfl
  entries _ _ h := by cases h
  versions _ _ _ _ h := absurd (NodeTree.mem_rootOnly.mp h) (path_ne_nil _)

variable (h : Same ir z d)

include h

theorem rawStore {v : V} (hk : Precise k) (hv : Storable ir k.category v) :
    Same ir ((zkPersistenceStore ir).rawStore z k (ir.marshal v)) (d.insert k v) where
  values k' hk' := by
    refine (rawGet_rawStore k k' (ir.marshal v)).trans ?_
    rw [if_congr (path_inj hk' hk) rfl rfl]
    split_ifs with heq
    · rw [heq, AList.lookup_insert, Option.map_some, Option.filter_some,
        if_pos (decide_eq_true hv.1)]
    · rw [AList.lookup_insert_ne heq, h.values k' hk']
  entries k' w hlookup := by
    rcases Dict.lookup_insert_eq_some.mp hlookup with ⟨rfl, rfl⟩ | ⟨-, hlookup⟩
    · exact ⟨hk, hv⟩
    · exact h.entries k' w hlookup
  versions c i version hmillis hmem := by
    by_cases heq : (⟨c, i, some version⟩ : ZkId) = k
    · rw [heq, AList.lookup_insert]
      rfl
    · rw [AList.lookup_insert_ne heq]
      apply h.versions c i version hmillis
      apply ((mem_nodes_rawStore z k _ _).mp hmem).resolve_left
      intro hsuffix
      exact heq ((path_inj (precise_some hmillis) hk).mp (eq_of_path_suffix hsuffix))

theorem rawDelete (hmillis : IsMillis version) :
    Same ir ((zkPersistenceStore ir).rawDelete z k version)
      (InMemoryPersistenceStore.rawDelete d k version) where
  values k' hk' := by
    refine (rawGet_rawDelete k k' z version).trans ?_
    rw [if_congr (path_inj hk' (precise_some hmillis)) rfl rfl, InMemoryPersistenceStore.rawDelete]
    split_ifs with heq
    · rw [heq, AList.lookup_erase, Option.map_none]
    · rw [AList.lookup_erase_ne heq, h.values k' hk']
  entries k' w hlookup := h.entries k' w (Dict.lookup_erase_eq_some.mp hlookup).2
  versions c i version' hmillis' hmem := by
    obtain ⟨hne, hold⟩ := (mem_nodes_rawDelete z k version _).mp hmem
    rw [InMemoryPersistenceStore.rawDelete, AList.lookup_erase_ne]
    · exact h.versions c i version' hmillis' hold
    · exact fun heq => hne (congrArg ZkId.path heq)

theorem rawDeleteCurrent (category id : NodeName) :
    Same ir ((zkPersistenceStore ir).rawDeleteCurrent z ⟨category, id, none⟩)
      (InMemoryPersistenceStore.rawDeleteCurrent d ⟨category, id, none⟩) where
  values k' hk' := by
    refine (rawGet_rawDeleteCurrent _ k').trans ?_
    rw [if_congr (path_inj hk' precise_none) rfl rfl, InMemoryPersistenceStore.rawDeleteCurrent]
    split_ifs with heq
    · rw [heq, AList.lookup_erase, Option.map_none]
    · rw [AList.lookup_erase_ne heq, h.values k' hk']
  entries k' w hlookup := h.entries k' w (Dict.lookup_erase_eq_some.mp hlookup).2
  versions c i version hmillis hmem := by
    have hold := (mem_nodes_rawDeleteCurrent z _ _).mp hmem
    rw [InMemoryPersistenceStore.rawDeleteCurrent, AList.lookup_erase_ne]
    · exact h.versions c i version hmillis hold
    · exact fun heq => Option.some_ne_none _ (congrArg StorageId.version heq)

theorem rawDeleteAll (k : ZkId) :
    Same ir ((zkPersistenceStore ir).rawDeleteAll z k)
      (InMemoryPersistenceStore.rawDeleteAll d k) where
  values k' hk' := by
    refine (ZkPersistenceStore.rawGet_rawDeleteAll k k').trans ?_
    have hlookup := InMemoryPersistenceStore.rawGet_rawDeleteAll d k k'
    rw [InMemoryPersistenceStore.rawGet] at hlookup
    rw [hlookup]
    split_ifs
    · rfl
    · exact h.values k' hk'
  entries k' w hlookup := by
    have hall := (InMemoryPersistenceStore.rawGet_rawDeleteAll d k k').symm.trans hlookup
    split_ifs at hall
    exact h.entries k' w hall
  versions c i version hmillis hmem := by
    obtain ⟨hne, hold⟩ := (mem_nodes_rawDeleteAll z k _).mp hmem
    have hlookup := InMemoryPersistenceStore.rawGet_rawDeleteAll d k ⟨c, i, some version⟩
    rw [InMemoryPersistenceStore.rawGet] at hlookup
    rw [hlookup, if_neg]
    · exact h.versions c i version hmillis hold
    · exact fun hid => hne (path_suffix_iff.mpr hid)

end Same

/-! ## Answers -/

namespace Same

variable {ir} {z : ZkNodes} {d : Entries V} (h : Same ir z d)

include h

theorem get_eq (hk : Precise k) : (rawGet z.tree k).map (ir.unmarshal k.category) = d.lookup k := by
  rw [h.values k hk]
  cases hlookup : d.lookup k with
  | none => rfl
  | some v =>
    obtain ⟨-, -, hback⟩ := h.entries k v hlookup
    rw [Option.map_some, Option.map_some, hback]

theorem mem_nodes_of_lookup (hsome : (d.lookup k).isSome) : ZkId.path k ∈ z.tree.nodes := by
  obtain ⟨v, hv⟩ := Option.isSome_iff_exists.mp hsome
  have hvalue := h.values k (h.entries k v hv).1
  rw [hv, rawGet_eq] at hvalue
  rw [NodeTree.mem_iff_data]
  exact Option.isSome_iff_exists.mpr ⟨_, (Option.filter_eq_some_iff.mp hvalue).1⟩

theorem versions_eq (k : ZkId) :
    ((rawVersions z.tree k).getD []).toFinset = InMemoryPersistenceStore.rawVersions d k := by
  obtain ⟨versions, hversions, hmem⟩ := rawVersions_spec z k
  ext version
  rw [hversions, Option.getD_some, List.mem_toFinset, hmem, InMemoryPersistenceStore.mem_rawVersions]
  constructor
  · rintro ⟨hmillis, hnode⟩
    exact h.versions k.category k.id version hmillis hnode
  · intro hsome
    obtain ⟨v, hv⟩ := Option.isSome_iff_exists.mp hsome
    exact ⟨(h.entries _ v hv).1 version rfl, h.mem_nodes_of_lookup hsome⟩

theorem leftBehind_iff (category id : NodeName) : LeftBehind z category id ↔
    id ∈ (rawIds z.tree category).toFinset ∧ id ∉ InMemoryPersistenceStore.rawIds d category := by
  rw [List.mem_toFinset, mem_rawIds, InMemoryPersistenceStore.mem_rawIds]
  constructor
  · rintro ⟨hdata, hchildren⟩
    obtain ⟨hnode, hleaf⟩ := NodeTree.children_eq_nil.mp hchildren
    refine ⟨hnode, ?_⟩
    rintro ⟨version, hsome⟩
    cases version with
    | none =>
      have hvalue := h.values ⟨category, id, none⟩ precise_none
      rw [rawGet_eq, hdata] at hvalue
      obtain ⟨v, hv⟩ := Option.isSome_iff_exists.mp hsome
      rw [InMemoryPersistenceStore.rawGet] at hv
      rw [hv] at hvalue
      cases hvalue
    | some version => exact hleaf _ (h.mem_nodes_of_lookup hsome)
  · rintro ⟨hnode, hnone⟩
    have hlookup : ∀ version, d.lookup ⟨category, id, version⟩ = none := by
      intro version
      by_contra hne
      exact hnone ⟨version, Option.isSome_iff_ne_none.mpr hne⟩
    constructor
    · obtain ⟨bytes, hbytes⟩ := Option.isSome_iff_exists.mp (NodeTree.mem_iff_data.mp hnode)
      have hvalue := h.values ⟨category, id, none⟩ precise_none
      rw [hlookup, Option.map_none, rawGet_eq, hbytes] at hvalue
      have hempty := (Option.filter_eq_none_iff.mp hvalue) bytes rfl
      rw [hbytes, of_not_not fun hne => hempty (decide_eq_true hne)]
    · apply NodeTree.children_eq_nil.mpr
      refine ⟨hnode, fun a ha => ?_⟩
      obtain ⟨-, v, rfl⟩ := z.storePath _ ha
      rw [← versionName_truncatedToMillis] at ha
      have hsome := h.versions category id v.truncatedToMillis
        (OffsetDateTime.truncatedToMillis_idem v) ha
      rw [hlookup] at hsome
      cases hsome

theorem ids_eq_iff (category : NodeName) :
    (rawIds z.tree category).toFinset = InMemoryPersistenceStore.rawIds d category ↔
      ∀ id, ¬LeftBehind z category id := by
  constructor
  · intro heq id hleft
    obtain ⟨hlisted, hnot⟩ := (h.leftBehind_iff category id).mp hleft
    exact hnot (heq ▸ hlisted)
  · intro hnone
    ext id
    constructor
    · intro hlisted
      exact of_not_not fun hnot => hnone id ((h.leftBehind_iff category id).mpr ⟨hlisted, hnot⟩)
    · intro hid
      obtain ⟨version, hsome⟩ := InMemoryPersistenceStore.mem_rawIds.mp hid
      rw [List.mem_toFinset, mem_rawIds]
      exact NodeTree.mem_of_suffix (h.mem_nodes_of_lookup hsome) (path_suffix_iff.mpr ⟨rfl, rfl⟩)

theorem answer_eq_iff {r : Request NodeName NodeName OffsetDateTime V} (hr : WellFormed ir r) :
    ((zkPersistenceStore ir).component z r).1 =
        ((inMemoryPersistenceStore (identity ir)).component d r).1 ↔ NothingLeft z r := by
  have hget : ∀ category id,
      (zkPersistenceStore ir).get z category id =
        (inMemoryPersistenceStore (identity ir)).get d category id := by
    intro category id
    exact (h.get_eq precise_none).trans Option.map_id'.symm
  have hversion : ∀ category id version, IsMillis version →
      (zkPersistenceStore ir).getVersion z category id version =
        (inMemoryPersistenceStore (identity ir)).getVersion d category id version := by
    intro category id version hmillis
    exact (h.get_eq (precise_some hmillis)).trans Option.map_id'.symm
  cases r with
  | ids category => exact Response.ids.injEq _ _ ▸ h.ids_eq_iff category
  | versions category id =>
    exact iff_of_true (congrArg Response.versions (h.versions_eq _)) trivial
  | get category id => exact iff_of_true (congrArg Response.value (hget category id)) trivial
  | getVersion category id version =>
    exact iff_of_true (congrArg Response.value (hversion category id version hr)) trivial
  | getVersions category list =>
    refine iff_of_true (congrArg Response.values ?_) trivial
    apply List.filterMap_congr
    intro e he
    exact hversion category e.1 e.2 (hr e he)
  | store _ _ _ => exact iff_of_true rfl trivial
  | storeVersion _ _ _ _ => exact iff_of_true rfl trivial
  | deleteCurrent _ _ => exact iff_of_true rfl trivial
  | deleteVersion _ _ _ => exact iff_of_true rfl trivial
  | deleteAll _ _ => exact iff_of_true rfl trivial

theorem next {r : Request NodeName NodeName OffsetDateTime V} (hr : WellFormed ir r) :
    Same ir ((zkPersistenceStore ir).component z r).2
      ((inMemoryPersistenceStore (identity ir)).component d r).2 := by
  cases r with
  | store category id v =>
    obtain ⟨hv, hmillis⟩ := hr
    have hcurrent := h.rawStore (k := ⟨category, id, none⟩) precise_none hv
    by_cases hversions : ir.hasVersions category
    · have hzk : (zkPersistenceStore ir).ir.hasVersions category := hversions
      have hmemory : (inMemoryPersistenceStore (I := NodeName) (identity ir)).ir.hasVersions
        category := hversions
      rw [BasePersistenceStore.component, BasePersistenceStore.component,
        BasePersistenceStore.storeCurrent, BasePersistenceStore.storeCurrent, if_pos hzk,
        if_pos hmemory]
      exact hcurrent.rawStore (precise_some (hmillis hversions)) hv
    · have hzk : ¬(zkPersistenceStore ir).ir.hasVersions category := hversions
      have hmemory : ¬(inMemoryPersistenceStore (I := NodeName) (identity ir)).ir.hasVersions
        category := hversions
      rw [BasePersistenceStore.component, BasePersistenceStore.component,
        BasePersistenceStore.storeCurrent, BasePersistenceStore.storeCurrent, if_neg hzk,
        if_neg hmemory]
      exact hcurrent
  | storeVersion category id v version =>
    by_cases hversions : ir.hasVersions category
    · have hzk : (zkPersistenceStore ir).ir.hasVersions category := hversions
      have hmemory : (inMemoryPersistenceStore (I := NodeName) (identity ir)).ir.hasVersions
        category := hversions
      rw [BasePersistenceStore.component, BasePersistenceStore.component,
        BasePersistenceStore.storeVersion, BasePersistenceStore.storeVersion, if_pos hzk,
        if_pos hmemory]
      exact h.rawStore (precise_some hr.2) hr.1
    · have hzk : ¬(zkPersistenceStore ir).ir.hasVersions category := hversions
      have hmemory : ¬(inMemoryPersistenceStore (I := NodeName) (identity ir)).ir.hasVersions
        category := hversions
      rw [BasePersistenceStore.component, BasePersistenceStore.component,
        BasePersistenceStore.storeVersion, BasePersistenceStore.storeVersion, if_neg hzk,
        if_neg hmemory]
      exact h
  | deleteCurrent category id => exact h.rawDeleteCurrent category id
  | deleteVersion category id version => exact h.rawDelete hr
  | deleteAll category id => exact h.rawDeleteAll _
  | ids _ => exact h
  | versions _ _ => exact h
  | get _ _ => exact h
  | getVersion _ _ _ => exact h
  | getVersions _ _ => exact h

end Same

/-- From no entries on, the two stores give the same answers exactly when ids are never listed
while a node of their category is left behind. -/
theorem answers_eq_iff_nothingLeft {requests : List (Request NodeName NodeName OffsetDateTime V)}
    (hrequests : ∀ r ∈ requests, WellFormed ir r) :
    (zkPersistenceStore ir).component.answers noNodes requests =
        (inMemoryPersistenceStore (identity ir)).component.answers ∅ requests ↔
      (zkPersistenceStore ir).component.Along NothingLeft noNodes requests := by
  apply Component.answers_eq_iff_along (R := Same ir) _ _ .empty hrequests
  · intro z d r h hr
    exact h.answer_eq_iff hr
  · intro z d r h hr
    exact h.next hr

end Agreement

namespace Emptied

def apps : NodeName := ⟨"apps", by decide, by decide⟩

def app : NodeName := ⟨"_a", by decide, by decide⟩

/-- Values of one byte, without versions. -/
def ir : IdResolver NodeName OffsetDateTime UInt8 Bytes where
  hasVersions _ := false
  version _ := ⟨0, 0, by decide⟩
  marshal v := [v]
  unmarshal _ bytes := bytes.headD 0

theorem wellFormed_store (v : UInt8) : WellFormed ir (.store apps app v) :=
  ⟨⟨List.cons_ne_nil _ _, rfl⟩, fun h => by cases h⟩

def requests : List (Request NodeName NodeName OffsetDateTime UInt8) :=
  [.store apps app 1, .deleteCurrent apps app, .ids apps]

theorem wellFormed_requests : ∀ r ∈ requests, WellFormed ir r := by
  intro r hr
  rcases List.mem_cons.mp hr with rfl | hr
  · exact wellFormed_store 1
  · rcases List.mem_cons.mp hr with rfl | hr
    · trivial
    · obtain rfl := List.mem_singleton.mp hr
      trivial

theorem answers_eq_iff :
    (zkPersistenceStore ir).component.answers noNodes requests =
        (inMemoryPersistenceStore (identity ir)).component.answers ∅ requests ↔
      (zkPersistenceStore ir).component.Along NothingLeft noNodes requests :=
  answers_eq_iff_nothingLeft ir wellFormed_requests

/-- The id of a deleted value is still listed by ZooKeeper. -/
theorem not_forall_same_answers :
    ¬∀ requests : List (Request NodeName NodeName OffsetDateTime UInt8),
      (∀ r ∈ requests, WellFormed ir r) →
        (zkPersistenceStore ir).component.answers noNodes requests =
          (inMemoryPersistenceStore (identity ir)).component.answers ∅ requests := by
  intro h
  have hids := h requests wellFormed_requests
  revert hids
  decide

end Emptied

end StoreAgreement

end Marathon.Storage
