import Marathon.Lib.Collections
import Marathon.Lib.HashCode
import Marathon.Lib.IsoDateTime
import Marathon.Lib.NodeTree
import Marathon.Storage.PersistenceStore

/-!
# The store in ZooKeeper

The entries are the nodes `/category/bucket/id` with the current values and below them the
nodes of the versions. Parents are created with empty data as they are needed, and a current
value is deleted by emptying its node.
-/

namespace Marathon.Storage

open Lib

/-! ## Names and paths -/

/-- The name of a node: not empty and without a slash. -/
structure NodeName where
  name : String
  ne_nil : name.toList ≠ []
  slash_notMem : '/' ∉ name.toList
deriving DecidableEq

namespace ZkId

def hashBucketSize : ℕ := 16

/-- The bucket of an id, which the sign of the hash code does not enter. -/
def bucket (id : NodeName) : ℕ := ((hashCode id.name).toInt.tmod hashBucketSize).natAbs

theorem bucket_lt (id : NodeName) : bucket id < hashBucketSize :=
  natAbs_tmod_lt (hashCode id.name) (by decide)

/-- The bucket in hexadecimal digits. -/
def bucketName (id : NodeName) : NodeName where
  name := String.ofList (Nat.toDigits 16 (bucket id))
  ne_nil := by
    rw [String.toList_ofList]
    exact Nat.toDigits_ne_nil
  slash_notMem := by
    have hdigits : ∀ n < hashBucketSize, '/' ∉ Nat.toDigits 16 n := by decide
    rw [String.toList_ofList]
    exact hdigits _ (bucket_lt id)

/-- The version in whole milliseconds. -/
def versionName (version : OffsetDateTime) : NodeName where
  name := version.truncatedToMillis.format
  ne_nil := by
    rw [OffsetDateTime.format, String.toList_ofList]
    exact version.truncatedToMillis.text_ne_nil
  slash_notMem := by
    rw [OffsetDateTime.format, String.toList_ofList]
    intro h
    have hchar := List.all_eq_true.mp version.truncatedToMillis.all_text _ h
    revert hchar
    decide

/-- The node of an entry, its path listed from the node to the root. -/
def path (id : StorageId NodeName NodeName OffsetDateTime) : List NodeName :=
  match id.version with
  | none => [id.id, bucketName id.id, id.category]
  | some version => [versionName version, id.id, bucketName id.id, id.category]

end ZkId

/-- Versions with the precision of the stores. -/
def IsMillis (version : OffsetDateTime) : Prop := version.truncatedToMillis = version

theorem versionName_inj {version version' : OffsetDateTime} (h : IsMillis version)
    (h' : IsMillis version') :
    ZkId.versionName version = ZkId.versionName version' ↔ version = version' := by
  constructor
  · intro heq
    have hformat := OffsetDateTime.format_injective (congrArg NodeName.name heq)
    rwa [h, h'] at hformat
  · rintro rfl
    rfl

theorem versionName_truncatedToMillis (version : OffsetDateTime) :
    ZkId.versionName version.truncatedToMillis = ZkId.versionName version := by
  rw [ZkId.versionName, NodeName.mk.injEq, ZkId.versionName,
    OffsetDateTime.truncatedToMillis_idem]

/-- The paths of the store: everything below an id is a version of it. -/
def StorePath : List NodeName → Prop
  | [] => True
  | [_] => True
  | [_, _] => True
  | [id, bucket, _] => bucket = ZkId.bucketName id
  | [version, id, bucket, _] =>
    bucket = ZkId.bucketName id ∧ ∃ v, version = ZkId.versionName v
  | _ => False

theorem storePath_path (k : StorageId NodeName NodeName OffsetDateTime) :
    StorePath (ZkId.path k) := by
  obtain ⟨c, i, version⟩ := k
  cases version with
  | none => exact rfl
  | some version => exact ⟨rfl, version, rfl⟩

variable {a c i category id : NodeName} {s s' : ZkNodes}

theorem StorePath.tail {p : List NodeName} (h : StorePath (a :: p)) : StorePath p := by
  match p, h with
  | [], _ => trivial
  | [_], _ => trivial
  | [_, _], _ => trivial
  | [_, _, _], h => exact h.1

theorem StorePath.of_suffix {p q : List NodeName} (h : StorePath q) (hp : p <:+ q) :
    StorePath p := by
  induction q with
  | nil => rwa [List.suffix_nil.mp hp]
  | cons a q ih =>
    rcases List.suffix_cons_iff.mp hp with rfl | hp
    · exact h
    · exact ih h.tail hp

/-! ## Raw operations -/

/-- Serialized values. -/
abbrev Bytes := List UInt8

/-- The key of an entry in ZooKeeper. -/
abbrev ZkId := StorageId NodeName NodeName OffsetDateTime

namespace ZkPersistenceStore

abbrev Tree := NodeTree NodeName Bytes

section RawOperations

variable (tree : Tree) (category : NodeName) (id : ZkId)

/-- The ids in all buckets; a bucket that is listed exists. -/
def rawIds : List NodeName :=
  let buckets := (tree.children [category]).getD []
  buckets.flatMap fun bucket => (tree.children [bucket, category]).getD []

/-- The versions below an id; the call fails if one of them is not a date. -/
def rawVersions : Option (List OffsetDateTime) :=
  match tree.children (ZkId.path { id with version := none }) with
  | some nodes => nodes.mapM fun node => OffsetDateTime.parse node.name
  | none => some []

def rawGet : Option Bytes :=
  match tree.data (ZkId.path id) with
  | some bytes => if bytes ≠ [] then some bytes else none
  | none => none

/-- A version has no nodes below it, so that only a missing node is not deleted. -/
def rawDelete (version : OffsetDateTime) : Tree :=
  match tree.delete (ZkId.path { id with version := some version }) with
  | .ok tree => tree
  | .error _ => tree

def rawDeleteCurrent : Tree := (tree.setData (ZkId.path id) []).getD tree

/-- The node is created if it does not exist, and written after all if it was created by
another call meanwhile. -/
def rawStore (bytes : Bytes) : Tree :=
  match tree.setData (ZkId.path id) bytes with
  | some tree => tree
  | none =>
    match tree.create (ZkId.path id) bytes [] with
    | some tree => tree
    | none => (tree.setData (ZkId.path id) bytes).getD tree

def rawDeleteAll : Tree := tree.deleteTree (ZkId.path { id with version := none })

def allKeys : List ZkId :=
  ((tree.children []).getD []).flatMap fun category =>
    (rawIds tree category).map fun child => ⟨category, child, none⟩

end RawOperations

/-! ## Nodes after an operation -/

section Nodes

variable {tree : Tree} {id : ZkId} (p : List NodeName)

theorem data_rawStore (bytes : Bytes) :
    (rawStore tree id bytes).data p =
      if p = ZkId.path id then some bytes
      else if p <:+ ZkId.path id ∧ p ∉ tree.nodes then some [] else tree.data p := by
  rw [rawStore]
  cases hset : tree.setData (ZkId.path id) bytes with
  | some tree' =>
    have hmem : ZkId.path id ∈ tree.nodes := by
      by_contra hnot
      rw [NodeTree.setData_eq_none.mpr hnot] at hset
      cases hset
    rw [NodeTree.data_setData hset]
    have hnone : ¬(p <:+ ZkId.path id ∧ p ∉ tree.nodes) := fun h =>
      h.2 (NodeTree.mem_of_suffix hmem h.1)
    rw [if_neg hnone]
  | none =>
    have hnot := NodeTree.setData_eq_none.mp hset
    cases hcreate : tree.create (ZkId.path id) bytes [] with
    | none => exact absurd (NodeTree.create_eq_none.mp hcreate) hnot
    | some tree' => exact NodeTree.data_create hcreate p

theorem data_rawDeleteCurrent :
    (rawDeleteCurrent tree id).data p =
      if p = ZkId.path id ∧ p ∈ tree.nodes then some [] else tree.data p := by
  rw [rawDeleteCurrent]
  cases hset : tree.setData (ZkId.path id) [] with
  | some tree' =>
    have hmem : ZkId.path id ∈ tree.nodes := by
      by_contra hnot
      rw [NodeTree.setData_eq_none.mpr hnot] at hset
      cases hset
    rw [Option.getD_some, NodeTree.data_setData hset]
    split_ifs with hp hboth hboth
    · rfl
    · exact absurd ⟨hp, hp ▸ hmem⟩ hboth
    · exact absurd hboth.1 hp
    · rfl
  | none =>
    have hnot := NodeTree.setData_eq_none.mp hset
    rw [Option.getD_none, if_neg]
    rintro ⟨rfl, hmem⟩
    exact hnot hmem

theorem data_rawDeleteAll :
    (rawDeleteAll tree id).data p =
      if ZkId.path { id with version := none } <:+ p then none else tree.data p := by
  rw [rawDeleteAll, NodeTree.data_deleteTree]
  exact if_congr (and_iff_right (List.cons_ne_nil _ _)) rfl rfl

end Nodes

end ZkPersistenceStore

/-- The nodes below the root of the store. -/
structure ZkNodes where
  tree : NodeTree NodeName Bytes
  storePath : ∀ p ∈ tree.nodes, StorePath p

namespace ZkPersistenceStore

/-- A root without children. -/
def noNodes : ZkNodes where
  tree := NodeTree.rootOnly []
  storePath p hp := by
    obtain rfl := NodeTree.mem_rootOnly.mp hp
    trivial

theorem path_ne_nil (id : ZkId) : ZkId.path id ≠ [] := by
  rw [ZkId.path]
  split <;> exact List.cons_ne_nil _ _

theorem data_rawDelete (s : ZkNodes) (id : ZkId) (version : OffsetDateTime) (p : List NodeName) :
    (rawDelete s.tree id version).data p =
      if p = ZkId.path { id with version := some version } then none else s.tree.data p := by
  rw [rawDelete]
  by_cases hmem : ZkId.path { id with version := some version } ∈ s.tree.nodes
  · have hleaf : s.tree.children (ZkId.path { id with version := some version }) = some [] := by
      apply NodeTree.children_eq_nil.mpr
      exact ⟨hmem, fun a ha => s.storePath _ ha⟩
    obtain ⟨tree', htree'⟩ := NodeTree.exists_delete (path_ne_nil _) hleaf
    rw [htree']
    exact NodeTree.data_delete htree' p
  · rw [NodeTree.delete_eq_noNode hmem]
    split_ifs with hp
    · rw [hp]
      exact AList.lookup_eq_none.mpr hmem
    · rfl

/-! ## Values after an operation -/

theorem path_eq_iff {k k' : ZkId} : ZkId.path k = ZkId.path k' ↔
    k.category = k'.category ∧ k.id = k'.id ∧
      k.version.map ZkId.versionName = k'.version.map ZkId.versionName := by
  obtain ⟨c, i, version⟩ := k
  obtain ⟨c', i', version'⟩ := k'
  cases version <;> cases version'
  all_goals
    simp only [ZkId.path, List.cons.injEq, and_true, Option.map_none, Option.map_some,
      Option.some.injEq, reduceCtorEq, and_false]
  · constructor
    · rintro ⟨rfl, -, rfl⟩
      exact ⟨rfl, rfl⟩
    · rintro ⟨rfl, rfl⟩
      exact ⟨rfl, rfl, rfl⟩
  · constructor
    · rintro ⟨hversion, rfl, -, rfl⟩
      exact ⟨rfl, rfl, hversion⟩
    · rintro ⟨rfl, rfl, hversion⟩
      exact ⟨hversion, rfl, rfl, rfl⟩

theorem path_suffix_iff {k : ZkId} :
    ZkId.path ⟨c, i, none⟩ <:+ ZkId.path k ↔ k.category = c ∧ k.id = i := by
  obtain ⟨c', i', version⟩ := k
  constructor
  · intro h
    cases version with
    | none =>
      have heq := h.eq_of_length rfl
      simp only [ZkId.path, List.cons.injEq] at heq
      exact ⟨heq.2.2.1.symm, heq.1.symm⟩
    | some version =>
      rcases List.suffix_cons_iff.mp h with heq | hsuffix
      · exact absurd (congrArg List.length heq) (by simp [ZkId.path])
      · have heq := hsuffix.eq_of_length rfl
        simp only [ZkId.path, List.cons.injEq] at heq
        exact ⟨heq.2.2.1.symm, heq.1.symm⟩
  · rintro ⟨rfl, rfl⟩
    cases version with
    | none => exact List.suffix_rfl
    | some version => exact List.suffix_cons _ _

theorem eq_of_path_suffix {version : OffsetDateTime} {k : ZkId}
    (h : ZkId.path ⟨c, i, some version⟩ <:+ ZkId.path k) :
    ZkId.path ⟨c, i, some version⟩ = ZkId.path k := by
  apply h.eq_of_length_le
  obtain ⟨c', i', version'⟩ := k
  cases version' with
  | none => exact Nat.le_succ 3
  | some version' => exact le_rfl

theorem rawGet_eq (tree : Tree) (id : ZkId) :
    rawGet tree id = (tree.data (ZkId.path id)).filter (· ≠ []) := by
  rw [rawGet]
  cases tree.data (ZkId.path id) with
  | none => rfl
  | some bytes =>
    rw [Option.filter_some]
    simp only [decide_eq_true_eq]

section Values

variable {tree : Tree} (k k' : ZkId)

theorem rawGet_rawStore (bytes : Bytes) :
    rawGet (rawStore tree k bytes) k' =
      if ZkId.path k' = ZkId.path k then (some bytes).filter (· ≠ []) else rawGet tree k' := by
  rw [rawGet_eq, data_rawStore, rawGet_eq]
  split_ifs with hpath hparent
  · rfl
  · -- A parent that was created holds nothing, as the missing node before it.
    have hnone : tree.data (ZkId.path k') = none := AList.lookup_eq_none.mpr hparent.2
    rw [hnone]
    rfl
  · rfl

theorem rawGet_rawDeleteCurrent :
    rawGet (rawDeleteCurrent tree k) k' =
      if ZkId.path k' = ZkId.path k then none else rawGet tree k' := by
  rw [rawGet_eq, data_rawDeleteCurrent, rawGet_eq]
  by_cases hpath : ZkId.path k' = ZkId.path k
  · rw [if_pos hpath]
    split_ifs with hmem
    · rfl
    · have hnone : tree.data (ZkId.path k') = none :=
        AList.lookup_eq_none.mpr fun h => hmem ⟨hpath, h⟩
      rw [hnone]
      rfl
  · rw [if_neg hpath, if_neg fun h => hpath h.1]

theorem rawGet_rawDeleteAll :
    rawGet (rawDeleteAll tree k) k' =
      if k'.category = k.category ∧ k'.id = k.id then none else rawGet tree k' := by
  rw [rawGet_eq, data_rawDeleteAll, rawGet_eq, if_congr path_suffix_iff rfl rfl]
  split_ifs <;> rfl

theorem rawGet_rawDelete (s : ZkNodes) (version : OffsetDateTime) :
    rawGet (rawDelete s.tree k version) k' =
      if ZkId.path k' = ZkId.path { k with version := some version } then none
      else rawGet s.tree k' := by
  rw [rawGet_eq, data_rawDelete, rawGet_eq]
  split_ifs <;> rfl

end Values

/-! ## Listed ids and versions -/

theorem mem_getD_children {tree : Tree} {p : List NodeName} :
    a ∈ (tree.children p).getD [] ↔ a :: p ∈ tree.nodes := by
  rw [← NodeTree.mem_children]
  cases tree.children p with
  | none => simp
  | some names => simp

theorem mem_rawIds (s : ZkNodes) :
    id ∈ rawIds s.tree category ↔ ZkId.path ⟨category, id, none⟩ ∈ s.tree.nodes := by
  rw [rawIds, List.mem_flatMap]
  constructor
  · rintro ⟨bucket, -, hid⟩
    have hmem := mem_getD_children.mp hid
    obtain rfl : bucket = ZkId.bucketName id := s.storePath _ hmem
    exact hmem
  · intro hmem
    refine ⟨ZkId.bucketName id, ?_, mem_getD_children.mpr hmem⟩
    exact mem_getD_children.mpr (s.tree.parent_mem _ _ hmem)

theorem parse_versionName (version : OffsetDateTime) :
    OffsetDateTime.parse (ZkId.versionName version).name = some version.truncatedToMillis :=
  OffsetDateTime.parse_format _

/-- The names of the versions are dates, so that listing them does not fail. -/
theorem rawVersions_spec (s : ZkNodes) (id : ZkId) :
    ∃ versions, rawVersions s.tree id = some versions ∧ ∀ version, version ∈ versions ↔
      IsMillis version ∧ ZkId.path { id with version := some version } ∈ s.tree.nodes := by
  have hdate : ∀ node ∈ (s.tree.children (ZkId.path { id with version := none })).getD [],
      ∃ v, node = ZkId.versionName v := by
    intro node hnode
    exact (s.storePath _ (mem_getD_children.mp hnode)).2
  have hmem : ∀ version, ZkId.path { id with version := some version } ∈ s.tree.nodes ↔
      ZkId.versionName version ∈ (s.tree.children (ZkId.path { id with version := none })).getD [] :=
    fun version => mem_getD_children.symm
  rw [rawVersions]
  cases hchildren : s.tree.children (ZkId.path { id with version := none }) with
  | none =>
    refine ⟨[], rfl, fun version => iff_of_false List.not_mem_nil ?_⟩
    rintro ⟨-, hnode⟩
    rw [hmem, hchildren] at hnode
    exact List.not_mem_nil hnode
  | some nodes =>
    rw [hchildren, Option.getD_some] at hdate
    obtain ⟨versions, hversions⟩ : ∃ versions,
        (nodes.mapM fun node => OffsetDateTime.parse node.name) = some versions := by
      apply exists_mapM_eq_some
      intro node hnode
      obtain ⟨v, rfl⟩ := hdate node hnode
      exact ⟨_, parse_versionName v⟩
    refine ⟨versions, hversions, fun version => ?_⟩
    rw [mem_of_mapM hversions, hmem, hchildren, Option.getD_some]
    constructor
    · rintro ⟨node, hnode, hparse⟩
      obtain ⟨v, rfl⟩ := hdate node hnode
      cases (parse_versionName v).symm.trans hparse
      rw [versionName_truncatedToMillis]
      exact ⟨OffsetDateTime.truncatedToMillis_idem v, hnode⟩
    · rintro ⟨hmillis, hnode⟩
      refine ⟨_, hnode, ?_⟩
      rw [parse_versionName, hmillis]

end ZkPersistenceStore

/-! ## The store -/

section

open ZkPersistenceStore

theorem ZkNodes.storePath_rawStore (s : ZkNodes) (id : ZkId) (bytes : Bytes) :
    ∀ p ∈ (rawStore s.tree id bytes).nodes, StorePath p := by
  intro p hp
  rw [NodeTree.mem_iff_data, data_rawStore] at hp
  split_ifs at hp with hpath hparent
  · exact hpath ▸ storePath_path id
  · exact (storePath_path id).of_suffix hparent.1
  · exact s.storePath p (NodeTree.mem_iff_data.mpr hp)

theorem ZkNodes.storePath_rawDelete (s : ZkNodes) (id : ZkId) (version : OffsetDateTime) :
    ∀ p ∈ (rawDelete s.tree id version).nodes, StorePath p := by
  intro p hp
  rw [NodeTree.mem_iff_data, data_rawDelete] at hp
  split_ifs at hp
  · cases hp
  · exact s.storePath p (NodeTree.mem_iff_data.mpr hp)

theorem ZkNodes.storePath_rawDeleteCurrent (s : ZkNodes) (id : ZkId) :
    ∀ p ∈ (rawDeleteCurrent s.tree id).nodes, StorePath p := by
  intro p hp
  rw [NodeTree.mem_iff_data, data_rawDeleteCurrent] at hp
  split_ifs at hp with h
  · exact s.storePath p h.2
  · exact s.storePath p (NodeTree.mem_iff_data.mpr hp)

theorem ZkNodes.storePath_rawDeleteAll (s : ZkNodes) (id : ZkId) :
    ∀ p ∈ (rawDeleteAll s.tree id).nodes, StorePath p := by
  intro p hp
  rw [NodeTree.mem_iff_data, data_rawDeleteAll] at hp
  split_ifs at hp
  · cases hp
  · exact s.storePath p (NodeTree.mem_iff_data.mpr hp)

/-- The store in ZooKeeper as a persistence store. -/
def zkPersistenceStore {V : Type*} (ir : IdResolver NodeName OffsetDateTime V Bytes) :
    BasePersistenceStore ZkNodes NodeName NodeName OffsetDateTime V Bytes where
  rawIds s category := (rawIds s.tree category).toFinset
  rawVersions s id := ((rawVersions s.tree id).getD []).toFinset
  rawGet s id := rawGet s.tree id
  rawStore s id bytes := ⟨rawStore s.tree id bytes, s.storePath_rawStore id bytes⟩
  rawDelete s id version := ⟨rawDelete s.tree id version, s.storePath_rawDelete id version⟩
  rawDeleteCurrent s id := ⟨rawDeleteCurrent s.tree id, s.storePath_rawDeleteCurrent id⟩
  rawDeleteAll s id := ⟨rawDeleteAll s.tree id, s.storePath_rawDeleteAll id⟩
  allKeys s := allKeys s.tree
  ir := ir

end

namespace ZkPersistenceStore

/-! ## Nodes of ids after an operation -/

section Ids

variable (s : ZkNodes) (k : ZkId) {c i : NodeName}

theorem mem_nodes_rawStore (bytes : Bytes) (p : List NodeName) :
    p ∈ (rawStore s.tree k bytes).nodes ↔ p <:+ ZkId.path k ∨ p ∈ s.tree.nodes := by
  rw [NodeTree.mem_iff_data, data_rawStore]
  split_ifs with hpath hparent
  · exact iff_of_true rfl (.inl (hpath ▸ List.suffix_rfl))
  · exact iff_of_true rfl (.inl hparent.1)
  · rw [← NodeTree.mem_iff_data]
    constructor
    · exact .inr
    · rintro (hsuffix | hmem)
      · exact of_not_not fun hnot => hparent ⟨hsuffix, hnot⟩
      · exact hmem

theorem mem_nodes_rawDeleteCurrent (p : List NodeName) :
    p ∈ (rawDeleteCurrent s.tree k).nodes ↔ p ∈ s.tree.nodes := by
  rw [NodeTree.mem_iff_data, data_rawDeleteCurrent]
  split_ifs with h
  · exact iff_of_true rfl h.2
  · exact NodeTree.mem_iff_data.symm

theorem mem_nodes_rawDelete (version : OffsetDateTime) (p : List NodeName) :
    p ∈ (rawDelete s.tree k version).nodes ↔
      p ≠ ZkId.path { k with version := some version } ∧ p ∈ s.tree.nodes := by
  rw [NodeTree.mem_iff_data, data_rawDelete]
  split_ifs with h
  · exact iff_of_false Bool.false_ne_true fun hne => hne.1 h
  · rw [← NodeTree.mem_iff_data]
    exact (and_iff_right h).symm

theorem mem_nodes_rawDeleteAll (p : List NodeName) :
    p ∈ (rawDeleteAll s.tree k).nodes ↔
      ¬ZkId.path { k with version := none } <:+ p ∧ p ∈ s.tree.nodes := by
  rw [NodeTree.mem_iff_data, data_rawDeleteAll]
  split_ifs with h
  · exact iff_of_false Bool.false_ne_true fun hn => hn.1 h
  · rw [← NodeTree.mem_iff_data]
    exact (and_iff_right h).symm

end Ids

variable {V : Type*} (ir : IdResolver NodeName OffsetDateTime V Bytes)

theorem mem_ids :
    id ∈ (zkPersistenceStore ir).rawIds s category ↔
      ZkId.path ⟨category, id, none⟩ ∈ s.tree.nodes :=
  List.mem_toFinset.trans (mem_rawIds s)

theorem rawIds_eq_of_mem_nodes
    (h : ∀ c i, ZkId.path ⟨c, i, none⟩ ∈ s'.tree.nodes ↔ ZkId.path ⟨c, i, none⟩ ∈ s.tree.nodes)
    (category : NodeName) :
    (zkPersistenceStore ir).rawIds s' category = (zkPersistenceStore ir).rawIds s category := by
  ext id
  rw [mem_ids, mem_ids, h]

theorem keepsOthers_of_eq {k : ZkId}
    (h : ∀ category,
      (zkPersistenceStore ir).rawIds s' category = (zkPersistenceStore ir).rawIds s category) :
    (zkPersistenceStore ir).KeepsOthers k s s' := by
  intro category
  rw [h category]
  exact ⟨subset_rfl, fun _ hid _ => hid⟩

theorem rawIds_rawDelete (s : ZkNodes) (k : ZkId) (version : OffsetDateTime) (category : NodeName) :
    (zkPersistenceStore ir).rawIds ((zkPersistenceStore ir).rawDelete s k version) category =
      (zkPersistenceStore ir).rawIds s category := by
  apply rawIds_eq_of_mem_nodes
  intro c i
  apply (mem_nodes_rawDelete s k version _).trans
  apply and_iff_right
  intro heq
  cases (path_eq_iff.mp heq).2.2

theorem rawIds_rawDeleteCurrent (s : ZkNodes) (k : ZkId) (category : NodeName) :
    (zkPersistenceStore ir).rawIds ((zkPersistenceStore ir).rawDeleteCurrent s k) category =
      (zkPersistenceStore ir).rawIds s category :=
  rawIds_eq_of_mem_nodes ir (fun _ _ => mem_nodes_rawDeleteCurrent s k _) category

theorem lawful_zkPersistenceStore : (zkPersistenceStore ir).Lawful where
  rawIds_rawStore s k v category := by
    ext id
    rw [mem_ids]
    refine (mem_nodes_rawStore s k v _).trans ?_
    rw [path_suffix_iff]
    split_ifs with hc
    · rw [Finset.mem_insert, mem_ids, hc]
      exact or_congr_left ((and_iff_right rfl).trans eq_comm)
    · rw [mem_ids]
      exact or_iff_right fun h => hc h.1.symm
  rawIds_rawDelete s k version := keepsOthers_of_eq ir (rawIds_rawDelete ir s k version)
  rawIds_rawDeleteCurrent s k := keepsOthers_of_eq ir (rawIds_rawDeleteCurrent ir s k)
  rawIds_rawDeleteAll s k category := by
    ext id
    rw [mem_ids]
    refine (mem_nodes_rawDeleteAll s k _).trans ?_
    have hpath : ZkId.path { k with version := none } = ZkId.path ⟨k.category, k.id, none⟩ := rfl
    rw [hpath, path_suffix_iff]
    split_ifs with hc
    · rw [Finset.mem_erase, mem_ids, hc]
      exact and_congr_left fun _ => not_congr (and_iff_right rfl)
    · rw [mem_ids]
      exact and_iff_right fun h => hc h.1
  rawGet_rawStore s k v c i hne := by
    apply (rawGet_rawStore k _ v).trans
    apply if_neg
    intro heq
    obtain ⟨rfl, rfl, hversion⟩ := path_eq_iff.mp heq
    apply hne
    rw [Option.map_none, eq_comm, Option.map_eq_none_iff] at hversion
    obtain ⟨c, i, version⟩ := k
    obtain rfl : version = none := hversion
    rfl
  rawGet_rawDelete s k version c i := by
    apply (rawGet_rawDelete k _ s version).trans
    apply if_neg
    intro heq
    cases (path_eq_iff.mp heq).2.2
  rawGet_rawDeleteCurrent s c i c' i' := by
    apply (rawGet_rawDeleteCurrent _ _).trans
    exact if_congr (path_eq_iff.trans (and_congr_right fun _ => and_iff_left rfl)) rfl rfl
  rawGet_rawDeleteAll s k c i := rawGet_rawDeleteAll k _
  mem_rawIds_of_rawGet s k v hv := by
    rw [mem_ids]
    apply NodeTree.mem_of_suffix _ (path_suffix_iff.mpr ⟨rfl, rfl⟩)
    rw [NodeTree.mem_iff_data]
    have hget := (rawGet_eq s.tree k).symm.trans hv
    exact Option.isSome_iff_exists.mpr ⟨v, (Option.filter_eq_some_iff.mp hget).1⟩
  mem_allKeys_of_rawGet s c i v hv := by
    have hget := (rawGet_eq s.tree ⟨c, i, none⟩).symm.trans hv
    have hmem : ZkId.path ⟨c, i, none⟩ ∈ s.tree.nodes := by
      rw [NodeTree.mem_iff_data]
      exact Option.isSome_iff_exists.mpr ⟨v, (Option.filter_eq_some_iff.mp hget).1⟩
    apply List.mem_flatMap.mpr
    refine ⟨c, mem_getD_children.mpr ?_, List.mem_map_of_mem ((mem_rawIds s).mpr hmem)⟩
    exact s.tree.parent_mem _ _ (s.tree.parent_mem _ _ hmem)
  mem_rawIds_of_allKeys s k hk := by
    obtain ⟨c, -, hk⟩ := List.mem_flatMap.mp hk
    obtain ⟨i, hi, rfl⟩ := List.mem_map.mp hk
    exact ⟨rfl, List.mem_toFinset.mpr hi⟩

end ZkPersistenceStore

end Marathon.Storage
