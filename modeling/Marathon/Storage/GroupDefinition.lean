import Marathon.Lib.Entries
import Marathon.Lib.IsoDateTime
import Marathon.State.SafePath
import Marathon.Storage.StoredGroup

/-!
# The messages of stored groups

A stored group is written with its ids as safe paths and its versions as formatted dates.
What is written of a group with valid paths is read back as that group.
-/

namespace Marathon.Storage

open Lib PathId

/-- `GroupDefinition.AppReference`. -/
structure AppReference where
  id : String
  version : String

/-- The message of a stored group. Its dependencies are written in no particular order. -/
structure GroupDefinition where
  id : String
  version : String
  apps : List AppReference
  pods : List AppReference
  groups : List GroupDefinition
  dependencies : Multiset String
  enforceRole : Option Bool

/-- `toOffsetDateTime`: the instant, at UTC. -/
def toOffsetDateTime (timestamp : Timestamp) : OffsetDateTime where
  instant := timestamp.instant
  offset := 0
  offset_le := Nat.zero_le maxOffset

def formatVersion (version : Timestamp) : String := (toOffsetDateTime version).format

def parseVersion (text : String) : Option Timestamp :=
  (OffsetDateTime.parse text).map fun t => ⟨t.instant⟩

@[simp]
theorem parseVersion_formatVersion (version : Timestamp) :
    parseVersion (formatVersion version) = some version := by
  rw [parseVersion, formatVersion, OffsetDateTime.parse_format]
  rfl

namespace StoredGroup

/-! ## Writing and reading -/

def toReference (binding : AbsolutePathId × Timestamp) : AppReference where
  id := binding.1.safePath
  version := formatVersion binding.2

def fromReference (reference : AppReference) : Option (AbsolutePathId × Timestamp) :=
  (parseVersion reference.version).map fun version => (fromSafePath reference.id, version)

mutual

def toProto : StoredGroup → GroupDefinition
  | ⟨id, appIds, podIds, storedGroups, dependencies, version, enforceRole⟩ =>
    { id := id.safePath
      version := formatVersion version
      apps := appIds.bindings.map toReference
      pods := podIds.bindings.map toReference
      groups := toProtos storedGroups
      dependencies := dependencies.val.map AbsolutePathId.safePath
      enforceRole := enforceRole }

def toProtos : List StoredGroup → List GroupDefinition
  | [] => []
  | group :: groups => toProto group :: toProtos groups

end

mutual

/-- `StoredGroup.apply` of a message; `none` where a date cannot be parsed. -/
def ofProto : GroupDefinition → Option StoredGroup
  | ⟨id, version, apps, pods, groups, dependencies, enforceRole⟩ => do
    let appIds ← apps.mapM fromReference
    let podIds ← pods.mapM fromReference
    let storedGroups ← ofProtos groups
    let version ← parseVersion version
    return {
      id := fromSafePath id
      appIds := Dict.ofBindings appIds
      podIds := Dict.ofBindings podIds
      storedGroups := storedGroups
      dependencies := (dependencies.map fromSafePath).toFinset
      version := version
      enforceRole := enforceRole }

def ofProtos : List GroupDefinition → Option (List StoredGroup)
  | [] => some []
  | group :: groups => do
    let group ← ofProto group
    let groups ← ofProtos groups
    return group :: groups

end

/-! ## What is written is read back -/

/-- Every id in the group and in the groups below it is a valid path. -/
inductive ValidPaths : StoredGroup → Prop
  | mk {group : StoredGroup} (id : validPathChars group.id)
      (appIds : ∀ id ∈ group.appIds.keys, validPathChars id)
      (podIds : ∀ id ∈ group.podIds.keys, validPathChars id)
      (dependencies : ∀ id ∈ group.dependencies, validPathChars id)
      (storedGroups : ∀ child ∈ group.storedGroups, ValidPaths child) : ValidPaths group

theorem mapM_fromReference {ids : Dict AbsolutePathId Timestamp}
    (h : ∀ id ∈ ids.keys, validPathChars id) :
    (ids.bindings.map toReference).mapM fromReference = some ids.bindings := by
  have hlist : ∀ bindings : List (AbsolutePathId × Timestamp),
      (∀ b ∈ bindings, validPathChars b.1) →
        (bindings.map toReference).mapM fromReference = some bindings := by
    intro bindings
    induction bindings with
    | nil => exact fun _ => rfl
    | cons b bindings ih =>
      intro hb
      have hhead : fromReference (toReference b) = some b := by
        rw [fromReference, toReference, parseVersion_formatVersion,
          fromSafePath_safePath (hb b List.mem_cons_self)]
        rfl
      have htail := ih fun b' hb' => hb b' (List.mem_cons_of_mem _ hb')
      rw [List.map_cons, List.mapM_cons, hhead, htail]
      rfl
  apply hlist
  intro b hb
  apply h
  rw [← Dict.map_fst_bindings]
  exact List.mem_map_of_mem hb

theorem toFinset_fromSafePath {dependencies : Finset AbsolutePathId}
    (h : ∀ id ∈ dependencies, validPathChars id) :
    ((dependencies.val.map AbsolutePathId.safePath).map fromSafePath).toFinset = dependencies := by
  have hid : dependencies.val.map (fromSafePath ∘ AbsolutePathId.safePath) =
      dependencies.val.map fun id => id :=
    Multiset.map_congr rfl fun id hid => fromSafePath_safePath (h id hid)
  rw [Multiset.map_map, hid, Multiset.map_id', Finset.val_toFinset]

/-- A stored group with valid paths is read back from its message. -/
theorem ofProto_toProto {group : StoredGroup} (h : group.ValidPaths) :
    ofProto (toProto group) = some group := by
  induction h with
  | @mk group hid happs hpods hdependencies _ ih =>
    obtain ⟨id, appIds, podIds, storedGroups, dependencies, version, enforceRole⟩ := group
    have hgroups : ofProtos (toProtos storedGroups) = some storedGroups := by
      have hall : ∀ groups : List StoredGroup,
          (∀ child ∈ groups, ofProto (toProto child) = some child) →
            ofProtos (toProtos groups) = some groups := by
        intro groups
        induction groups with
        | nil => exact fun _ => rfl
        | cons child groups ihtail =>
          intro hgroups
          have htail := ihtail fun child' hchild => hgroups child' (List.mem_cons_of_mem _ hchild)
          rw [toProtos, ofProtos, hgroups child List.mem_cons_self, htail]
          rfl
      exact hall storedGroups ih
    rw [toProto, ofProto, mapM_fromReference happs, mapM_fromReference hpods, hgroups,
      parseVersion_formatVersion, fromSafePath_safePath hid, toFinset_fromSafePath hdependencies]
    simp only [Option.bind_eq_bind, Option.bind_some, Option.pure_def, Dict.ofBindings_bindings]

end StoredGroup

end Marathon.Storage
