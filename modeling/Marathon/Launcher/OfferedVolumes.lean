import Marathon.Instance.IdCodecs
import Marathon.Instance.InstanceFormats
import Marathon.State.CanonicalPath

/-!
# Offered volumes

The id of a persistent volume joins the safe path of its run spec, a name and a uuid. An offer
tells by such ids which run spec comes first, and which waiting instance gets its volumes back.
-/

namespace Marathon

open Lib PathId

namespace LocalVolumeId

/-- `LocalVolumeId.apply`: a volume without a name goes by the path of its mount. -/
def ofVolume (runSpecId : AbsolutePathId) (volumeName : Option String) (mount : VolumeMount)
    (uuid : UUID) : LocalVolumeId :=
  ⟨runSpecId, volumeName.getD mount.mountPath, uuid.string⟩

/-- Three groups without the delimiter, none of them empty. -/
def unapply (id : String) : Option LocalVolumeId :=
  match id.toList.splitOn '#' with
  | [runSpec, name, uuid] =>
    if runSpec = [] ∨ name = [] ∨ uuid = [] then none
    else some ⟨fromSafePath (String.ofList runSpec), String.ofList name, String.ofList uuid⟩
  | _ => none

/-- `validPersistentVolume` of apps, which have no names; the name of a volume of a pod is that of
a mount, with at most 63 characters that `NamePattern` matches. -/
def validPersistentVolume (volumeName : Option String) (mount : VolumeMount) : Bool :=
  match volumeName with
  | none => mount.mountPath ≠ "" && mount.mountPath ∉ [".", ".."] && '/' ∉ mount.mountPath.toList
  | some name => mount.volumeName = some name && name.length ≤ 63 && isLabel name.toList

/-- The id of a volume of a valid run spec. -/
inductive Generated : LocalVolumeId → Prop
  | ofVolume {runSpecId : AbsolutePathId} {volumeName : Option String} {mount : VolumeMount}
      (hvalid : validPathChars runSpecId) (hnonEmpty : runSpecId.isRoot = false)
      (hvolume : validPersistentVolume volumeName mount) (uuid : UUID) :
      Generated (ofVolume runSpecId volumeName mount uuid)

end LocalVolumeId

/-- The run specs whose matchers get the offer first, from the persistence ids of its disks. -/
def OfferMatcherManagerActor.reservations (persistenceIds : List String) : List AbsolutePathId :=
  (persistenceIds.filterMap LocalVolumeId.unapply).map (·.runSpecId)

namespace PersistentVolumeMatcher

variable {Resource : Type}

def resourcesForReservation (availableVolumes : Dict String Resource) (reservation : Reservation) :
    Option (List Resource) :=
  if reservation.volumeIds.all fun id => (availableVolumes.lookup id.idString).isSome then
    some (reservation.volumeIds.filterMap fun id => availableVolumes.lookup id.idString)
  else none

/-- The first of the waiting instances all of whose volumes are there. -/
def matchVolumes (offered : List (String × Resource)) (waitingInstances : List Instance) :
    Option (Instance × List Resource) :=
  waitingInstances.findSome? fun i => i.reservation.bind fun reservation =>
    (resourcesForReservation (.ofBindings offered) reservation).map fun rs => (i, rs)

end PersistentVolumeMatcher

namespace LocalVolumeId

variable {id other : LocalVolumeId}

theorem toList_idString (id : LocalVolumeId) : id.idString.toList =
    id.runSpecId.safePath.toList ++ '#' :: (id.name.toList ++ '#' :: id.uuid.toList) := by
  simp [idString]

namespace Generated

theorem hash_notMem_safePath (h : id.Generated) : '#' ∉ id.runSpecId.safePath.toList := by
  obtain ⟨hvalid, -, -, uuid⟩ := h
  intro hmem
  rw [AbsolutePathId.safePath, String.toList_intercalate] at hmem
  rcases mem_intercalate hmem with heq | ⟨text, htext, hmem⟩
  · exact absurd heq (by decide)
  · obtain ⟨segment, hsegment, rfl⟩ := List.mem_map.mp htext
    have hchar := isSegmentChar_of_mem (List.all_eq_true.mp hvalid segment hsegment) hmem
    exact absurd hchar (by decide)

theorem hash_notMem_uuid (h : id.Generated) : '#' ∉ id.uuid.toList := by
  obtain ⟨-, -, -, uuid⟩ := h
  intro hmem
  exact absurd (UUID.isUuidChar_of_mem hmem) (by decide)

theorem read (h : id.Generated) : fromSafePath id.runSpecId.safePath = id.runSpecId ∧
    id.runSpecId.safePath.toList ≠ [] ∧ id.name.toList ≠ [] ∧ id.uuid.toList ≠ [] := by
  obtain @⟨runSpecId, volumeName, mount, hvalid, hnonEmpty, hvolume, uuid⟩ := h
  have hread := fromSafePath_safePath hvalid
  refine ⟨hread, ?_, ?_, ?_⟩
  · intro (hempty : runSpecId.safePath.toList = [])
    have hroot : runSpecId = .root := by
      rw [← hread, String.toList_eq_nil_iff.mp hempty]
      rfl
    rw [hroot] at hnonEmpty
    cases hnonEmpty
  · intro hempty
    rw [String.toList_eq_nil_iff] at hempty
    cases volumeName with
    | none =>
      have hpath : mount.mountPath = "" := hempty
      simp [validPersistentVolume, hpath] at hvolume
    | some name =>
      obtain rfl : name = "" := hempty
      simp [validPersistentVolume, isLabel] at hvolume
  · exact List.ne_nil_of_mem (UUID.hyphen_mem uuid)

theorem unapply_idString_iff (h : id.Generated) :
    unapply id.idString = some id ↔ '#' ∉ id.name.toList := by
  constructor
  · intro hread
    have hpieces : ∀ piece ∈ id.idString.toList.splitOn '#', '#' ∉ piece :=
      slash_notMem_of_mem_splitOn
    unfold unapply at hread
    split at hread
    · rename_i runSpec name uuid hsplit
      rw [Option.ite_none_left_eq_some, Option.some.injEq] at hread
      rw [← hread.2, String.toList_ofList]
      exact hpieces name (by simp [hsplit])
    · cases hread
  · intro hname
    obtain ⟨hread, hpath, hne, huuid⟩ := h.read
    have hsplit : id.idString.toList.splitOn '#' =
        [id.runSpecId.safePath.toList, id.name.toList, id.uuid.toList] := by
      have htext : id.idString.toList = ['#'].intercalate
          [id.runSpecId.safePath.toList, id.name.toList, id.uuid.toList] := by
        simp [toList_idString, List.intercalate]
      rw [htext]
      apply List.splitOn_intercalate
      · simp [h.hash_notMem_safePath, h.hash_notMem_uuid, hname]
      · exact List.cons_ne_nil _ _
    rw [unapply, hsplit]
    simp [hpath, hne, huuid, hread]

theorem idString_inj (h : id.Generated) (hother : other.Generated)
    (heq : other.idString = id.idString) : other = id := by
  have hne : ∀ {text : List Char}, '#' ∉ text → ∀ c ∈ text, ¬ c = '#' :=
    fun hnot c hc heq => hnot (heq ▸ hc)
  have htext := congrArg String.toList heq
  rw [toList_idString, toList_idString] at htext
  obtain ⟨hpath, -, hrest⟩ := eq_of_first (p := fun c => c = '#') rfl rfl (hne hother.hash_notMem_safePath)
    (hne h.hash_notMem_safePath) htext
  obtain ⟨hname, -, huuid⟩ := eq_of_last (p := fun c => c = '#') rfl rfl (hne hother.hash_notMem_uuid)
    (hne h.hash_notMem_uuid) hrest
  have hspec : other.runSpecId = id.runSpecId := by
    rw [← hother.read.1, ← h.read.1, String.toList_inj.mp hpath]
  obtain ⟨runSpecId, name, uuid⟩ := id
  obtain ⟨runSpecId', name', uuid'⟩ := other
  rw [LocalVolumeId.mk.injEq]
  exact ⟨hspec, String.toList_inj.mp hname, String.toList_inj.mp huuid⟩

end Generated

end LocalVolumeId

namespace PersistentVolumeMatcher

variable {Resource : Type} {offered : List (String × Resource)} {waiting : List Instance}

theorem all_isSome_iff {α β : Type} {f : α → Option β} {l : List α} {rs : List β} :
    l.all (fun a => (f a).isSome) ∧ l.filterMap f = rs ↔ l.map f = rs.map some := by
  induction l generalizing rs with
  | nil => cases rs <;> simp
  | cons a l ih =>
    cases ha : f a with
    | none => cases rs <;> simp [ha]
    | some b =>
      cases rs with
      | nil => simp [ha]
      | cons b' rs => simp [ha, ← ih, and_left_comm]

/-- Every volume of the reservation gets the resource that is offered under its id. -/
theorem matchVolumes_eq_some {i : Instance} {rs : List Resource}
    (h : matchVolumes offered waiting = some (i, rs)) :
    i ∈ waiting ∧ ∃ reservation, i.reservation = some reservation ∧
      reservation.volumeIds.map (fun id => (Dict.ofBindings offered).lookup id.idString) =
        rs.map some := by
  obtain ⟨i', hi', hmatch⟩ := List.exists_of_findSome?_eq_some h
  obtain ⟨reservation, hreservation, hmatch⟩ := Option.bind_eq_some_iff.mp hmatch
  obtain ⟨rs', hrs, heq⟩ := Option.map_eq_some_iff.mp hmatch
  obtain ⟨rfl, rfl⟩ := Prod.mk.inj heq
  refine ⟨hi', reservation, hreservation, ?_⟩
  rw [resourcesForReservation, Option.ite_none_right_eq_some, Option.some.injEq] at hrs
  exact all_isSome_iff.mp hrs

end PersistentVolumeMatcher

namespace LocalVolumeId

/-- What an offer with the volume leads to. -/
structure Attributed (id : LocalVolumeId) : Prop where
  readBack : unapply id.idString = some id
  distinct : ∀ other, Generated other → other.idString = id.idString → other = id
  precedence : ∀ persistenceIds, id.idString ∈ persistenceIds →
    id.runSpecId ∈ OfferMatcherManagerActor.reservations persistenceIds
  /-- The resource goes to an instance that waits for just this volume. -/
  matched : ∀ {Resource : Type} (offered : List (String × Resource)) waiting i rs,
    PersistentVolumeMatcher.matchVolumes offered waiting = some (i, rs) →
      i ∈ waiting ∧ ∃ reservation, i.reservation = some reservation ∧
        reservation.volumeIds.map (fun v => (Dict.ofBindings offered).lookup v.idString) =
          rs.map some ∧
        ((∀ v ∈ reservation.volumeIds, Generated v) →
          (id.idString ∈ reservation.volumeIds.map idString ↔ id ∈ reservation.volumeIds))

/-- A volume is attributed to its run spec unless its name has the delimiter. -/
theorem attributed_iff {id : LocalVolumeId} (h : id.Generated) : id.Attributed ↔ '#' ∉ id.name.toList := by
  constructor
  · exact fun hattributed => h.unapply_idString_iff.mp hattributed.readBack
  · intro hname
    have hread := h.unapply_idString_iff.mpr hname
    refine ⟨hread, fun other hother => h.idString_inj hother, ?_, ?_⟩
    · intro persistenceIds hmem
      exact List.mem_map_of_mem (List.mem_filterMap.mpr ⟨_, hmem, hread⟩)
    · intro Resource offered waiting i rs hmatch
      obtain ⟨hi, reservation, hreservation, hvolumes⟩ :=
        PersistentVolumeMatcher.matchVolumes_eq_some hmatch
      refine ⟨hi, reservation, hreservation, hvolumes, fun hall => ⟨?_, List.mem_map_of_mem⟩⟩
      intro hmem
      obtain ⟨v, hv, heq⟩ := List.mem_map.mp hmem
      exact h.idString_inj (hall v hv) heq ▸ hv

theorem generated_web {mountPath : String}
    (h : validPersistentVolume none ⟨none, mountPath, false⟩) :
    Generated (ofVolume ⟨["web"]⟩ none ⟨none, mountPath, false⟩ ⟨0⟩) :=
  .ofVolume (by decide) rfl h _

theorem attributed_web : Generated (ofVolume ⟨["web"]⟩ none ⟨none, "data", false⟩ ⟨0⟩) ∧
    (Attributed (ofVolume ⟨["web"]⟩ none ⟨none, "data", false⟩ ⟨0⟩) ↔ '#' ∉ "data".toList) :=
  ⟨generated_web (by decide), attributed_iff (generated_web (by decide))⟩

theorem not_forall_readBack : ¬ ∀ id : LocalVolumeId, id.Generated → id.Attributed := by
  intro h
  have hweb := @generated_web "data#1" (by decide)
  exact hweb.unapply_idString_iff.mp (h _ hweb).readBack (by decide)

end LocalVolumeId

end Marathon
