import Marathon.Launcher.ResourceMatcher
import Marathon.Lib.BestFit

/-!
# Disks for mount volumes

A mount volume gets a whole disk. The disks are taken as they are offered: the first one that fits,
not the smallest one as `prioritizeDiskResources` would have it.
-/

namespace Marathon

open Mesos Lib

namespace ResourceMatcher

/-- What is consumed of a disk for a mount volume. -/
def mountConsumption (v : PersistentVolumeWithMount) (disk : Resource) : DiskConsumption :=
  ⟨Consumption.of disk.scalar disk, disk.getDiskSourceOption, some (grown v ⌊disk.scalar⌋)⟩

/-- Whether a disk is of a size that the volume may have, and meets its constraints and profile. -/
def fits (matching : Matching) (v : PersistentVolumeWithMount) (disk : Resource) : Bool :=
  fitsMount matching v.volume.persistent disk

/-- The requested mount volumes, the biggest requests first. -/
def mountRequests (volumes : List PersistentVolumeWithMount) : List PersistentVolumeWithMount :=
  (volumes.filter fun v => v.volume.persistent.type = .mount).mergeSort fun v w =>
    w.volume.persistent.size ≤ v.volume.persistent.size

/-- The accepted disks of a type. -/
def acceptedDisks (resources : List Resource) (selector : ResourceSelector) (type : DiskType) :
    List Resource :=
  resources.filter fun r =>
    r.name = .disk && diskType r.getDiskSourceOption = some type && selector.accepts r

variable {matching : Matching} {scope scope' : Scope} {type : DiskType}
  {volumes : List PersistentVolumeWithMount} {disks resources : List Resource}
  {before consumed : List DiskConsumption}

/-- The disks are given to the volumes by first fit. -/
theorem findMountMatches_eq_diskResourceMatch_iff :
    findMountMatches matching scope volumes disks before =
        .diskResourceMatch type consumed scope' ↔
      type = .mount ∧ scope' = scope ∧ ∃ given, fillFirst (fits matching) volumes disks = some given ∧
        consumed = (List.zipWith mountConsumption volumes given).reverse ++ before := by
  induction volumes generalizing disks before with
  | nil =>
    rw [findMountMatches, ScalarMatchResult.diskResourceMatch.injEq]
    constructor
    · rintro ⟨rfl, rfl, rfl⟩
      exact ⟨rfl, rfl, [], rfl, rfl⟩
    · rintro ⟨rfl, rfl, given, hgiven, rfl⟩
      cases hgiven
      exact ⟨rfl, rfl, rfl⟩
  | cons v volumes ih =>
    have hfind : disks.find? (fitsMount matching v.volume.persistent) =
        disks.find? (fits matching v) := rfl
    rw [findMountMatches, fillFirst, hfind]
    cases disks.find? (fits matching v) with
    | none => simp
    | some disk =>
      dsimp only
      rw [ih]
      refine and_congr_right fun _ => and_congr_right fun _ => ?_
      constructor
      · rintro ⟨given, hgiven, rfl⟩
        refine ⟨disk :: given, ?_, ?_⟩
        · rw [hgiven]
          rfl
        · rw [List.zipWith_cons_cons, List.reverse_cons, List.append_assoc]
          rfl
      · rintro ⟨given, hgiven, rfl⟩
        obtain ⟨rest, hrest, rfl⟩ := Option.map_eq_some_iff.mp hgiven
        refine ⟨rest, hrest, ?_⟩
        rw [List.zipWith_cons_cons, List.reverse_cons, List.append_assoc]
        rfl

/-- The requests for a disk type, the biggest ones first. -/
def diskRequests (scratchDisk : ℚ) (volumes : List PersistentVolumeWithMount) (type : DiskType) :
    List Request :=
  (((if 0 < scratchDisk then [Request.scratch scratchDisk] else []) ++
    volumes.map Request.volume).filter fun r => r.diskType = type).mergeSort fun r s => s.size ≤ r.size

theorem diskRequests_mount (scratchDisk : ℚ) (volumes : List PersistentVolumeWithMount) :
    diskRequests scratchDisk volumes .mount = (mountRequests volumes).map Request.volume := by
  have hscratch : (if 0 < scratchDisk then [Request.scratch scratchDisk] else []).filter
      (fun r => r.diskType = .mount) = [] := by
    split_ifs <;> rfl
  have hvolumes : (volumes.map Request.volume).filter (fun r => r.diskType = .mount) =
      (volumes.filter fun v => v.volume.persistent.type = .mount).map Request.volume :=
    List.filter_map
  rw [diskRequests, List.filter_append, hscratch, hvolumes, List.nil_append, mountRequests]
  refine (List.map_mergeSort fun v _ w _ => ?_).symm
  simp only [Request.size, Int.cast_le]

theorem filterMap_diskRequests_mount (scratchDisk : ℚ) (volumes : List PersistentVolumeWithMount) :
    (diskRequests scratchDisk volumes .mount).filterMap Request.persistentVolumeWithMount =
      mountRequests volumes := by
  have hid : Request.persistentVolumeWithMount ∘ Request.volume = some := rfl
  rw [diskRequests_mount, List.filterMap_map, hid, List.filterMap_some]

/-- The disk types for which there are requests. -/
def requestedTypes (matching : Matching) (scratchDisk : ℚ)
    (volumes : List PersistentVolumeWithMount) : List DiskType :=
  matching.diskTypeOrder ((((if 0 < scratchDisk then [Request.scratch scratchDisk] else []) ++
    volumes.map Request.volume).map Request.diskType).eraseDups)

/-- The result for a disk type. -/
def diskResult (matching : Matching) (resources : List Resource) (selector : ResourceSelector)
    (scratchDisk : ℚ) (volumes : List PersistentVolumeWithMount) (scope : Scope) (type : DiskType) :
    ScalarMatchResult :=
  if type = .mount then
    findMountMatches matching scope (mountRequests volumes) (acceptedDisks resources selector type) []
  else
    findMatches matching type scope (diskRequests scratchDisk volumes type)
      (listFromResources matching (acceptedDisks resources selector type)) []

theorem matchDiskResource_eq (matching : Matching) (resources : List Resource)
    (selector : ResourceSelector) (scratchDisk : ℚ) (volumes : List PersistentVolumeWithMount)
    (scope : Scope) :
    matchDiskResource matching resources selector scratchDisk volumes scope =
      (requestedTypes matching scratchDisk volumes).map
        (diskResult matching resources selector scratchDisk volumes scope) := by
  refine List.map_congr_left fun type _ => ?_
  unfold diskResult
  by_cases htype : type = .mount
  · subst htype
    rw [if_pos rfl, if_pos rfl, ← filterMap_diskRequests_mount scratchDisk volumes]
    rfl
  · rw [if_neg htype, if_neg htype]
    rfl

theorem mem_requestedTypes {scratchDisk : ℚ} :
    type ∈ requestedTypes matching scratchDisk volumes ↔
      diskRequests scratchDisk volumes type ≠ [] := by
  have hmem : ∀ r, r ∈ diskRequests scratchDisk volumes type ↔
      r ∈ (if 0 < scratchDisk then [Request.scratch scratchDisk] else []) ++
        volumes.map Request.volume ∧ r.diskType = type := by
    intro r
    rw [diskRequests, List.mem_mergeSort, List.mem_filter, decide_eq_true_iff]
  rw [requestedTypes, (matching.perm_diskTypeOrder _).mem_iff, List.mem_eraseDups, List.mem_map]
  constructor
  · rintro ⟨r, hr, htype⟩
    exact List.ne_nil_of_mem ((hmem r).mpr ⟨hr, htype⟩)
  · intro hne
    obtain ⟨r, hr⟩ := List.exists_mem_of_ne_nil _ hne
    exact ⟨r, (hmem r).mp hr⟩

theorem diskType_findMatches {requests : List Request} {remaining : List SourceResources}
    (h : findMatches matching type scope requests remaining before =
      .diskResourceMatch .mount consumed scope') : type = .mount := by
  induction requests generalizing remaining before with
  | nil =>
    rw [findMatches] at h
    exact (ScalarMatchResult.diskResourceMatch.inj h).1
  | cons request requests ih =>
    rw [findMatches] at h
    split at h
    · cases h
    · exact ih h

theorem exists_of_mount_mem_matchDiskResource {selector : ResourceSelector} {scratchDisk : ℚ}
    (h : .diskResourceMatch .mount consumed scope' ∈
      matchDiskResource matching resources selector scratchDisk volumes scope) :
    ∃ given, fillFirst (fits matching) (mountRequests volumes)
        (acceptedDisks resources selector .mount) = some given ∧
      consumed = (List.zipWith mountConsumption (mountRequests volumes) given).reverse := by
  rw [matchDiskResource_eq] at h
  obtain ⟨type, -, hresult⟩ := List.mem_map.mp h
  unfold diskResult at hresult
  by_cases htype : type = .mount
  · subst htype
    rw [if_pos rfl] at hresult
    obtain ⟨-, -, given, hgiven, hconsumed⟩ := findMountMatches_eq_diskResourceMatch_iff.mp hresult
    rw [List.append_nil] at hconsumed
    exact ⟨given, hgiven, hconsumed⟩
  · rw [if_neg htype] at hresult
    exact absurd (diskType_findMatches hresult) htype

theorem mount_mem_matchDiskResource {selector : ResourceSelector} (scratchDisk : ℚ) (scope : Scope)
    {given : List Resource} (hvolume : ∃ v ∈ volumes, v.volume.persistent.type = .mount)
    (hgiven : fillFirst (fits matching) (mountRequests volumes)
      (acceptedDisks resources selector .mount) = some given) :
    .diskResourceMatch .mount (List.zipWith mountConsumption (mountRequests volumes) given).reverse
        scope ∈
      matchDiskResource matching resources selector scratchDisk volumes scope := by
  obtain ⟨v, hv, htype⟩ := hvolume
  have hrequest : mountRequests volumes ≠ [] := List.ne_nil_of_mem
    (List.mem_mergeSort.mpr (List.mem_filter.mpr ⟨hv, decide_eq_true htype⟩))
  rw [matchDiskResource_eq]
  refine List.mem_map.mpr ⟨.mount, mem_requestedTypes.mpr ?_, ?_⟩
  · rw [diskRequests_mount]
    exact fun hnil => hrequest (List.map_eq_nil_iff.mp hnil)
  · rw [diskResult, if_pos rfl]
    refine findMountMatches_eq_diskResourceMatch_iff.mpr ⟨rfl, rfl, given, hgiven, ?_⟩
    rw [List.append_nil]

/-! ## The smallest disk -/

/-- Each mount volume, from the biggest request to the smallest, has a smallest one of the disks
that fit it and that are not assigned yet. -/
def TakesSmallest (matching : Matching) (resources : List Resource) (selector : ResourceSelector)
    (volumes : List PersistentVolumeWithMount) (given : List Resource) : Prop :=
  BestFit (fits matching) Resource.scalar (mountRequests volumes)
    (acceptedDisks resources selector .mount) given

/-- The disks are offered such that the smallest one that fits a volume is the first one. -/
def OfferedSmallestFirst (matching : Matching) (resources : List Resource)
    (selector : ResourceSelector) (volumes : List PersistentVolumeWithMount) : Prop :=
  SmallestFirst (fits matching) Resource.scalar (mountRequests volumes)
    (acceptedDisks resources selector .mount)

/-- The volumes take the smallest disks exactly if the disks are offered in the right order. -/
theorem takesSmallest_iff (matching : Matching) (offer : ResourceOffer)
    (selector : ResourceSelector) (scratchDisk : ℚ) (volumes : List PersistentVolumeWithMount)
    (scope : Scope) (h : .diskResourceMatch .mount consumed scope' ∈
      matchDiskResource matching offer.resources selector scratchDisk volumes scope) :
    ∃ given, fillFirst (fits matching) (mountRequests volumes)
        (acceptedDisks offer.resources selector .mount) = some given ∧
      consumed = (List.zipWith mountConsumption (mountRequests volumes) given).reverse ∧
      (TakesSmallest matching offer.resources selector volumes given ↔
        OfferedSmallestFirst matching offer.resources selector volumes) := by
  obtain ⟨given, hgiven, hconsumed⟩ := exists_of_mount_mem_matchDiskResource h
  exact ⟨given, hgiven, hconsumed, bestFit_iff hgiven⟩

namespace MountDisks

def mountDisk (root : String) (size : ℚ) : Resource :=
  ⟨.disk, .scalar size, "*", none, none, some ⟨none, none, some ⟨.mount root, none, [], none, none⟩⟩⟩

/-- The larger disk comes first. -/
def offer : ResourceOffer where
  hostname := "host"
  role := "*"
  region := none
  zone := none
  attributes := []
  resources := [mountDisk "/mnt/large" 200, mountDisk "/mnt/small" 100]
  scalar_nonneg := by
    intro r hr _
    simp only [List.mem_cons, List.not_mem_nil, or_false] at hr
    rcases hr with rfl | rfl
    · exact ⟨200, rfl, by norm_num⟩
    · exact ⟨100, rfl, by norm_num⟩

def logs : PersistentVolumeWithMount :=
  ⟨⟨none, ⟨50, none, .mount, none, ∅⟩⟩, ⟨none, "logs", false⟩⟩

def plain : Matching where
  meetsVolume _ _ := true
  sourceOrder := List.reverse
  diskTypeOrder := List.reverse
  perm_sourceOrder := List.reverse_perm
  perm_diskTypeOrder := List.reverse_perm

theorem mountRequests_logs : mountRequests [logs] = [logs] := by
  have hfilter : [logs].filter (fun v => v.volume.persistent.type = .mount) = [logs] := rfl
  rw [mountRequests, hfilter, List.mergeSort_singleton]

theorem acceptedDisks_offer :
    acceptedDisks offer.resources (.any ["*"]) .mount = offer.resources := by decide +kernel

theorem mem_matchDiskResource_logs :
    .diskResourceMatch .mount [mountConsumption logs (mountDisk "/mnt/large" 200)] .includingLocalVolumes ∈
      matchDiskResource plain offer.resources (.any ["*"]) 0 [logs] .includingLocalVolumes := by
  have hgiven : fillFirst (fits plain) (mountRequests [logs])
      (acceptedDisks offer.resources (.any ["*"]) .mount) = some [mountDisk "/mnt/large" 200] := by
    rw [mountRequests_logs, acceptedDisks_offer]
    decide +kernel
  have hmem := mount_mem_matchDiskResource 0 .includingLocalVolumes
    ⟨logs, List.mem_singleton_self _, rfl⟩ hgiven
  rwa [mountRequests_logs] at hmem

theorem takesSmallest_logs :
    ∃ given, fillFirst (fits plain) (mountRequests [logs])
        (acceptedDisks offer.resources (.any ["*"]) .mount) = some given ∧
      [mountConsumption logs (mountDisk "/mnt/large" 200)] =
        (List.zipWith mountConsumption (mountRequests [logs]) given).reverse ∧
      (TakesSmallest plain offer.resources (.any ["*"]) [logs] given ↔
        OfferedSmallestFirst plain offer.resources (.any ["*"]) [logs]) :=
  takesSmallest_iff plain offer (.any ["*"]) 0 [logs] .includingLocalVolumes
    mem_matchDiskResource_logs

/-- A volume of 50 takes a disk of 200 although one of 100 is offered as well. -/
theorem not_forall_takesSmallest :
    ¬∀ (matching : Matching) (offer : ResourceOffer) (selector : ResourceSelector)
      (scratchDisk : ℚ) (volumes : List PersistentVolumeWithMount) (scope scope' : Scope)
      (consumed : List DiskConsumption),
      .diskResourceMatch .mount consumed scope' ∈
          matchDiskResource matching offer.resources selector scratchDisk volumes scope →
        ∃ given, consumed = (List.zipWith mountConsumption (mountRequests volumes) given).reverse ∧
          TakesSmallest matching offer.resources selector volumes given := by
  intro hall
  obtain ⟨given, hconsumed, htakes⟩ := hall plain offer (.any ["*"]) 0 [logs]
    .includingLocalVolumes .includingLocalVolumes _ mem_matchDiskResource_logs
  rw [TakesSmallest, mountRequests_logs, acceptedDisks_offer] at htakes
  rw [mountRequests_logs] at hconsumed
  cases htakes with
  | @cons _ _ disk _ rest _ _ hsmallest hrest =>
    cases hrest
    have hle := hsmallest (mountDisk "/mnt/small" 100) (by decide +kernel) (by decide +kernel)
    have hvalue := congrArg (List.map fun c : DiskConsumption => c.consumedValue) hconsumed
    have hlarge : (200 : ℚ) = disk.scalar := (List.cons.inj hvalue).1
    rw [← hlarge] at hle
    exact absurd hle (by decide +kernel)

end MountDisks

end ResourceMatcher

end Marathon
