import Marathon.Launcher.Constraints
import Marathon.State.RootGroup

/-!
# Matching the resources of an offer

The resources that a run spec needs are taken from those of an offer, name by name. What an offer
has of one name may be split over roles, reservations, providers and disks; the matcher takes what
it needs from one resource after the other.
-/

namespace Marathon

/-! ## Resources as Mesos offers them -/

namespace Mesos

inductive ResourceName
  | cpus
  | mem
  | disk
  | gpus
  | ports
  | custom (name : String)
deriving DecidableEq

structure ReservationInfo where
  principal : Option String
  labels : List (String × String)
deriving DecidableEq

inductive Source.Type
  | path (root : String)
  | mount (root : String)
  | block
  | raw
deriving DecidableEq

structure Source where
  type : Source.Type
  id : Option String
  metadata : List (String × String)
  profile : Option String
  vendor : Option String
deriving DecidableEq

structure DiskInfo where
  persistence : Option String
  /-- The path of a volume in its container. -/
  volume : Option String
  source : Option Source
deriving DecidableEq

inductive Value
  | scalar (value : ℚ)
  | ranges (ranges : List (ℕ × ℕ))
  | set (items : List String)
  | text (value : String)
deriving DecidableEq

structure Resource where
  name : ResourceName
  value : Value
  role : Role
  providerId : Option String
  reservation : Option ReservationInfo
  disk : Option DiskInfo
deriving DecidableEq

namespace Resource

/-- `getScalar.getValue`, zero for a resource that is no scalar. -/
def scalar (r : Resource) : ℚ :=
  match r.value with
  | .scalar value => value
  | _ => 0

/-- `getRanges.getRangeList`, empty for a resource that has no ranges. -/
def rangeList (r : Resource) : List (ℕ × ℕ) :=
  match r.value with
  | .ranges ranges => ranges
  | _ => []

def setScalar (r : Resource) (value : ℚ) : Resource := { r with value := .scalar value }

def getDiskSourceOption (r : Resource) : Option Source := r.disk.bind DiskInfo.source

def hasVolume (r : Resource) : Bool := (r.disk.bind DiskInfo.volume).isSome

end Resource

/-- The resources whose quantities are numbers. -/
def scalarNames : List ResourceName := [.cpus, .mem, .disk, .gpus]

/-- An offer with its resources: what can be counted is not negative. -/
structure ResourceOffer extends Offer where
  resources : List Resource
  scalar_nonneg : ∀ r ∈ resources, r.name ∈ scalarNames → ∃ value, r.value = .scalar value ∧ 0 ≤ value

theorem ResourceOffer.nonneg (offer : ResourceOffer) {r : Resource} (h : r ∈ offer.resources)
    (hname : r.name ∈ scalarNames) : 0 ≤ r.scalar := by
  obtain ⟨value, hvalue, hnonneg⟩ := offer.scalar_nonneg r h hname
  rw [Resource.scalar, hvalue]
  exact hnonneg

end Mesos

open Mesos

/-! ## What run specs need -/

/-- The quantity of one name among the resources that a run spec asks for. -/
def Resources.quantity (r : Resources) : ResourceName → ℚ
  | .cpus => r.cpus
  | .mem => r.mem
  | .disk => r.disk
  | .gpus => r.gpus
  | _ => 0

structure PersistentVolume where
  name : Option String
  persistent : PersistentVolumeInfo
deriving DecidableEq

structure PersistentVolumeWithMount where
  volume : PersistentVolume
  mount : VolumeMount
deriving DecidableEq

def Volume.persistent? : Volume → Option PersistentVolume
  | persistentVolume name persistent => some ⟨name, persistent⟩
  | _ => none

namespace PodDefinition

def aggregateResources (pod : PodDefinition) : Resources where
  cpus := pod.executorResources.cpus + (pod.containers.map fun c => c.resources.cpus).sum
  mem := pod.executorResources.mem + (pod.containers.map fun c => c.resources.mem).sum
  disk := pod.executorResources.disk + (pod.containers.map fun c => c.resources.disk).sum
  gpus := pod.executorResources.gpus + (pod.containers.map fun c => c.resources.gpus).sum

end PodDefinition

namespace RunSpec

def resources : RunSpec → Resources
  | app definition => definition.resources
  | pod definition => definition.aggregateResources

def persistentVolumes (runSpec : RunSpec) : List PersistentVolume :=
  runSpec.volumes.filterMap Volume.persistent?

def diskForPersistentVolumes (runSpec : RunSpec) : ℚ :=
  (runSpec.persistentVolumes.map fun v => (v.persistent.size : ℚ)).sum

/-- The persistent volumes of an app with their mounts. -/
def volumesWithMounts : RunSpec → Except IllegalStateException (List PersistentVolumeWithMount)
  | app definition =>
    let volumes := match definition.container with
      | none => []
      | some (.mesos volumes ..) | some (.docker volumes ..) | some (.mesosDocker volumes ..) => volumes
    .ok <| volumes.filterMap fun v => v.volume.persistent?.map (⟨·, v.mount⟩)
  | pod definition =>
    (definition.volumes.filterMap Volume.persistent?).mapM fun volume =>
      match volume.name with
      | some mountPath => .ok ⟨volume, volume.name, mountPath, false⟩
      | none => .error ⟨"Failed to retrieve a volume name"⟩

end RunSpec

variable {runSpec : RunSpec}

namespace ResourceMatcher

/-! ## The resources that are considered -/

inductive LabelMatcher
  | withReservationLabels (labels : List (String × String))
  | withoutReservationLabels

/-- The keys of the labels that Marathon gives its reservations. -/
def labelKeysForReservations : List String := ["marathon_framework_id", "marathon_task_id"]

/-- The entry of a map that is built from pairs, a later one in place of an earlier one. -/
def labelValue (labels : List (String × String)) (key : String) : Option String :=
  labels.reverse.lookup key

def LabelMatcher.matchesLabels (matcher : LabelMatcher) (resourceLabels : List (String × String)) : Bool :=
  match matcher with
  | withReservationLabels labels => labels.all fun l => labelValue resourceLabels l.1 = some l.2
  | withoutReservationLabels => resourceLabels.all fun l => l.1 ∉ labelKeysForReservations

structure ResourceSelector where
  acceptedRoles : List Role
  needToReserve : Bool
  labelMatcher : LabelMatcher

namespace ResourceSelector

/-- The reservation labels if the resource is reserved. -/
def reservationLabels (resource : Resource) : List (String × String) :=
  (resource.reservation.map ReservationInfo.labels).getD []

/-- Resources with volumes are matched elsewhere or not at all. -/
def accepts (selector : ResourceSelector) (resource : Resource) : Bool :=
  !resource.hasVolume && selector.acceptedRoles.contains resource.role &&
    selector.labelMatcher.matchesLabels (reservationLabels resource)

def any (acceptedRoles : List Role) : ResourceSelector :=
  ⟨acceptedRoles, false, .withoutReservationLabels⟩

end ResourceSelector

/-! ## Consuming resources -/

/-- A (potentially partial) consumption of a scalar resource. -/
structure Consumption where
  consumedValue : ℚ
  role : Role
  providerId : Option String
  reservation : Option ReservationInfo
deriving DecidableEq

def Consumption.of (consumedValue : ℚ) (resource : Resource) : Consumption :=
  ⟨consumedValue, resource.role, resource.providerId, resource.reservation⟩

def isMountDiskResource (resource : Resource) : Bool :=
  match resource.getDiskSourceOption.map Source.type with
  | some (.mount _) => true
  | _ => false

/-- What is left of a scalar resource. -/
def consumeScalarResource (resource : Resource) (amount : ℚ) : Option Resource :=
  if resource.scalar - amount ≤ 0 || isMountDiskResource resource then none
  else some (resource.setScalar (resource.scalar - amount))

/-- The value that could not be had, or what is consumed and what remains. -/
def consumeResources (accept : Resource → Bool) :
    List Resource → ℚ → List Resource → List Consumption →
      Except ℚ (List Consumption × List Resource)
  | [], valueLeft, resourcesNotConsumed, resourcesConsumed =>
    if valueLeft ≤ 0 then .ok (resourcesConsumed, resourcesNotConsumed) else .error valueLeft
  | nextResource :: restResources, valueLeft, resourcesNotConsumed, resourcesConsumed =>
    if valueLeft ≤ 0 then
      .ok (resourcesConsumed, nextResource :: restResources ++ resourcesNotConsumed)
    else if accept nextResource then
      let consume := min valueLeft nextResource.scalar
      consumeResources accept restResources (valueLeft - consume)
        ((consumeScalarResource nextResource consume).toList ++ resourcesNotConsumed)
        (Consumption.of consume nextResource :: resourcesConsumed)
    else
      consumeResources accept restResources valueLeft (nextResource :: resourcesNotConsumed)
        resourcesConsumed

/-! ## Results -/

inductive Scope
  | noneDisk
  | includingLocalVolumes
  | excludingLocalVolumes
deriving DecidableEq

/-- What a consumption of disk is for: the scratch disk or a volume. -/
inductive Request
  | scratch (size : ℚ)
  | volume (v : PersistentVolumeWithMount)
deriving DecidableEq

def Request.size : Request → ℚ
  | scratch size => size
  | volume v => v.volume.persistent.size

structure DiskConsumption extends Consumption where
  source : Option Source
  persistentVolumeWithMount : Option PersistentVolumeWithMount
deriving DecidableEq

inductive ScalarMatchResult
  | noMatch (resourceName : ResourceName) (requiredValue offeredValue : ℚ) (scope : Scope)
  | generalScalarMatch (resourceName : ResourceName) (requiredValue : ℚ)
      (consumed : List Consumption) (scope : Scope)
  | diskResourceMatch (diskType : DiskType) (consumed : List DiskConsumption) (scope : Scope)
  | diskResourceNoMatch (consumed : List DiskConsumption) (resourcesRemaining : List Resource)
      (failedWith : Request) (scope : Scope)
deriving DecidableEq

namespace ScalarMatchResult

def resourceName : ScalarMatchResult → ResourceName
  | noMatch resourceName .. => resourceName
  | generalScalarMatch resourceName .. => resourceName
  | diskResourceMatch .. => .disk
  | diskResourceNoMatch .. => .disk

def requiredValue : ScalarMatchResult → ℚ
  | noMatch _ requiredValue _ _ => requiredValue
  | generalScalarMatch _ requiredValue _ _ => requiredValue
  | diskResourceMatch _ consumed _ => (consumed.map fun c => c.consumedValue).sum
  | diskResourceNoMatch consumed _ failedWith _ =>
    failedWith.size + (consumed.map fun c => c.consumedValue).sum

def isMatch : ScalarMatchResult → Bool
  | generalScalarMatch .. => true
  | diskResourceMatch .. => true
  | _ => false

/-- The resource to ask Mesos for. -/
def consumedResource (name : ResourceName) (c : Consumption) (source : Option Source) : Resource where
  name := name
  value := .scalar c.consumedValue
  role := c.role
  providerId := c.providerId
  reservation := c.reservation
  disk := source.map fun s => ⟨none, none, some s⟩

def consumedResources : ScalarMatchResult → List Resource
  | generalScalarMatch resourceName _ consumed _ =>
    consumed.map fun c => consumedResource resourceName c none
  | diskResourceMatch _ consumed _ =>
    consumed.map fun c => consumedResource .disk c.toConsumption c.source
  | _ => []

end ScalarMatchResult

/-! ## Disks -/

/-- The resources of one disk. -/
structure SourceResources where
  source : Option Source
  resources : List Resource
deriving DecidableEq

def SourceResources.size (s : SourceResources) : ℚ := (s.resources.map Resource.scalar).sum

def diskType (source : Option Source) : Option DiskType :=
  match source.map Source.type with
  | none => some .root
  | some (.path _) => some .path
  | some (.mount _) => some .mount
  | some .block | some .raw => none

/-- The largest path disks first, the smallest mount disks first. -/
def prioritizeDiskResources (diskType : DiskType) (resources : List SourceResources) :
    List SourceResources :=
  match diskType with
  | .root => resources
  | .path => resources.mergeSort fun r s => s.size ≤ r.size
  | .mount => resources.mergeSort fun r s => r.size ≤ s.size

def findDiskGroupMatches (accept : Resource → Bool) (requiredValue : ℚ)
    (allSourceResources : List SourceResources) :
    List SourceResources → Option (Option Source × List Consumption × List SourceResources)
  | [] => none
  | next :: rest =>
    match consumeResources accept next.resources requiredValue [] [] with
    | .error _ => findDiskGroupMatches accept requiredValue allSourceResources rest
    | .ok (resourcesConsumed, remainingAfterConsumption) =>
      let sourceResourcesAfterConsumption :=
        if remainingAfterConsumption.isEmpty then []
        else [{ next with resources := remainingAfterConsumption }]
      some (next.source, resourcesConsumed,
        sourceResourcesAfterConsumption ++ allSourceResources.filter (· ≠ next))

/-- What the matcher asks of others about an offer and a run spec. -/
structure Matching where
  /-- `VolumeConstraints.meetsAllConstraints` and `VolumeProfileMatcher.matchesProfileName`. -/
  meetsVolume : PersistentVolumeInfo → Resource → Bool
  /-- The order in which a map with these keys is traversed. -/
  sourceOrder : List (Option Source) → List (Option Source)
  diskTypeOrder : List DiskType → List DiskType
  perm_sourceOrder : ∀ l, (sourceOrder l).Perm l
  perm_diskTypeOrder : ∀ l, (diskTypeOrder l).Perm l

/-- `groupBy(_.getDiskSourceOption)`. -/
def listFromResources (matching : Matching) (l : List Resource) : List SourceResources :=
  (matching.sourceOrder (l.map Resource.getDiskSourceOption).eraseDups).map fun source =>
    ⟨source, l.filter fun r => r.getDiskSourceOption = source⟩

def requestMatcher (matching : Matching) : Request → Resource → Bool
  | .scratch _, _ => true
  | .volume v, resource => matching.meetsVolume v.volume.persistent resource

def Request.persistentVolumeWithMount : Request → Option PersistentVolumeWithMount
  | scratch _ => none
  | volume v => some v

def findMatches (matching : Matching) (diskType : DiskType) (scope : Scope) :
    List Request → List SourceResources → List DiskConsumption → ScalarMatchResult
  | [], _, resourcesConsumed => .diskResourceMatch diskType resourcesConsumed scope
  | nextAllocation :: restAllocations, resourcesRemaining, resourcesConsumed =>
    let orderedResources := prioritizeDiskResources diskType resourcesRemaining
    match findDiskGroupMatches (requestMatcher matching nextAllocation) nextAllocation.size
        orderedResources orderedResources with
    | none =>
      .diskResourceNoMatch resourcesConsumed (resourcesRemaining.flatMap SourceResources.resources)
        nextAllocation scope
    | some (source, generalConsumptions, decrementedResources) =>
      let consumptions := generalConsumptions.map fun c =>
        ⟨c, source, nextAllocation.persistentVolumeWithMount⟩
      findMatches matching diskType scope restAllocations decrementedResources
        (consumptions ++ resourcesConsumed)

/-- A whole mount disk is taken, of a size that the volume may have. -/
def fitsMount (matching : Matching) (v : PersistentVolumeInfo) (resource : Resource) : Bool :=
  v.size ≤ resource.scalar && resource.scalar ≤ v.maxSize.getD (2 ^ 63 - 1) &&
    matching.meetsVolume v resource

/-- The volume with the size of the disk that it gets. -/
def grown (v : PersistentVolumeWithMount) (size : ℤ) :
    PersistentVolumeWithMount :=
  { v with volume := { v.volume with persistent := { v.volume.persistent with size := size } } }

def findMountMatches (matching : Matching) (scope : Scope) :
    List PersistentVolumeWithMount → List Resource → List DiskConsumption → ScalarMatchResult
  | [], _, resourcesConsumed => .diskResourceMatch .mount resourcesConsumed scope
  | nextAllocation :: restAllocations, resources, resourcesConsumed =>
    match resources.find? (fitsMount matching nextAllocation.volume.persistent) with
    | some matchedResource =>
      let consumption : DiskConsumption :=
        ⟨Consumption.of matchedResource.scalar matchedResource, matchedResource.getDiskSourceOption,
          some (grown nextAllocation ⌊matchedResource.scalar⌋)⟩
      findMountMatches matching scope restAllocations (resources.filter (· ≠ matchedResource))
        (consumption :: resourcesConsumed)
    | none => .diskResourceNoMatch resourcesConsumed resources (.volume nextAllocation) scope

def Request.diskType : Request → DiskType
  | scratch _ => .root
  | volume v => v.volume.persistent.type

/-- Match volumes against disk resources, every type of disk for itself. -/
def matchDiskResource (matching : Matching) (resources : List Resource) (selector : ResourceSelector)
    (scratchDisk : ℚ) (volumesWithMounts : List PersistentVolumeWithMount) (scope : Scope) :
    List ScalarMatchResult :=
  let requests := (if 0 < scratchDisk then [Request.scratch scratchDisk] else []) ++
    volumesWithMounts.map Request.volume
  (matching.diskTypeOrder (requests.map Request.diskType).eraseDups).map fun type =>
    let withBiggestRequestsFirst :=
      (requests.filter fun r => r.diskType = type).mergeSort fun r s => s.size ≤ r.size
    let ofType := resources.filter fun r =>
      r.name = .disk && diskType r.getDiskSourceOption = some type && selector.accepts r
    if type = .mount then
      findMountMatches matching scope
        (withBiggestRequestsFirst.filterMap Request.persistentVolumeWithMount) ofType []
    else
      findMatches matching type scope withBiggestRequestsFirst (listFromResources matching ofType) []

/-! ## Matching an offer -/

def matchScalarResource (resources : List Resource) (selector : ResourceSelector)
    (name : ResourceName) (requiredValue : ℚ) : ScalarMatchResult :=
  let matchingScalarResources := resources.filter fun r => r.name = name && selector.accepts r
  match consumeResources (fun _ => true) matchingScalarResources requiredValue [] [] with
  | .error valueLeft => .noMatch name requiredValue (requiredValue - valueLeft) .noneDisk
  | .ok (resourcesConsumed, _) => .generalScalarMatch name requiredValue resourcesConsumed .noneDisk

/-- The host ports and the resources to ask Mesos for. -/
structure PortsMatch where
  hostPorts : List (Option ℕ)
  resources : List Resource
  name_resources : ∀ r ∈ resources, r.name = .ports
deriving DecidableEq

inductive NoOfferMatchReason
  | insufficientMemory
  | insufficientCpus
  | insufficientDisk
  | insufficientGpus
  | insufficientPorts
  | unfulfilledRole
  | unfulfilledConstraint
  | agentMaintenance
  | noCorrespondingReservationFound
  | declinedScarceResources
deriving DecidableEq

/-- No scalar has another name. -/
def NoOfferMatchReason.fromResourceType : ResourceName → Option NoOfferMatchReason
  | .cpus => some insufficientCpus
  | .disk => some insufficientDisk
  | .gpus => some insufficientGpus
  | .mem => some insufficientMemory
  | .ports => some insufficientPorts
  | .custom _ => none

structure ResourceMatch where
  scalarMatches : List ScalarMatchResult
  portsMatch : PortsMatch
deriving DecidableEq

def ResourceMatch.resources (m : ResourceMatch) : List Resource :=
  m.scalarMatches.flatMap ScalarMatchResult.consumedResources ++ m.portsMatch.resources

inductive ResourceMatchResponse
  | isMatch (resourceMatch : ResourceMatch)
  | noMatch (reasons : List NoOfferMatchReason)
deriving DecidableEq

/-- What else decides whether an offer matches. -/
structure Conditions where
  meetsFaultDomainRequirements : Bool
  meetsAllConstraints : Bool
  checkAvailability : Bool
  /-- Every scheduler plugin accepts the offer. -/
  isMatch : Bool
  checkGpuSchedulingBehaviour : Bool
  portsMatchOpt : Option PortsMatch

namespace Conditions

def reasons (c : Conditions) : List NoOfferMatchReason :=
  (if c.meetsAllConstraints then [] else [.unfulfilledConstraint]) ++
  (if c.checkAvailability then [] else [.unfulfilledConstraint, .agentMaintenance]) ++
  (if c.checkGpuSchedulingBehaviour then [] else [.declinedScarceResources])

def hold (c : Conditions) : Bool :=
  c.meetsFaultDomainRequirements && c.meetsAllConstraints && c.checkAvailability && c.isMatch &&
    c.checkGpuSchedulingBehaviour

end Conditions

/-- Local volumes are matched only if we are making a reservation. -/
def needToReserveDisk (runSpec : RunSpec) (selector : ResourceSelector) : Bool :=
  selector.needToReserve && 0 < runSpec.diskForPersistentVolumes

def diskMatch (matching : Matching) (offer : ResourceOffer) (runSpec : RunSpec)
    (selector : ResourceSelector) : Except IllegalStateException (List ScalarMatchResult) :=
  if needToReserveDisk runSpec selector then
    runSpec.volumesWithMounts.map fun volumesWithMounts =>
      matchDiskResource matching offer.resources selector runSpec.resources.disk volumesWithMounts
        .includingLocalVolumes
  else
    .ok (matchDiskResource matching offer.resources selector runSpec.resources.disk []
      .excludingLocalVolumes)

/-- The results for everything that is needed. -/
def scalarMatchResults (matching : Matching) (offer : ResourceOffer) (runSpec : RunSpec)
    (selector : ResourceSelector) : Except IllegalStateException (List ScalarMatchResult) :=
  (diskMatch matching offer runSpec selector).map fun diskMatch =>
    (([.cpus, .mem, .gpus].map fun name =>
      matchScalarResource offer.resources selector name (runSpec.resources.quantity name)) ++
      diskMatch).filter fun r => r.requiredValue ≠ 0

def noOfferMatchReasons (conditions : Conditions) (offer : ResourceOffer) (selector : ResourceSelector)
    (results : List ScalarMatchResult) : List NoOfferMatchReason :=
  (results.filter fun r => !r.isMatch).filterMap
    (NoOfferMatchReason.fromResourceType ·.resourceName) ++
  (if offer.resources.any selector.accepts then [] else [.unfulfilledRole]) ++ conditions.reasons

/-- Whether the offer has what a run spec needs, either to launch it or to reserve for it. -/
def matchResources (matching : Matching) (conditions : Conditions) (offer : ResourceOffer)
    (runSpec : RunSpec) (selector : ResourceSelector) :
    Except IllegalStateException ResourceMatchResponse :=
  (scalarMatchResults matching offer runSpec selector).map fun results =>
    let noOfferMatchReasons := noOfferMatchReasons conditions offer selector results
    if results.all ScalarMatchResult.isMatch && conditions.hold then
      match conditions.portsMatchOpt with
      | some portsMatch => .isMatch ⟨results.filter ScalarMatchResult.isMatch, portsMatch⟩
      | none => .noMatch (noOfferMatchReasons ++ [.insufficientPorts])
    else .noMatch noOfferMatchReasons

/-! ## What is consumed -/

/-- What is taken of the quantities, one after the other. -/
def taken : List ℚ → ℚ → List ℚ
  | [], _ => []
  | value :: rest, left =>
    if left ≤ 0 then [] else min left value :: taken rest (left - min left value)

theorem taken_of_nonpos {values : List ℚ} {left : ℚ} (h : left ≤ 0) : taken values left = [] := by
  cases values with
  | nil => rfl
  | cons value rest => exact if_pos h

theorem taken_cons_of_pos {value left : ℚ} {rest : List ℚ} (h : ¬ left ≤ 0) :
    taken (value :: rest) left = min left value :: taken rest (left - min left value) := if_neg h

variable {accept : Resource → Bool} {l notConsumed remaining : List Resource} {left : ℚ}
  {before consumed : List Consumption}

theorem consumedValue_consumeResources
    (h : consumeResources accept l left notConsumed before = .ok (consumed, remaining)) :
    consumed.map Consumption.consumedValue =
      (taken ((l.filter accept).map Resource.scalar) left).reverse ++
        before.map Consumption.consumedValue := by
  induction l generalizing left notConsumed before with
  | nil =>
    rw [consumeResources] at h
    split_ifs at h
    cases Except.ok.inj h
    rfl
  | cons r l ih =>
    rw [consumeResources] at h
    by_cases hleft : left ≤ 0
    · rw [if_pos hleft] at h
      cases Except.ok.inj h
      rw [taken_of_nonpos hleft, List.reverse_nil, List.nil_append]
    · rw [if_neg hleft] at h
      by_cases haccept : accept r
      · rw [if_pos haccept] at h
        have hvalues : ((r :: l).filter accept).map Resource.scalar =
            r.scalar :: (l.filter accept).map Resource.scalar := by
          rw [List.filter_cons_of_pos haccept, List.map_cons]
        rw [ih h, hvalues, taken_cons_of_pos hleft]
        simp [Consumption.of]
      · rw [if_neg haccept] at h
        rw [ih h, List.filter_cons_of_neg haccept]

theorem consumeResources_nonneg (hl : ∀ r ∈ l, 0 ≤ r.scalar)
    (hnot : ∀ r ∈ notConsumed, 0 ≤ r.scalar) (hbefore : ∀ c ∈ before, 0 ≤ c.consumedValue)
    (h : consumeResources accept l left notConsumed before = .ok (consumed, remaining)) :
    (∀ c ∈ consumed, 0 ≤ c.consumedValue) ∧ ∀ r ∈ remaining, 0 ≤ r.scalar := by
  induction l generalizing left notConsumed before with
  | nil =>
    rw [consumeResources] at h
    split_ifs at h
    cases h
    exact ⟨hbefore, hnot⟩
  | cons r l ih =>
    obtain ⟨hr, hrest⟩ := List.forall_mem_cons.mp hl
    rw [consumeResources] at h
    by_cases hleft : left ≤ 0
    · rw [if_pos hleft] at h
      cases h
      exact ⟨hbefore, List.forall_mem_append.mpr ⟨hl, hnot⟩⟩
    · rw [if_neg hleft] at h
      by_cases haccept : accept r
      · rw [if_pos haccept] at h
        have hconsume : 0 ≤ min left r.scalar := le_min (not_le.mp hleft).le hr
        apply ih hrest _ _ h
        · refine List.forall_mem_append.mpr ⟨?_, hnot⟩
          intro r' hr'
          rw [Option.mem_toList, consumeScalarResource] at hr'
          split_ifs at hr' with hgone
          cases hr'
          simp only [Bool.or_eq_true, decide_eq_true_eq, not_or, not_le] at hgone
          exact hgone.1.le
        · exact List.forall_mem_cons.mpr ⟨hconsume, hbefore⟩
      · rw [if_neg haccept] at h
        exact ih hrest (List.forall_mem_cons.mpr ⟨hr, hnot⟩) hbefore h

def AllNonneg (l : List SourceResources) : Prop := ∀ s ∈ l, ∀ r ∈ s.resources, 0 ≤ r.scalar

theorem findDiskGroupMatches_nonneg {requiredValue : ℚ} {all l rest : List SourceResources}
    {source : Option Source} {consumed : List Consumption} (hall : AllNonneg all) (hl : AllNonneg l)
    (h : findDiskGroupMatches accept requiredValue all l = some (source, consumed, rest)) :
    (∀ c ∈ consumed, 0 ≤ c.consumedValue) ∧ AllNonneg rest := by
  induction l with
  | nil => cases h
  | cons next l ih =>
    obtain ⟨hnext, hrest⟩ := List.forall_mem_cons.mp hl
    rw [findDiskGroupMatches] at h
    split at h
    · exact ih hrest h
    · rename_i resourcesConsumed remainingAfterConsumption hconsume
      obtain ⟨hconsumed, hremaining⟩ := consumeResources_nonneg hnext
        (fun r hr => absurd hr List.not_mem_nil) (fun c hc => absurd hc List.not_mem_nil) hconsume
      obtain ⟨-, heq⟩ := Prod.mk.inj (Option.some.inj h)
      cases heq
      refine ⟨hconsumed, List.forall_mem_append.mpr ⟨?_, ?_⟩⟩
      · intro s hs
        split_ifs at hs
        · cases hs
        · obtain rfl := List.mem_singleton.mp hs
          exact hremaining
      · intro s hs
        exact hall s (List.mem_of_mem_filter hs)

theorem AllNonneg.prioritize {l : List SourceResources} (h : AllNonneg l) (type : DiskType) :
    AllNonneg (prioritizeDiskResources type l) := by
  intro s hs
  apply h s
  cases type with
  | root => exact hs
  | path => exact List.mem_mergeSort.mp hs
  | mount => exact List.mem_mergeSort.mp hs

def ScalarMatchResult.Nonneg (result : ScalarMatchResult) : Prop :=
  ∀ r ∈ result.consumedResources, 0 ≤ r.scalar

theorem findMatches_nonneg (matching : Matching) (type : DiskType) (scope : Scope)
    {requests : List Request} {resources : List SourceResources} {before : List DiskConsumption}
    (hresources : AllNonneg resources) (hbefore : ∀ c ∈ before, 0 ≤ c.consumedValue) :
    (findMatches matching type scope requests resources before).Nonneg := by
  induction requests generalizing resources before with
  | nil =>
    intro r hr
    obtain ⟨c, hc, rfl⟩ := List.mem_map.mp hr
    exact hbefore c hc
  | cons request requests ih =>
    rw [findMatches]
    have hordered := hresources.prioritize type
    split
    · intro r hr
      cases hr
    · rename_i source generalConsumptions decrementedResources hfound
      obtain ⟨hconsumed, hrest⟩ := findDiskGroupMatches_nonneg hordered hordered hfound
      apply ih hrest
      refine List.forall_mem_append.mpr ⟨?_, hbefore⟩
      intro c hc
      obtain ⟨g, hg, rfl⟩ := List.mem_map.mp hc
      exact hconsumed g hg

theorem findMountMatches_nonneg (matching : Matching) (scope : Scope)
    {volumes : List PersistentVolumeWithMount} {resources : List Resource}
    {before : List DiskConsumption} (hresources : ∀ r ∈ resources, 0 ≤ r.scalar)
    (hbefore : ∀ c ∈ before, 0 ≤ c.consumedValue) :
    (findMountMatches matching scope volumes resources before).Nonneg := by
  induction volumes generalizing resources before with
  | nil =>
    intro r hr
    obtain ⟨c, hc, rfl⟩ := List.mem_map.mp hr
    exact hbefore c hc
  | cons volume volumes ih =>
    rw [findMountMatches]
    split
    · rename_i matched hfound
      apply ih
      · intro r hr
        exact hresources r (List.mem_of_mem_filter hr)
      · have hmatched := hresources matched (List.mem_of_find?_eq_some hfound)
        exact List.forall_mem_cons.mpr ⟨hmatched, hbefore⟩
    · intro r hr
      cases hr

theorem matchDiskResource_nonneg (matching : Matching) (offer : ResourceOffer)
    (selector : ResourceSelector) (scratchDisk : ℚ) (volumes : List PersistentVolumeWithMount)
    (scope : Scope) :
    ∀ result ∈ matchDiskResource matching offer.resources selector scratchDisk volumes scope,
      result.Nonneg := by
  intro result hresult
  obtain ⟨type, -, rfl⟩ := List.mem_map.mp hresult
  have hresources : ∀ r ∈ offer.resources.filter fun r =>
      r.name = .disk && diskType r.getDiskSourceOption = some type && selector.accepts r,
      0 ≤ r.scalar := by
    intro r hr
    obtain ⟨hmem, hr⟩ := List.mem_filter.mp hr
    simp only [Bool.and_eq_true, decide_eq_true_eq] at hr
    exact offer.nonneg hmem (hr.1.1 ▸ by decide)
  dsimp only
  split
  · exact findMountMatches_nonneg matching scope hresources fun c hc => absurd hc List.not_mem_nil
  · apply findMatches_nonneg matching type scope
    · intro s hs r hr
      obtain ⟨source, -, rfl⟩ := List.mem_map.mp hs
      exact hresources r (List.mem_of_mem_filter hr)
    · exact fun c hc => absurd hc List.not_mem_nil

theorem matchScalarResource_nonneg (offer : ResourceOffer) (selector : ResourceSelector)
    {name : ResourceName} (hname : name ∈ scalarNames) (requiredValue : ℚ) :
    (matchScalarResource offer.resources selector name requiredValue).Nonneg := by
  unfold matchScalarResource
  dsimp only
  split
  · intro r hr
    cases hr
  · rename_i consumed remaining hconsume
    intro r hr
    obtain ⟨c, hc, rfl⟩ := List.mem_map.mp hr
    have hresources : ∀ r ∈ offer.resources.filter fun r => r.name = name && selector.accepts r,
        0 ≤ r.scalar := by
      intro r hr
      obtain ⟨hmem, hr⟩ := List.mem_filter.mp hr
      simp only [Bool.and_eq_true, decide_eq_true_eq] at hr
      exact offer.nonneg hmem (hr.1 ▸ hname)
    exact (consumeResources_nonneg hresources (fun r hr => absurd hr List.not_mem_nil)
      (fun c hc => absurd hc List.not_mem_nil) hconsume).1 c hc

theorem diskMatch_nonneg {matching : Matching} {offer : ResourceOffer}
    {selector : ResourceSelector} {results : List ScalarMatchResult}
    (h : diskMatch matching offer runSpec selector = .ok results) :
    ∀ result ∈ results, result.Nonneg := by
  unfold diskMatch at h
  split_ifs at h
  · cases hvolumes : runSpec.volumesWithMounts with
    | error e =>
      rw [hvolumes] at h
      cases h
    | ok volumes =>
      rw [hvolumes] at h
      cases h
      exact matchDiskResource_nonneg matching offer selector _ volumes _
  · cases h
    exact matchDiskResource_nonneg matching offer selector _ [] _

/-! ## What a match has of each name -/

def ResourceMatch.chunks (m : ResourceMatch) (name : ResourceName) : List Resource :=
  m.resources.filter fun r => r.name = name

def ResourceMatch.amounts (m : ResourceMatch) (name : ResourceName) : List ℚ :=
  (m.chunks name).map Resource.scalar

theorem matchResources_eq_isMatch {matching : Matching} {conditions : Conditions}
    {offer : ResourceOffer} {selector : ResourceSelector} {m : ResourceMatch}
    (h : matchResources matching conditions offer runSpec selector = .ok (.isMatch m)) :
    ∃ results, scalarMatchResults matching offer runSpec selector = .ok results ∧
      (∀ r ∈ results, r.isMatch = true) ∧ m.scalarMatches = results ∧
      conditions.portsMatchOpt = some m.portsMatch := by
  unfold matchResources at h
  cases hresults : scalarMatchResults matching offer runSpec selector with
  | error e =>
    rw [hresults] at h
    cases h
  | ok results =>
    rw [hresults] at h
    replace h := Except.ok.inj h
    dsimp only at h
    by_cases hall : (results.all ScalarMatchResult.isMatch && conditions.hold) = true
    · rw [if_pos hall] at h
      have hmatch := List.all_eq_true.mp (Bool.and_eq_true_iff.mp hall).1
      cases hports : conditions.portsMatchOpt with
      | none =>
        rw [hports] at h
        cases h
      | some portsMatch =>
        rw [hports] at h
        cases h
        exact ⟨results, rfl, hmatch, List.filter_eq_self.mpr hmatch, rfl⟩
    · rw [if_neg hall] at h
      cases h

/-- Every result is a match, and those that take nothing are left out. -/
theorem scalarMatches_of_isMatch {matching : Matching} {conditions : Conditions}
    {offer : ResourceOffer} {selector : ResourceSelector} {m : ResourceMatch}
    (h : matchResources matching conditions offer runSpec selector = .ok (.isMatch m)) :
    scalarMatchResults matching offer runSpec selector = .ok m.scalarMatches ∧
      ∀ r ∈ m.scalarMatches, r.isMatch = true := by
  obtain ⟨results, hresults, hmatch, rfl, -⟩ := matchResources_eq_isMatch h
  exact ⟨hresults, hmatch⟩

theorem scalarMatchResults_eq_ok {matching : Matching} {offer : ResourceOffer}
    {selector : ResourceSelector} {results : List ScalarMatchResult}
    (h : scalarMatchResults matching offer runSpec selector = .ok results) :
    ∃ disk, diskMatch matching offer runSpec selector = .ok disk ∧
      results = (([.cpus, .mem, .gpus].map fun name =>
        matchScalarResource offer.resources selector name (runSpec.resources.quantity name)) ++
        disk).filter fun r => r.requiredValue ≠ 0 := by
  unfold scalarMatchResults at h
  cases hdisk : diskMatch matching offer runSpec selector with
  | error e =>
    rw [hdisk] at h
    cases h
  | ok disk =>
    rw [hdisk] at h
    exact ⟨disk, rfl, (Except.ok.inj h).symm⟩

/-- No chunk of a match is negative. -/
theorem amounts_nonneg {matching : Matching} {conditions : Conditions} {offer : ResourceOffer}
    {selector : ResourceSelector} {m : ResourceMatch}
    (h : matchResources matching conditions offer runSpec selector = .ok (.isMatch m))
    {name : ResourceName} (hname : name ∈ scalarNames) : ∀ amount ∈ m.amounts name, 0 ≤ amount := by
  obtain ⟨disk, hdisk, hresults⟩ := scalarMatchResults_eq_ok (scalarMatches_of_isMatch h).1
  intro amount hamount
  obtain ⟨r, hr, rfl⟩ := List.mem_map.mp hamount
  obtain ⟨hmem, hrname⟩ := List.mem_filter.mp hr
  obtain hscalar | hports := List.mem_append.mp hmem
  · obtain ⟨result, hresult, hr⟩ := List.mem_flatMap.mp hscalar
    rw [hresults] at hresult
    obtain hmem' | hmem' := List.mem_append.mp (List.mem_of_mem_filter hresult)
    · obtain ⟨name', hname', rfl⟩ := List.mem_map.mp hmem'
      have hscalarName : name' ∈ scalarNames := by
        simp only [List.mem_cons, List.not_mem_nil, or_false] at hname'
        rcases hname' with rfl | rfl | rfl <;> decide
      exact matchScalarResource_nonneg offer selector hscalarName _ r hr
    · exact diskMatch_nonneg hdisk result hmem' r hr
  · have hname' := m.portsMatch.name_resources r hports
    rw [of_decide_eq_true hrname] at hname'
    rw [hname'] at hname
    exact absurd hname (by decide)

/-! ## The chunks of a match, from the offer -/

/-- The quantities of one name that may be taken, of disks those of the root disk. -/
def offered (offer : ResourceOffer) (selector : ResourceSelector) (name : ResourceName) : List ℚ :=
  (offer.resources.filter fun r =>
    r.name = name && (name ≠ .disk || diskType r.getDiskSourceOption = some .root) &&
      selector.accepts r).map Resource.scalar

theorem sum_taken {l : List Resource} (hleft : 0 ≤ left)
    (h : consumeResources accept l left notConsumed before = .ok (consumed, remaining)) :
    (taken ((l.filter accept).map Resource.scalar) left).sum = left := by
  induction l generalizing left notConsumed before with
  | nil =>
    rw [consumeResources] at h
    split_ifs at h with hnonpos
    exact le_antisymm hleft hnonpos
  | cons r l ih =>
    rw [consumeResources] at h
    by_cases hnonpos : left ≤ 0
    · rw [taken_of_nonpos hnonpos]
      exact le_antisymm hleft hnonpos
    · rw [if_neg hnonpos] at h
      by_cases haccept : accept r
      · rw [if_pos haccept] at h
        have hvalues : ((r :: l).filter accept).map Resource.scalar =
            r.scalar :: (l.filter accept).map Resource.scalar := by
          rw [List.filter_cons_of_pos haccept, List.map_cons]
        have hrest := ih (sub_nonneg.mpr (min_le_left left r.scalar)) h
        rw [hvalues, taken_cons_of_pos hnonpos, List.sum_cons, hrest, add_sub_cancel]
      · rw [if_neg haccept] at h
        rw [List.filter_cons_of_neg haccept]
        exact ih hleft h

theorem name_consumedResources (result : ScalarMatchResult) :
    ∀ r ∈ result.consumedResources, r.name = result.resourceName := by
  cases result with
  | noMatch => exact fun r hr => absurd hr List.not_mem_nil
  | generalScalarMatch name _ consumed =>
    intro r hr
    obtain ⟨c, -, rfl⟩ := List.mem_map.mp hr
    rfl
  | diskResourceMatch type consumed scope =>
    intro r hr
    obtain ⟨c, -, rfl⟩ := List.mem_map.mp hr
    rfl
  | diskResourceNoMatch => exact fun r hr => absurd hr List.not_mem_nil

/-- What a result has of a name, nothing if it is left out. -/
def contribution (name : ResourceName) (result : ScalarMatchResult) : List ℚ :=
  if result.requiredValue ≠ 0 ∧ result.resourceName = name then
    result.consumedResources.map Resource.scalar
  else []

theorem amounts_filter (results : List ScalarMatchResult) (name : ResourceName) :
    (((results.filter fun r => r.requiredValue ≠ 0).flatMap
      ScalarMatchResult.consumedResources).filter fun r => r.name = name).map Resource.scalar =
      results.flatMap (contribution name) := by
  induction results with
  | nil => rfl
  | cons result results ih =>
    rw [List.flatMap_cons, ← ih, contribution]
    by_cases hrequired : result.requiredValue = 0
    · rw [List.filter_cons_of_neg (by simp [hrequired]), if_neg fun h => h.1 hrequired,
        List.nil_append]
    · rw [List.filter_cons_of_pos (by simp [hrequired]), List.flatMap_cons, List.filter_append,
        List.map_append]
      congr 1
      by_cases hname : result.resourceName = name
      · rw [if_pos ⟨hrequired, hname⟩, List.filter_eq_self.mpr]
        intro r hr
        exact decide_eq_true ((name_consumedResources result r hr).trans hname)
      · rw [if_neg fun h => hname h.2, List.filter_eq_nil_iff.mpr, List.map_nil]
        intro r hr hrname
        exact hname ((name_consumedResources result r hr).symm.trans (of_decide_eq_true hrname))

theorem consumedResources_matchScalarResource (resources : List Resource)
    (selector : ResourceSelector) (name : ResourceName) (required : ℚ) :
    let result := matchScalarResource resources selector name required
    result.resourceName = name ∧ result.requiredValue = required ∧
      (result.isMatch = true → result.consumedResources.map Resource.scalar =
        (taken ((resources.filter fun r => r.name = name && selector.accepts r).map
          Resource.scalar) required).reverse) := by
  unfold matchScalarResource
  dsimp only
  split
  · exact ⟨rfl, rfl, fun h => absurd h Bool.false_ne_true⟩
  · rename_i consumed remaining hconsume
    refine ⟨rfl, rfl, fun _ => ?_⟩
    have hvalues := consumedValue_consumeResources hconsume
    rw [List.filter_true, List.map_nil, List.append_nil] at hvalues
    rw [← hvalues]
    exact List.map_map

theorem contribution_matchScalarResource (offer : ResourceOffer) (selector : ResourceSelector)
    {name name' : ResourceName} (hdisk : name' ≠ .disk) (required : ℚ)
    (h : required ≠ 0 → (matchScalarResource offer.resources selector name' required).isMatch = true) :
    contribution name (matchScalarResource offer.resources selector name' required) =
      if name' = name then (taken (offered offer selector name') required).reverse else [] := by
  obtain ⟨hname, hrequired, hvalues⟩ :=
    consumedResources_matchScalarResource offer.resources selector name' required
  have hoffered : (offer.resources.filter fun r => r.name = name' && selector.accepts r).map
      Resource.scalar = offered offer selector name' := by
    unfold offered
    simp [hdisk]
  rw [contribution, hname, hrequired]
  by_cases hzero : required = 0
  · simp [hzero, taken_of_nonpos]
  · rw [hvalues (h hzero), hoffered]
    simp [hzero]

theorem diskType_eq_root_iff {source : Option Source} : diskType source = some .root ↔ source = none := by
  cases source with
  | none => exact iff_of_true rfl rfl
  | some s =>
    apply iff_of_false _ (Option.some_ne_none s)
    unfold diskType
    cases htype : s.type <;> simp [htype]

theorem eraseDups_replicate_none {l : List (Option Source)} (hne : l ≠ []) (h : ∀ s ∈ l, s = none) :
    l.eraseDups = [none] := by
  cases l with
  | nil => exact absurd rfl hne
  | cons s l =>
    obtain ⟨rfl, hl⟩ := List.forall_mem_cons.mp h
    have hnil : l.filter (fun s => !s == none) = [] := by
      rw [List.filter_eq_nil_iff]
      intro s hs
      simp [hl s hs]
    rw [List.eraseDups_cons, hnil, List.eraseDups_nil]

/-- There is only one root disk. -/
theorem listFromResources_root (matching : Matching) {l : List Resource}
    (h : ∀ r ∈ l, r.getDiskSourceOption = none) :
    listFromResources matching l = if l = [] then [] else [⟨none, l⟩] := by
  unfold listFromResources
  by_cases hl : l = []
  · rw [if_pos hl, hl]
    have hnil := matching.perm_sourceOrder []
    rw [List.map_nil, List.eraseDups_nil, hnil.eq_nil, List.map_nil]
  · have hsources : (l.map Resource.getDiskSourceOption).eraseDups = [none] := by
      apply eraseDups_replicate_none
      · simpa using hl
      · intro s hs
        obtain ⟨r, hr, rfl⟩ := List.mem_map.mp hs
        exact h r hr
    have horder := List.perm_singleton.mp (matching.perm_sourceOrder [none])
    have hall : (l.filter fun r => r.getDiskSourceOption = none) = l := by
      rw [List.filter_eq_self]
      exact fun r hr => decide_eq_true (h r hr)
    rw [if_neg hl, hsources, horder, List.map_singleton, hall]

theorem matchDiskResource_scratch (matching : Matching) (offer : ResourceOffer)
    (selector : ResourceSelector) {scratchDisk : ℚ} (hpos : 0 < scratchDisk) (scope : Scope) :
    ∃ result, matchDiskResource matching offer.resources selector scratchDisk [] scope = [result] ∧
      result.resourceName = .disk ∧ result.requiredValue = scratchDisk ∧
      (result.isMatch = true → result.consumedResources.map Resource.scalar =
        (taken (offered offer selector .disk) scratchDisk).reverse) := by
  let ofType := offer.resources.filter fun r =>
    r.name = .disk && diskType r.getDiskSourceOption = some .root && selector.accepts r
  have hroot : ∀ r ∈ ofType, r.getDiskSourceOption = none := by
    intro r hr
    have htype := (List.mem_filter.mp hr).2
    simp only [Bool.and_eq_true, decide_eq_true_eq] at htype
    exact diskType_eq_root_iff.mp htype.1.2
  have hoffered : ofType.map Resource.scalar = offered offer selector .disk := by
    unfold offered
    simp [ofType]
  have hdef : matchDiskResource matching offer.resources selector scratchDisk [] scope =
      [findMatches matching .root scope [.scratch scratchDisk]
        (if ofType = [] then [] else [⟨none, ofType⟩]) []] := by
    have horder := List.perm_singleton.mp (matching.perm_diskTypeOrder [.root])
    have htypes : (([Request.scratch scratchDisk] ++ List.map Request.volume []).map
        Request.diskType).eraseDups = [.root] := rfl
    have hsorted : (([Request.scratch scratchDisk] ++ List.map Request.volume []).filter fun r =>
        r.diskType = .root).mergeSort (fun r s => s.size ≤ r.size) = [.scratch scratchDisk] := by
      simp [Request.diskType]
    rw [← listFromResources_root matching hroot]
    unfold matchDiskResource
    rw [if_pos hpos]
    dsimp only
    rw [htypes, horder, List.map_singleton, hsorted, if_neg (by decide)]
  refine ⟨_, hdef, ?_⟩
  rw [findMatches]
  by_cases hnil : ofType = []
  · rw [if_pos hnil]
    exact ⟨rfl, add_zero scratchDisk, fun h => absurd h Bool.false_ne_true⟩
  · rw [if_neg hnil]
    dsimp only [prioritizeDiskResources]
    rw [findDiskGroupMatches]
    cases hconsume : consumeResources (requestMatcher matching (.scratch scratchDisk)) ofType
        scratchDisk [] [] with
    | error valueLeft =>
      dsimp only [Request.size]
      rw [hconsume]
      exact ⟨rfl, add_zero scratchDisk, fun h => absurd h Bool.false_ne_true⟩
    | ok result =>
      obtain ⟨consumed, remaining⟩ := result
      have hall : ofType.filter (requestMatcher matching (.scratch scratchDisk)) = ofType :=
        List.filter_true ofType
      have hsum := sum_taken hpos.le hconsume
      have hvalues := consumedValue_consumeResources hconsume
      rw [hall, hoffered] at hsum hvalues
      rw [List.map_nil, List.append_nil] at hvalues
      dsimp only [Request.size]
      rw [hconsume]
      dsimp only [findMatches]
      refine ⟨rfl, ?_, fun _ => ?_⟩
      · rw [ScalarMatchResult.requiredValue, List.append_nil, List.map_map]
        calc (consumed.map Consumption.consumedValue).sum
            = (taken (offered offer selector .disk) scratchDisk).reverse.sum := by rw [hvalues]
          _ = scratchDisk := by rw [List.sum_reverse, hsum]
      · rw [← hvalues, ScalarMatchResult.consumedResources, List.append_nil, List.map_map,
          List.map_map]
        rfl

theorem matchDiskResource_nothing (matching : Matching) (offer : ResourceOffer)
    (selector : ResourceSelector) {scratchDisk : ℚ} (h : ¬ 0 < scratchDisk) (scope : Scope) :
    matchDiskResource matching offer.resources selector scratchDisk [] scope = [] := by
  have hnil := (matching.perm_diskTypeOrder []).eq_nil
  have htypes : (([] ++ List.map Request.volume []).map Request.diskType).eraseDups = [] := rfl
  unfold matchDiskResource
  rw [if_neg h]
  dsimp only
  rw [htypes, hnil, List.map_nil]

theorem flatMap_contribution_matchDiskResource (matching : Matching) (offer : ResourceOffer)
    (selector : ResourceSelector) (name : ResourceName) (scratchDisk : ℚ) (scope : Scope)
    (h : ∀ r ∈ matchDiskResource matching offer.resources selector scratchDisk [] scope,
      r.requiredValue ≠ 0 → r.isMatch = true) :
    (matchDiskResource matching offer.resources selector scratchDisk [] scope).flatMap
      (contribution name) =
        if .disk = name then (taken (offered offer selector .disk) scratchDisk).reverse else [] := by
  by_cases hpos : 0 < scratchDisk
  · obtain ⟨result, hresult, hname, hrequired, hvalues⟩ :=
      matchDiskResource_scratch matching offer selector hpos scope
    rw [hresult] at h ⊢
    have hmatch := h result List.mem_cons_self (by rw [hrequired]; exact hpos.ne')
    rw [List.flatMap_singleton, contribution, hname, hrequired, hvalues hmatch]
    simp [hpos.ne']
  · rw [matchDiskResource_nothing matching offer selector hpos, List.flatMap_nil,
      taken_of_nonpos (not_lt.mp hpos)]
    simp

/-- The chunks of each name are what the offer has of it, cut at what is needed. -/
theorem amounts_of_isMatch {matching : Matching} {conditions : Conditions} {offer : ResourceOffer}
    {selector : ResourceSelector} {m : ResourceMatch}
    (h : matchResources matching conditions offer runSpec selector = .ok (.isMatch m))
    (hreserve : needToReserveDisk runSpec selector = false) {name : ResourceName}
    (hname : name ∈ scalarNames) :
    m.amounts name =
      (taken (offered offer selector name) (runSpec.resources.quantity name)).reverse := by
  obtain ⟨hok, hmatch⟩ := scalarMatches_of_isMatch h
  obtain ⟨disk, hdisk, hresults⟩ := scalarMatchResults_eq_ok hok
  unfold diskMatch at hdisk
  rw [if_neg (by simp [hreserve])] at hdisk
  cases hdisk
  have hports : m.portsMatch.resources.filter (fun r => r.name = name) = [] := by
    rw [List.filter_eq_nil_iff]
    intro r hr hrname
    rw [← of_decide_eq_true hrname, m.portsMatch.name_resources r hr] at hname
    exact absurd hname (by decide)
  have hall : ∀ r ∈ ([ResourceName.cpus, .mem, .gpus].map fun name =>
      matchScalarResource offer.resources selector name (runSpec.resources.quantity name)) ++
      matchDiskResource matching offer.resources selector runSpec.resources.disk []
        .excludingLocalVolumes, r.requiredValue ≠ 0 → r.isMatch = true := by
    intro r hr hrequired
    apply hmatch
    rw [hresults]
    exact List.mem_filter.mpr ⟨hr, decide_eq_true hrequired⟩
  obtain ⟨hscalar, hdisk⟩ := List.forall_mem_append.mp hall
  have hcontribution : ∀ name' ∈ [ResourceName.cpus, .mem, .gpus],
      contribution name (matchScalarResource offer.resources selector name'
        (runSpec.resources.quantity name')) =
        if name' = name then
          (taken (offered offer selector name') (runSpec.resources.quantity name')).reverse
        else [] := by
    intro name' hname'
    apply contribution_matchScalarResource
    · rintro rfl
      exact absurd hname' (by decide)
    · intro hrequired
      apply hscalar _ (List.mem_map_of_mem hname')
      rwa [(consumedResources_matchScalarResource offer.resources selector name' _).2.1]
  have hcpus := hcontribution .cpus (by decide)
  have hmem := hcontribution .mem (by decide)
  have hgpus := hcontribution .gpus (by decide)
  rw [ResourceMatch.amounts, ResourceMatch.chunks, ResourceMatch.resources, List.filter_append,
    hports, List.append_nil, hresults, amounts_filter, List.flatMap_append,
    flatMap_contribution_matchDiskResource matching offer selector name _ _ hdisk]
  simp only [List.map_cons, List.map_nil, List.flatMap_cons, List.flatMap_nil, List.append_nil,
    hcpus, hmem, hgpus]
  simp only [scalarNames, List.mem_cons, List.not_mem_nil, or_false] at hname
  rcases hname with rfl | rfl | rfl | rfl <;> simp [Resources.quantity]

end ResourceMatcher

end Marathon
