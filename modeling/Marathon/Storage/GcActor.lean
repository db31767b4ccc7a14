import Marathon.Lib.Machine
import Marathon.Storage.ScanCoverage

/-!
# The garbage collector

`GcActor` with everything it races with: the reads of the running scan, the deletions of
the running compaction, the requests to store run specs, roots and plans, and the writes
that follow when their promises are completed. One event is one message handled, one read,
one deletion or one write, so that a run is any interleaving of these.
-/

namespace Marathon.Storage.GcActor

open Lib

/-! ## Requests to store -/

/-- What the collector and the repository use of a `DeploymentPlan`. -/
structure DeploymentPlan where
  id : String
  original : RootGroup
  target : RootGroup
  version : Timestamp

def DeploymentPlan.stored (plan : DeploymentPlan) : StoredPlan where
  id := plan.id
  originalVersion := plan.original.version
  targetVersion := plan.target.version
  version := plan.version

/-- What is to be stored: `current` tells `store` from `storeVersion`, and `storeRoot` from
`storeRootVersion`. -/
inductive Entity
  | runSpec (kind : Kind) (id : AbsolutePathId) (version : Timestamp) (current : Bool)
  | root (root : RootGroup) (current : Bool)
  | plan (plan : DeploymentPlan)

def Entity.isRunSpec : Entity → Bool
  | runSpec .. => true
  | _ => false

/-- The roots that a request for the entity stores, or needs to be stored. -/
def Entity.roots : Entity → List StoredGroup
  | .runSpec .. => []
  | .root group _ => [StoredGroup.ofGroup group]
  | .plan p => [StoredGroup.ofGroup p.original, StoredGroup.ofGroup p.target]

/-- The promise of one part of a request. -/
structure Promise where
  request : ℕ
  part : ℕ
deriving DecidableEq

/-- One promise that a request waits for, and the roots that its approval is about. -/
structure Part where
  roots : List StoredGroup
  approved : Bool

structure Request where
  entity : Entity
  parts : List Part
  written : Bool

namespace Request

def approved (request : Request) : Bool := request.parts.all Part.approved

/-- The roots that the parts are about. -/
def roots (request : Request) : List StoredGroup := request.parts.flatMap Part.roots

/-- The part at the position is approved. -/
def approvePart (request : Request) (position : ℕ) (part : Part) : Request :=
  { request with parts := request.parts.set position { part with approved := true } }

/-- A request as it is made: it waits for one promise. -/
def make (entity : Entity) : Request where
  entity := entity
  parts := [⟨entity.roots, false⟩]
  written := false

end Request

/-! ## The actor -/

inductive Message
  | scanDone (done : ScanDone)
  | runGC
  | compactDone
  | wakeUp
  | storeApp (appId : AbsolutePathId) (version : Option Timestamp) (promise : Promise)
  | storePod (podId : AbsolutePathId) (version : Option Timestamp) (promise : Promise)
  | storeRoot (root : StoredGroup) (promise : Promise)
  | storePlan (plan : DeploymentPlan) (promise : Promise)

/-- The message of a request. -/
def Entity.message (promise : Promise) : Entity → Message
  | .runSpec .app id version current =>
    .storeApp id (if current then none else some version) promise
  | .runSpec .pod id version current =>
    .storePod id (if current then none else some version) promise
  | .root group _ => .storeRoot (StoredGroup.ofGroup group) promise
  | .plan p => .storePlan p promise

structure UpdatedEntities where
  appsStored : Finset AbsolutePathId
  appVersionsStored : SetMap AbsolutePathId Timestamp
  podsStored : Finset AbsolutePathId
  podVersionsStored : SetMap AbsolutePathId Timestamp
  rootsStored : Finset Timestamp
  gcRequested : Bool

/-- `UpdatedEntities()`. -/
def UpdatedEntities.empty : UpdatedEntities where
  appsStored := ∅
  appVersionsStored := ∅
  podsStored := ∅
  podVersionsStored := ∅
  rootsStored := ∅
  gcRequested := false

structure BlockedEntities where
  appsDeleting : Finset AbsolutePathId
  appVersionsDeleting : SetMap AbsolutePathId Timestamp
  podsDeleting : Finset AbsolutePathId
  podVersionsDeleting : SetMap AbsolutePathId Timestamp
  rootsDeleting : Finset Timestamp
  promises : List Promise
  gcRequested : Bool

/-- The state of the actor with its data. -/
inductive Data
  | resting
  | readyForGc
  | scanning (updates : UpdatedEntities)
  | compacting (blocked : BlockedEntities)

/-- One deletion of a compaction. -/
inductive Deletion
  | id (kind : Kind) (id : AbsolutePathId)
  | version (kind : Kind) (id : AbsolutePathId) (version : Timestamp)
  | root (version : Timestamp)
deriving DecidableEq

/-- A compaction deletes apps, app versions, pods, pod versions and roots, in this order. -/
def Deletion.stage : Deletion → ℕ
  | id .app _ => 0
  | version .app .. => 1
  | id .pod _ => 2
  | version .pod .. => 3
  | root _ => 4

namespace BlockedEntities

def idsDeleting (blocked : BlockedEntities) : Kind → Finset AbsolutePathId
  | .app => blocked.appsDeleting
  | .pod => blocked.podsDeleting

def versionsDeleting (blocked : BlockedEntities) : Kind → SetMap AbsolutePathId Timestamp
  | .app => blocked.appVersionsDeleting
  | .pod => blocked.podVersionsDeleting

/-- The deletions of one kind of run specs. -/
def deletionsOf (blocked : BlockedEntities) (kind : Kind) : Finset Deletion :=
  (blocked.idsDeleting kind).image (.id kind) ∪
    (blocked.versionsDeleting kind).keys.toFinset.biUnion fun id =>
      ((blocked.versionsDeleting kind).get id).image (.version kind id)

/-- Everything that `compact` deletes. -/
def deletions (blocked : BlockedEntities) : Finset Deletion :=
  blocked.deletionsOf .app ∪ blocked.deletionsOf .pod ∪ blocked.rootsDeleting.image .root

/-- The promise is kept until the compaction is done. -/
def block (blocked : BlockedEntities) (promise : Promise) : BlockedEntities :=
  { blocked with promises := promise :: blocked.promises }

/-- Whether storing a run spec, in a version or as the current one, has to wait. -/
def blocksRunSpec (blocked : BlockedEntities) (kind : Kind) (id : AbsolutePathId)
    (version : Option Timestamp) : Bool :=
  id ∈ blocked.idsDeleting kind ||
    version.any fun v => ((blocked.versionsDeleting kind).lookup id).any fun vs => v ∈ vs

/-- Whether storing a root has to wait: its pods are not looked at. -/
def blocksRoot (blocked : BlockedEntities) (root : StoredGroup) : Bool :=
  root.version ∈ blocked.rootsDeleting ||
    (blocked.appsDeleting ∩ root.transitiveAppIds.keys.toFinset).Nonempty ||
    (blocked.appVersionsDeleting.keys.toFinset ∩ root.transitiveAppIds.keys.toFinset).Nonempty

end BlockedEntities

namespace UpdatedEntities

def versionsStored (updates : UpdatedEntities) : Kind → SetMap AbsolutePathId Timestamp
  | .app => updates.appVersionsStored
  | .pod => updates.podVersionsStored

def addApp (updates : UpdatedEntities) (id : AbsolutePathId) :
    Option Timestamp → UpdatedEntities
  | some version =>
    { updates with appVersionsStored := updates.appVersionsStored.addBinding id version }
  | none => { updates with appsStored := insert id updates.appsStored }

def addPod (updates : UpdatedEntities) (id : AbsolutePathId) :
    Option Timestamp → UpdatedEntities
  | some version =>
    { updates with podVersionsStored := updates.podVersionsStored.addBinding id version }
  | none => { updates with podsStored := insert id updates.podsStored }

/-- `addAppVersions`, with the map of ids and versions as it is folded over. -/
def addAppVersions (apps : Dict AbsolutePathId Timestamp)
    (appVersionsStored : SetMap AbsolutePathId Timestamp) : SetMap AbsolutePathId Timestamp :=
  appVersionsStored.addBindings apps.bindings

def addRoot (updates : UpdatedEntities) (root : StoredGroup) : UpdatedEntities :=
  { updates with
    rootsStored := insert root.version updates.rootsStored
    appVersionsStored := addAppVersions root.transitiveAppIds updates.appVersionsStored }

/-- The versions of the apps of a root group, at any depth. -/
def transitiveAppVersions (root : RootGroup) : Dict AbsolutePathId Timestamp :=
  Dict.insertAll ∅ (Kind.transitive root .app)

def addPlan (updates : UpdatedEntities) (plan : DeploymentPlan) : UpdatedEntities :=
  let originalUpdates :=
    addAppVersions (transitiveAppVersions plan.original) updates.appVersionsStored
  let allUpdates := addAppVersions (transitiveAppVersions plan.target) originalUpdates
  { updates with
    appVersionsStored := allUpdates
    rootsStored := updates.rootsStored ∪ {plan.original.version, plan.target.version} }

end UpdatedEntities

/-- The proposed versions of each id without those that have been stored since. -/
def versionsToActuallyDelete (proposed stored : SetMap AbsolutePathId Timestamp) :
    SetMap AbsolutePathId Timestamp :=
  proposed.mapWithKey fun id versions =>
    match stored.lookup id with
    | some versionsStored => versions \ versionsStored
    | none => versions

/-- What a compaction deletes of the proposals: what has been stored since is left out. -/
def computeActualDeletions (updates : UpdatedEntities) (done : ScanDone) : BlockedEntities where
  appsDeleting :=
    done.appsToDelete \ (updates.appsStored ∪ updates.appVersionsStored.keys.toFinset)
  appVersionsDeleting :=
    versionsToActuallyDelete done.appVersionsToDelete updates.appVersionsStored
  podsDeleting :=
    done.podsToDelete \ (updates.podsStored ∪ updates.podVersionsStored.keys.toFinset)
  podVersionsDeleting :=
    versionsToActuallyDelete done.podVersionsToDelete updates.podVersionsStored
  rootsDeleting := done.rootVersionsToDelete \ updates.rootsStored
  promises := []
  gcRequested := updates.gcRequested

/-! ## The actor in its environment -/

/-- No read has been made. -/
def Reads.none : Reads where
  rootVersions := .none
  root := .none
  lazyAll := .none
  lazyRootVersion := fun _ _ => .none
  ids := fun _ => .none
  versions := fun _ _ _ => .none

/-- `approvedSince` are the roots of the requests approved since the scan began: it is not in
the source. -/
structure State where
  data : Data
  selfInbox : List Message
  reads : Reads
  remaining : Finset Deletion
  requests : List Request
  store : Store
  approvedSince : List StoredGroup

namespace State

/-- `promise.success(Done)`; a promise is completed once. -/
def completePromise (s : State) (promise : Promise) : State :=
  match s.requests[promise.request]? with
  | none => s
  | some request =>
    match request.parts[promise.part]? with
    | none => s
    | some part =>
      if part.approved then s
      else
        let completed := request.approvePart promise.part part
        { s with
          requests := s.requests.set promise.request completed
          approvedSince := s.approvedSince ++ part.roots ++
            if completed.approved then completed.roots else [] }

def completePromises (s : State) (promises : List Promise) : State :=
  promises.foldl completePromise s

/-- `scan().pipeTo(self)` and the transition to `Scanning`. -/
def startScan (s : State) : State :=
  { s with data := .scanning .empty, reads := .none, approvedSince := [] }

/-- Back to rest; with no cleaning interval the next scan can begin at once. -/
def goToRest (config : Config) (s : State) : State :=
  { s with data := if config.cleaningInterval ≤ 0 then .readyForGc else .resting }

/-- `promise.completeWith(Future.sequence(..))`: the request waits for two promises. -/
def completeWith (s : State) (promise : Promise) (plan : DeploymentPlan) : State :=
  { s with
    requests := s.requests.modify promise.request fun request =>
      { request with
        parts := [⟨[StoredGroup.ofGroup plan.original], false⟩,
          ⟨[StoredGroup.ofGroup plan.target], false⟩] } }

def receiveResting (s : State) : Message → State
  | .wakeUp => { s with data := .readyForGc }
  | .storeApp _ _ promise | .storePod _ _ promise | .storeRoot _ promise | .storePlan _ promise =>
    s.completePromise promise
  | _ => s

def receiveReadyForGc (s : State) : Message → State
  | .runGC => s.startScan
  | .storeApp _ _ promise | .storePod _ _ promise | .storeRoot _ promise | .storePlan _ promise =>
    s.completePromise promise
  | _ => s

def receiveScanning (config : Config) (s : State) (updates : UpdatedEntities) : Message → State
  | .runGC => { s with data := .scanning { updates with gcRequested := true } }
  | .scanDone done =>
    if done.isEmpty then if updates.gcRequested then s.startScan else s.goToRest config
    else
      let deletes := computeActualDeletions updates done
      { s with data := .compacting deletes, remaining := deletes.deletions }
  | .storeApp appId version promise =>
    { s.completePromise promise with data := .scanning (updates.addApp appId version) }
  | .storePod podId version promise =>
    { s.completePromise promise with data := .scanning (updates.addPod podId version) }
  | .storeRoot root promise =>
    { s.completePromise promise with data := .scanning (updates.addRoot root) }
  | .storePlan plan promise =>
    { s.completePromise promise with data := .scanning (updates.addPlan plan) }
  | _ => s

def receiveCompacting (config : Config) (s : State) (blocked : BlockedEntities) : Message → State
  | .runGC => { s with data := .compacting { blocked with gcRequested := true } }
  | .compactDone =>
    let completed := s.completePromises blocked.promises
    if blocked.gcRequested then completed.startScan else completed.goToRest config
  | .storeApp appId version promise =>
    if blocked.blocksRunSpec .app appId version then
      { s with data := .compacting (blocked.block promise) }
    else s.completePromise promise
  | .storePod podId version promise =>
    if blocked.blocksRunSpec .pod podId version then
      { s with data := .compacting (blocked.block promise) }
    else s.completePromise promise
  | .storeRoot root promise =>
    if blocked.blocksRoot root then { s with data := .compacting (blocked.block promise) }
    else s.completePromise promise
  | .storePlan plan promise =>
    { s.completeWith promise plan with
      selfInbox := s.selfInbox ++
        [.storeRoot (StoredGroup.ofGroup plan.original) ⟨promise.request, 0⟩,
          .storeRoot (StoredGroup.ofGroup plan.target) ⟨promise.request, 1⟩] }
  | _ => s

/-- The actor handles a message; what its state does not handle changes nothing. -/
def receive (config : Config) (s : State) (message : Message) : State :=
  match s.data with
  | .resting => s.receiveResting message
  | .readyForGc => s.receiveReadyForGc message
  | .scanning updates => s.receiveScanning config updates message
  | .compacting blocked => s.receiveCompacting config blocked message

end State

/-- A read of the running scan. -/
inductive Read
  | rootVersions
  | root
  | lazyAll
  | lazyRootVersion (position : ℕ)
  | ids (kind : Kind)
  | versions (kind : Kind) (batch : ℕ) (id : AbsolutePathId)

namespace Reads

/-- The read returns what the store has now; `none` when it has been made already, or comes
too early. -/
def make (reads : Reads) (store : Store) : Read → Option Reads
  | .rootVersions =>
    if reads.rootVersions.isNone then
      some { reads with rootVersions := store.reads.rootVersions }
    else .none
  | .root =>
    if reads.rootVersions.isSome && reads.root.isNone then
      some { reads with root := store.reads.root }
    else .none
  | .lazyAll =>
    if reads.rootVersions.isSome && reads.lazyAll.isNone then
      some { reads with lazyAll := store.reads.lazyAll }
    else .none
  | .lazyRootVersion position => do
    let storedPlans ← reads.lazyAll
    let version ← (planVersions storedPlans)[position]?
    if (reads.lazyRootVersion position version).isNone then
      some
        { reads with
          lazyRootVersion := fun i v =>
            if i = position ∧ v = version then store.reads.lazyRootVersion i v
            else reads.lazyRootVersion i v }
    else .none
  | .ids kind =>
    if reads.lazyAll.isSome && (reads.ids kind).isNone then
      some
        { reads with ids := fun k => if k = kind then store.reads.ids k else reads.ids k }
    else .none
  | .versions kind batch id =>
    if (reads.ids kind).isSome && (reads.versions kind batch id).isNone then
      some
        { reads with
          versions := fun k b i =>
            if k = kind ∧ b = batch ∧ i = id then store.reads.versions k b i
            else reads.versions k b i }
    else .none

end Reads

namespace Store

/-- The write of an entity. -/
def write (store : Store) : Entity → Store
  | .runSpec kind id version _ =>
    { store with
      runSpecs := fun k =>
        if k = kind then (store.runSpecs k).addBinding id version else store.runSpecs k }
  | .root root current =>
    { store with
      rootVersions := store.rootVersions.insert root.version (StoredGroup.ofGroup root)
      currentRoot := if current then root else store.currentRoot }
  | .plan plan => { store with plans := plan.stored :: store.plans.filter (·.id ≠ plan.id) }

def delete (store : Store) : Deletion → Store
  | .id kind id =>
    { store with
      runSpecs := fun k =>
        if k = kind then AList.erase id (store.runSpecs k) else store.runSpecs k }
  | .version kind id version =>
    { store with
      runSpecs := fun k =>
        match (store.runSpecs k).lookup id with
        | some versions =>
          if k = kind then AList.insert id (versions \ {version}) (store.runSpecs k)
          else store.runSpecs k
        | none => store.runSpecs k }
  | .root version => { store with rootVersions := store.rootVersions.erase version }

end Store

/-- What can happen: a message from outside, a message the actor has sent itself, a step of
the running scan or compaction, the write of an approved request, the deletion of a plan. A
scan or compaction can end early, when an operation fails. -/
inductive Event
  | runGC
  | wakeUp
  | request (entity : Entity)
  | deliver
  | read (read : Read)
  | scanFinishes
  | delete (deletion : Deletion)
  | compactionEnds
  | write (request : ℕ)
  | deletePlan (id : String)

namespace State

/-- A request is made, and its message handled. -/
def request (config : Config) (s : State) (entity : Entity) : State :=
  State.receive config { s with requests := s.requests ++ [.make entity] }
    (entity.message ⟨s.requests.length, 0⟩)

/-- The step of an event; `none` when it cannot happen in this state. -/
def step (config : Config) (s : State) : Event → Option State
  | .runGC => some (s.receive config .runGC)
  | .wakeUp => some (s.receive config .wakeUp)
  | .request entity => some (s.request config entity)
  | .deliver =>
    match s.selfInbox with
    | [] => none
    | message :: rest => some (State.receive config { s with selfInbox := rest } message)
  | .read read =>
    match s.data with
    | .scanning _ => (s.reads.make s.store read).map fun reads => { s with reads := reads }
    | _ => none
  | .scanFinishes =>
    match s.data with
    | .scanning _ => some (s.receive config (.scanDone (scan config s.reads)))
    | _ => none
  | .delete deletion =>
    if deletion ∈ s.remaining ∧ ∀ d ∈ s.remaining, deletion.stage ≤ d.stage then
      some { s with
        store := s.store.delete deletion
        remaining := s.remaining.erase deletion }
    else none
  | .compactionEnds =>
    match s.data with
    | .compacting _ => some (State.receive config { s with remaining := ∅ } .compactDone)
    | _ => none
  | .write i =>
    match s.requests[i]? with
    | none => none
    | some request =>
      if request.approved && !request.written then
        some { s with
          store := s.store.write request.entity
          requests := s.requests.set i { request with written := true } }
      else none
  | .deletePlan id =>
    some { s with store := { s.store with plans := s.store.plans.filter (·.id ≠ id) } }

/-- The collector with any store and nothing going on. -/
def Initial (config : Config) (s : State) : Prop :=
  s.data = (if config.cleaningInterval ≤ 0 then .readyForGc else .resting) ∧
    s.selfInbox = [] ∧ s.remaining = ∅ ∧ s.requests = [] ∧ s.approvedSince = []

end State

/-- The collector and the runs it takes part in. -/
def collector (config : Config) : Machine State Event where
  Init := State.Initial config
  step := State.step config

end Marathon.Storage.GcActor
