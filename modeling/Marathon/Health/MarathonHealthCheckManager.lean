import Marathon.Health.AppHealthCheckActor

/-!
# The manager of health checks

The registry of the health checks that are active, with the actor of each of them. A check is added
by creating its actor, announcing its definition, replaying the known statuses of the running tasks
and only then putting it into the registry.
-/

namespace Marathon

open Lib

/-- `healthCheck` is active, with its `HealthCheckActor`. -/
structure ActiveHealthCheck where
  healthCheck : HealthCheck
  actor : ℕ
deriving DecidableEq

/-- The registry, with what the manager has asked of others: `actors` are the actors of health checks
that are alive, `messages` what was sent to the actor of the health of apps, `results` what was sent
to the actors of health checks. -/
structure MarathonHealthCheckManager where
  appHealthChecks : Dict AbsolutePathId (Dict Timestamp (List ActiveHealthCheck))
  actors : List ℕ
  nextActor : ℕ
  messages : List AppHealthCheckActor.Command
  results : List (ℕ × HealthResult)

/-- What happens in the order of an unordered collection: the checks of an app and a set of versions
are gone through in one of their orders. -/
structure HealthCheckOrders where
  healthChecks : AppDefinition → List HealthCheck
  versions : Finset Timestamp → List Timestamp
  healthChecks_toFinset : ∀ app, (healthChecks app).toFinset = app.healthChecks
  versions_toFinset : ∀ s, (versions s).toFinset = s
  versions_nodup : ∀ s, (versions s).Nodup

/-- The versions of apps that the group manager knows. -/
structure KnownApps where
  appVersion : AbsolutePathId → Timestamp → Option AppDefinition
  isVersion : ∀ {id version app}, appVersion id version = some app →
    app.id = id ∧ app.version = version

namespace MarathonHealthCheckManager

/-- `ahcs(appId)`. -/
def checksOf (m : MarathonHealthCheckManager) (appId : AbsolutePathId) :
    Dict Timestamp (List ActiveHealthCheck) :=
  (m.appHealthChecks.lookup appId).getD ∅

def listActive (m : MarathonHealthCheckManager) (appId : AbsolutePathId) (appVersion : Timestamp) :
    List ActiveHealthCheck :=
  ((m.checksOf appId).lookup appVersion).getD []

def isMesosHealthCheck : HealthCheck → Bool
  | .mesosHealthCheck _ => true
  | _ => false

/-! ## Adding -/

/-- The result for a status, which has to have a health: there is no case for one without. -/
def replayed (i : Instance) (now : Timestamp) (mesosStatus : Option Mesos.TaskStatus) :
    Except Thrown (List HealthResult) :=
  match mesosStatus with
  | some mesosStatus =>
    if mesosStatus.healthy.isSome then
      if mesosStatus.getHealthy then .ok [.healthy i.instanceId i.runSpecVersion now false]
      else .ok [.unhealthy i.instanceId i.runSpecVersion "" now false]
    else .error .matchError
  | none => .ok []

/-- The statuses of the running tasks one after another, up to the first one that has no case. -/
def replayAll (now : Timestamp) : List (Instance × Task) → List HealthResult × Option Thrown
  | [] => ([], none)
  | (i, task) :: tasks =>
    match replayed i now task.status.mesosStatus with
    | .ok results =>
      let rest := replayAll now tasks
      (results ++ rest.1, rest.2)
    | .error thrown => ([], some thrown)

def runningTasks (instances : List Instance) : List (Instance × Task) :=
  instances.flatMap fun i => (i.tasks.filter Task.isRunning).map fun task => (i, task)

/-- `actorRefFactory.actorOf`: a new actor. -/
def actorOf (m : MarathonHealthCheckManager) : ℕ × MarathonHealthCheckManager :=
  (m.nextActor, { m with actors := m.nextActor :: m.actors, nextActor := m.nextActor + 1 })

/-- `appHealthChecksActor ! message`. -/
def tell (m : MarathonHealthCheckManager) (message : AppHealthCheckActor.Command) :
    MarathonHealthCheckManager :=
  { m with messages := m.messages ++ [message] }

/-- `ahcs += app.id -> (ahcs(app.id) + (app.version -> checks))`. -/
def put (m : MarathonHealthCheckManager) (app : AppDefinition) (checks : List ActiveHealthCheck) :
    MarathonHealthCheckManager :=
  { m with
    appHealthChecks :=
      m.appHealthChecks.insert app.id ((m.checksOf app.id).insert app.version checks) }

/-- The registry is only updated when all statuses are replayed. -/
def add (m : MarathonHealthCheckManager) (app : AppDefinition) (healthCheck : HealthCheck)
    (instances : List Instance) (now : Timestamp) : MarathonHealthCheckManager × Option Thrown :=
  let healthChecksForApp := m.listActive app.id app.version
  if healthChecksForApp.any fun check => check.healthCheck = healthCheck then (m, none)
  else
    let (ref, m) := m.actorOf
    let m := m.tell (.addHealthCheck ⟨app.id, app.version⟩ healthCheck)
    let replay := if isMesosHealthCheck healthCheck then replayAll now (runningTasks instances)
      else ([], none)
    let m := { m with results := m.results ++ replay.1.map fun result => (ref, result) }
    match replay.2 with
    | none => (m.put app (healthChecksForApp ++ [⟨healthCheck, ref⟩]), none)
    | some thrown => (m, some thrown)

/-- The checks one after another, up to the first one at which something is thrown. -/
def addChecks (m : MarathonHealthCheckManager) (app : AppDefinition) (instances : List Instance)
    (now : Timestamp) : List HealthCheck → MarathonHealthCheckManager × Option Thrown
  | [] => (m, none)
  | healthCheck :: healthChecks =>
    match m.add app healthCheck instances now with
    | (m, none) => m.addChecks app instances now healthChecks
    | (m, some thrown) => (m, some thrown)

def addAllFor (orders : HealthCheckOrders) (m : MarathonHealthCheckManager) (app : AppDefinition)
    (instances : List Instance) (now : Timestamp) : MarathonHealthCheckManager × Option Thrown :=
  m.addChecks app instances now (orders.healthChecks app)

/-! ## Removing -/

/-- `ahcs -= appId` or `ahcs += (appId -> checks)`. -/
def putApp (m : MarathonHealthCheckManager) (appId : AbsolutePathId)
    (checks : Dict Timestamp (List ActiveHealthCheck)) : MarathonHealthCheckManager :=
  { m with
    appHealthChecks := if checks.entries.isEmpty then m.appHealthChecks.erase appId
      else m.appHealthChecks.insert appId checks }

/-- `newHealthChecksForApp`: a version without checks is left out. -/
def withVersion (checks : Dict Timestamp (List ActiveHealthCheck)) (appVersion : Timestamp)
    (newHealthChecksForVersion : List ActiveHealthCheck) :
    Dict Timestamp (List ActiveHealthCheck) :=
  if newHealthChecksForVersion.isEmpty then checks.erase appVersion
  else checks.insert appVersion newHealthChecksForVersion

/-- The actors of the checks are stopped. -/
def remove (m : MarathonHealthCheckManager) (appId : AbsolutePathId) (appVersion : Timestamp)
    (healthCheck : HealthCheck) : MarathonHealthCheckManager :=
  let healthChecksForVersion := m.listActive appId appVersion
  let toRemove := healthChecksForVersion.filter fun check => check.healthCheck = healthCheck
  let m := { m with actors := m.actors.filter (· ∉ toRemove.map ActiveHealthCheck.actor) }
  let newHealthChecksForVersion :=
    healthChecksForVersion.filter fun check => check.healthCheck ≠ healthCheck
  (m.tell (.removeHealthCheck ⟨appId, appVersion⟩ healthCheck)).putApp appId
    (withVersion (m.checksOf appId) appVersion newHealthChecksForVersion)

/-! ## Reconciling -/

/-- The versions of the app with instances, and the current one. -/
def activeAppVersions (app : AppDefinition) (instances : List Instance) : Finset Timestamp :=
  insert app.version (instances.map Instance.runSpecVersion).toFinset

/-- The checks of former versions of the app without instances. -/
def obsolete (m : MarathonHealthCheckManager) (app : AppDefinition) (instances : List Instance) :
    List (Timestamp × HealthCheck) :=
  ((m.checksOf app.id).bindings.filter fun entry =>
      entry.1 < app.version && entry.1 ∉ activeAppVersions app instances).flatMap fun entry =>
    entry.2.map fun check => (entry.1, check.healthCheck)

def removeObsolete (m : MarathonHealthCheckManager) (app : AppDefinition)
    (instances : List Instance) : MarathonHealthCheckManager :=
  (m.obsolete app instances).foldl (fun m entry => m.remove app.id entry.1 entry.2) m

def appVersionsWithoutHealthChecks (m : MarathonHealthCheckManager) (app : AppDefinition)
    (instances : List Instance) : Finset Timestamp :=
  activeAppVersions app instances \ (m.checksOf app.id).keys.toFinset

/-- One version of the app, when the group manager has answered. -/
def reconcileVersion (orders : HealthCheckOrders) (known : KnownApps) (app : AppDefinition)
    (instances : List Instance) (now : Timestamp) (m : MarathonHealthCheckManager)
    (version : Timestamp) : MarathonHealthCheckManager × Option Thrown :=
  match known.appVersion app.id version with
  | none => (m, none)
  | some appVersion =>
    m.addAllFor orders appVersion (instances.filter fun i => i.runSpecVersion = version) now

/-- All versions get their checks, also when something is thrown at one of them. -/
def reconcileVersions (orders : HealthCheckOrders) (known : KnownApps) (app : AppDefinition)
    (instances : List Instance) (now : Timestamp) (m : MarathonHealthCheckManager) :
    List Timestamp → MarathonHealthCheckManager × List Thrown
  | [] => (m, [])
  | version :: versions =>
    let reconciled := reconcileVersion orders known app instances now m version
    let rest := reconcileVersions orders known app instances now reconciled.1 versions
    (rest.1, reconciled.2.toList ++ rest.2)

def reconcileApp (orders : HealthCheckOrders) (known : KnownApps) (instances : List Instance)
    (now : Timestamp) (m : MarathonHealthCheckManager) (app : AppDefinition) :
    MarathonHealthCheckManager × List Thrown :=
  let m := m.removeObsolete app instances
  reconcileVersions orders known app instances now m
    (orders.versions (m.appVersionsWithoutHealthChecks app instances))

/-- The apps one after another; what is done for one of them leaves the registry of the others as it
is, so that their order does not matter. The future fails if something is thrown. -/
def reconcile (orders : HealthCheckOrders) (known : KnownApps) (instances : List Instance)
    (now : Timestamp) (m : MarathonHealthCheckManager) :
    List AppDefinition → MarathonHealthCheckManager × List Thrown
  | [] => (m, [])
  | app :: apps =>
    let reconciled := reconcileApp orders known (instances.filter fun i => i.runSpecId = app.id) now
      m app
    let rest := reconcile orders known instances now reconciled.1 apps
    (rest.1, reconciled.2 ++ rest.2)

end MarathonHealthCheckManager

end Marathon
