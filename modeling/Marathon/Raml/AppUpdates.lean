import Marathon.Raml.AppConversion
import Marathon.State.RootGroup

/-!
# Updates change what they mention

An app definition is restored from what is written of it, if the API has the values of its fields.
An update keeps what it does not mention, except for the resources of the executor and the limits,
which are lost with every update that does not repeat them.
-/

namespace Marathon

open Lib

namespace Raml

/-- The values of the fields can be written, and are read again: paths are canonical, durations are
seconds, protocols, volumes and checks are those of the API. -/
structure IsApp (app : AppDefinition) : Prop where
  id : app.id.IsCanonical
  dependencies : ∀ d ∈ app.dependencies, d.IsCanonical
  backoff : IsSeconds app.backoffStrategy.backoff
  maxLaunchDelay : IsSeconds app.backoffStrategy.maxLaunchDelay
  container : ∀ c, app.container = some c → IsAppContainer c
  portDefinitions : ∀ p ∈ app.portDefinitions, IsProtocol p.protocol
  healthChecks : ∀ h ∈ app.healthChecks, IsAppHealthCheck h
  check : ∀ c, app.check = some c → IsAppCheck c
  readinessChecks : ∀ c ∈ app.readinessChecks, IsSeconds c.interval ∧ IsSeconds c.timeout
  taskKillGracePeriod : ∀ d, app.taskKillGracePeriod = some d → IsSeconds d
  unreachableStrategy : IsAppUnreachableStrategy app.unreachableStrategy
  executorResources : ∀ r, app.executorResources = some r → r.gpus = 0

/-! ## The parts of an app -/

section Parts

variable {app : AppDefinition}

theorem restores_appContainer (h : app.Required) :
    Restores (Option.mapM (appContainerWrites (Network.hasNonHostNetworking app.networks)))
        (Option.mapM appContainerRamlReader) app.container ↔
      ∀ c, app.container = some c → IsAppContainer c := by
  rw [restores_option]
  exact forall₂_congr fun c hc => restores_container fun hhost => h.portMappings_of_host hhost hc

theorem restores_healthChecks :
    Restores (setMapM appHealthCheckWrites) (setMapM appHealthCheckRamlReader) app.healthChecks ↔
      ∀ h ∈ app.healthChecks, IsAppHealthCheck h := by
  rw [restores_set stable_healthCheck]
  exact forall₂_congr fun h _ => restores_healthCheck

theorem restores_appCheck :
    Restores (Option.mapM checkRamlWriter) (Option.mapM appCheckRamlReader) app.check ↔
      ∀ c, app.check = some c → IsAppCheck c := by
  rw [restores_option]
  exact forall₂_congr fun c _ => restores_check

theorem restores_portDefinitions (h : app.Required) :
    Restores (appPortDefinitionsWrites (Network.hasNonHostNetworking app.networks))
      (fun ports => some ((ports.map (List.map portDefinitionRamlReader)).getD []))
      app.portDefinitions ↔ ∀ p ∈ app.portDefinitions, IsProtocol p.protocol := by
  by_cases hhost : Network.hasNonHostNetworking app.networks = true
  · rw [Restores, appPortDefinitionsWrites, if_pos hhost, h.portDefinitions hhost]
    exact iff_of_true rfl fun p hp => by cases hp
  · have hread : ∀ ports : List PortDefinition,
        ports.mapM (fun p => some (portDefinitionRamlReader p)) =
          some (ports.map portDefinitionRamlReader) := fun ports => List.mapM_pure
    have hall : (∀ p ∈ app.portDefinitions, IsProtocol p.protocol) ↔
        Restores (List.mapM portDefinitionWrites)
          (List.mapM fun p => some (portDefinitionRamlReader p)) app.portDefinitions := by
      rw [restores_list]
      exact forall₂_congr fun p _ => restores_portDefinition.symm
    rw [hall, Restores, Restores, appPortDefinitionsWrites, if_neg hhost]
    cases app.portDefinitions.mapM portDefinitionWrites with
    | none => rfl
    | some ports => rw [Option.bind_some, hread, Option.map_some]; rfl

theorem readinessChecks_eq :
    (app.readinessChecks.map readinessCheckWrites).mapM appReadinessRamlReader =
        some app.readinessChecks ↔
      ∀ c ∈ app.readinessChecks, IsSeconds c.interval ∧ IsSeconds c.timeout := by
  rw [mapM_map_eq_some]
  exact forall₂_congr fun c _ => restores_readinessCheck

theorem networks_eq (networks : List Marathon.Network) :
    (networks.map networkRamlWriter).mapM networkRamlReader = some networks :=
  mapM_map_eq_some.mpr fun network _ => networkRamlReader_writer network

theorem fetch_eq (fetch : List FetchUri) : (fetch.map artifactWrites).map fetchUriReader = fetch := by
  rw [List.map_map]
  exact List.map_id _

theorem dependencies_eq :
    (app.dependencies.image AbsolutePathId.string).image AbsolutePathId.ofText = app.dependencies ↔
      ∀ d ∈ app.dependencies, d.IsCanonical := by
  rw [Finset.image_image]
  constructor
  · intro h d hd
    rw [← h] at hd
    obtain ⟨d', -, rfl⟩ := Finset.mem_image.mp hd
    exact AbsolutePathId.isCanonical_ofText _
  · intro h
    calc app.dependencies.image (AbsolutePathId.ofText ∘ AbsolutePathId.string)
        = app.dependencies.image id :=
          Finset.image_congr fun d hd => AbsolutePathId.ofText_string_iff.mpr (h d hd)
      _ = app.dependencies := Finset.image_id

theorem taskKillGracePeriod_eq :
    (app.taskKillGracePeriod.map fun d => toInt (toSeconds d)).map seconds =
        app.taskKillGracePeriod ↔
      ∀ d, app.taskKillGracePeriod = some d → IsSeconds d := by
  cases app.taskKillGracePeriod with
  | none => exact iff_of_true rfl fun d hd => by cases hd
  | some d =>
    rw [Option.map_some, Option.map_some, Option.some.injEq, seconds_toInt_toSeconds]
    exact ⟨fun h d' hd' => Option.some.inj hd' ▸ h, fun h => h d rfl⟩

theorem acceptedResourceRoles_eq (roles : Finset String) :
    (if roles.Nonempty then some roles else none).getD ∅ = roles := by
  split_ifs with h
  · rfl
  · exact (Finset.not_nonempty_iff_eq_empty.mp h).symm

theorem executorResources_eq :
    (app.executorResources.map executorResourcesWrites).map resourcesReads =
        app.executorResources ↔
      ∀ r, app.executorResources = some r → r.gpus = 0 := by
  cases app.executorResources with
  | none => exact iff_of_true rfl fun d hd => by cases hd
  | some r =>
    obtain ⟨cpus, mem, disk, gpus⟩ := r
    simp [executorResourcesWrites, resourcesReads, eq_comm]

theorem resourceLimits_eq (limits : Option Marathon.ResourceLimits) :
    (limits.map ramlResourceLimitsWrite).mapM ramlResourceLimitsRead = some limits := by
  have hlimit : ∀ limit : Option (WithTop ℚ),
      (limit.map resourceLimitFromDouble).mapM resourceLimitToDouble = some limit := by
    intro limit
    rcases limit with _ | _ | value <;> rfl
  cases limits with
  | none => rfl
  | some limits =>
    obtain ⟨cpus, mem⟩ := limits
    have hread : ramlResourceLimitsRead (ramlResourceLimitsWrite ⟨cpus, mem⟩) =
        some ⟨cpus, mem⟩ := by
      rw [ramlResourceLimitsRead, ramlResourceLimitsWrite]
      rw [hlimit, hlimit]
      rfl
    rw [Option.map_some]
    exact Option.map_eq_some_iff.mpr ⟨_, hread, rfl⟩

end Parts

/-! ## Apps -/

section Apps

variable {app : AppDefinition} {now : Timestamp}

/-- The definition is read from what is written of it, up to its version info. -/
def IsReadBack (now : Timestamp) (app : AppDefinition) (current : App) : Prop :=
  ∃ restored, appRamlReader now current = some restored ∧
    { restored with versionInfo := app.versionInfo } = app

theorem isApp_of_isReadBack (hrequired : app.Required) {current : App}
    (hwrite : appWriter app = some current) (hread : IsReadBack now app current) : IsApp app := by
  obtain ⟨restored, hread, heq⟩ := hread
  obtain ⟨role, -, hread⟩ := Option.bind_eq_some_iff.mp hread
  obtain ⟨constraints, -, hread⟩ := Option.bind_eq_some_iff.mp hread
  obtain ⟨container', hcontainer', hread⟩ := Option.bind_eq_some_iff.mp hread
  obtain ⟨healthChecks', hhealthChecks', hread⟩ := Option.bind_eq_some_iff.mp hread
  obtain ⟨check', hcheck', hread⟩ := Option.bind_eq_some_iff.mp hread
  obtain ⟨readinessChecks, hreadinessChecks, hread⟩ := Option.bind_eq_some_iff.mp hread
  obtain ⟨networks, -, hread⟩ := Option.bind_eq_some_iff.mp hread
  obtain ⟨limits, -, hread⟩ := Option.bind_eq_some_iff.mp hread
  dsimp only at hread
  split_ifs at hread
  cases hread
  obtain ⟨container, hcontainer, hwrite⟩ := Option.bind_eq_some_iff.mp hwrite
  obtain ⟨healthChecks, hhealthChecks, hwrite⟩ := Option.bind_eq_some_iff.mp hwrite
  obtain ⟨check, hcheck, hwrite⟩ := Option.bind_eq_some_iff.mp hwrite
  obtain ⟨ports, hports, hwrite⟩ := Option.bind_eq_some_iff.mp hwrite
  cases hwrite
  -- every field of the restored definition is the one of the current definition
  have hid : AbsolutePathId.ofText app.id.string = app.id := congrArg AppDefinition.id heq
  have hdependencies := congrArg AppDefinition.dependencies heq
  have hbackoff := congrArg AppDefinition.backoffStrategy heq
  have hcontainerEq : container' = app.container := congrArg AppDefinition.container heq
  have hportsEq := congrArg AppDefinition.portDefinitions heq
  have hhealthEq : healthChecks' = app.healthChecks := congrArg AppDefinition.healthChecks heq
  have hcheckEq : check' = app.check := congrArg AppDefinition.check heq
  have hreadinessEq : readinessChecks = app.readinessChecks :=
    congrArg AppDefinition.readinessChecks heq
  have hgrace := congrArg AppDefinition.taskKillGracePeriod heq
  have hunreachable := congrArg AppDefinition.unreachableStrategy heq
  have hexecutor := congrArg AppDefinition.executorResources heq
  exact {
    id := AbsolutePathId.ofText_string_iff.mp hid
    dependencies := dependencies_eq.mp hdependencies
    backoff := seconds_toInt_toSeconds.mp (congrArg BackoffStrategy.backoff hbackoff)
    maxLaunchDelay := seconds_toInt_toSeconds.mp (congrArg BackoffStrategy.maxLaunchDelay hbackoff)
    container := (restores_appContainer hrequired).mp
      (restores_iff.mpr ⟨container, hcontainer, hcontainerEq ▸ hcontainer'⟩)
    portDefinitions := (restores_portDefinitions hrequired).mp
      (restores_iff.mpr ⟨ports, hports, congrArg some hportsEq⟩)
    healthChecks := restores_healthChecks.mp
      (restores_iff.mpr ⟨healthChecks, hhealthChecks, hhealthEq ▸ hhealthChecks'⟩)
    check := restores_appCheck.mp (restores_iff.mpr ⟨check, hcheck, hcheckEq ▸ hcheck'⟩)
    readinessChecks := readinessChecks_eq.mp (hreadinessEq ▸ hreadinessChecks)
    taskKillGracePeriod := taskKillGracePeriod_eq.mp hgrace
    unreachableStrategy := ramlUnreachableStrategyRead_write.mp hunreachable
    executorResources := executorResources_eq.mp hexecutor }

theorem exists_isReadBack (hrequired : app.Required) (h : IsApp app) :
    ∃ current, appWriter app = some current ∧ IsReadBack now app current := by
  obtain ⟨container, hcontainer, hcontainer'⟩ :=
    restores_iff.mp ((restores_appContainer hrequired).mpr h.container)
  obtain ⟨healthChecks, hhealthChecks, hhealthChecks'⟩ :=
    restores_iff.mp (restores_healthChecks.mpr h.healthChecks)
  obtain ⟨check, hcheck, hcheck'⟩ := restores_iff.mp (restores_appCheck.mpr h.check)
  obtain ⟨ports, hports, hports'⟩ :=
    restores_iff.mp ((restores_portDefinitions hrequired).mpr h.portDefinitions)
  have hwrite : ∃ current, appWriter app = some current := by
    rw [appWriter, hcontainer, hhealthChecks, hcheck, hports]
    exact ⟨_, rfl⟩
  obtain ⟨current, hwrite⟩ := hwrite
  refine ⟨current, hwrite, ?_⟩
  rw [appWriter, hcontainer, hhealthChecks, hcheck, hports] at hwrite
  cases hwrite
  refine ⟨{ app with versionInfo := .onlyVersion app.versionInfo.version }, ?_, rfl⟩
  rw [appRamlReader]
  dsimp only [Option.bind_eq_bind, Option.bind_some]
  rw [setMapM_appConstraintRamlReader, hcontainer', hhealthChecks', hcheck',
    readinessChecks_eq.mpr h.readinessChecks, networks_eq, resourceLimits_eq]
  have hbackoff : seconds (toInt (toSeconds app.backoffStrategy.backoff)) =
      app.backoffStrategy.backoff := seconds_toInt_toSeconds.mpr h.backoff
  have hdelay : seconds (toInt (toSeconds app.backoffStrategy.maxLaunchDelay)) =
      app.backoffStrategy.maxLaunchDelay := seconds_toInt_toSeconds.mpr h.maxLaunchDelay
  have hread := Option.some.inj hports'
  dsimp only [Option.bind_some]
  rw [AbsolutePathId.ofText_string_iff.mpr h.id, mapValues_mapValues envVarReads_writes, fetch_eq,
    hread, hbackoff, hdelay, taskKillGracePeriod_eq.mpr h.taskKillGracePeriod,
    dependencies_eq.mpr h.dependencies, acceptedResourceRoles_eq,
    mapValues_mapValues podSecretReader_writer, ramlKillSelectionRead_write,
    executorResources_eq.mpr h.executorResources]
  have hunreachable : (Option.map ramlUnreachableStrategyRead
      (some (ramlUnreachableStrategyWrite app.unreachableStrategy))).getD
        (.unreachableEnabled (seconds 0) (seconds 0)) = app.unreachableStrategy :=
    ramlUnreachableStrategyRead_write.mpr h.unreachableStrategy
  have hrestored : AppDefinition.Required
      { app with versionInfo := .onlyVersion app.versionInfo.version } :=
    ⟨hrequired.networks, hrequired.portDefinitions, hrequired.portMappings, hrequired.ports,
      hrequired.hostPorts⟩
  rw [hunreachable]
  exact if_pos hrestored

/-- Every field that the update leaves undefined is the one of the current app. -/
structure KeepsUnmentioned (update : AppUpdate) (current result : App) : Prop where
  id : result.id = current.id
  acceptedResourceRoles : update.acceptedResourceRoles = none →
    result.acceptedResourceRoles = current.acceptedResourceRoles
  args : update.args = none → result.args = current.args
  backoffFactor : update.backoffFactor = none → result.backoffFactor = current.backoffFactor
  backoffSeconds : update.backoffSeconds = none → result.backoffSeconds = current.backoffSeconds
  cmd : update.cmd = none → result.cmd = current.cmd
  constraints : update.constraints = none → result.constraints = current.constraints
  container : update.container = none → result.container = current.container
  cpus : update.cpus = none → result.cpus = current.cpus
  dependencies : update.dependencies = none → result.dependencies = current.dependencies
  disk : update.disk = none → result.disk = current.disk
  env : update.env = none → result.env = current.env
  executor : update.executor = none → result.executor = current.executor
  executorResources : update.executorResources = none →
    result.executorResources = current.executorResources
  fetch : update.fetch = none → result.fetch = current.fetch
  healthChecks : update.healthChecks = none → result.healthChecks = current.healthChecks
  check : update.check = none → result.check = current.check
  instances : update.instances = none → result.instances = current.instances
  labels : update.labels = none → result.labels = current.labels
  maxLaunchDelaySeconds : update.maxLaunchDelaySeconds = none →
    result.maxLaunchDelaySeconds = current.maxLaunchDelaySeconds
  mem : update.mem = none → result.mem = current.mem
  gpus : update.gpus = none → result.gpus = current.gpus
  networks : update.networks = none → result.networks = current.networks
  portDefinitions : update.portDefinitions = none → result.portDefinitions = current.portDefinitions
  readinessChecks : update.readinessChecks = none → result.readinessChecks = current.readinessChecks
  residency : update.residency = none → result.residency = current.residency
  resourceLimits : update.resourceLimits = none → result.resourceLimits = current.resourceLimits
  requirePorts : update.requirePorts = none → result.requirePorts = current.requirePorts
  secrets : update.secrets = none → result.secrets = current.secrets
  taskKillGracePeriodSeconds : update.taskKillGracePeriodSeconds = none →
    result.taskKillGracePeriodSeconds = current.taskKillGracePeriodSeconds
  upgradeStrategy : update.upgradeStrategy = none → result.upgradeStrategy = current.upgradeStrategy
  user : update.user = none → result.user = current.user
  killSelection : update.killSelection = none → result.killSelection = current.killSelection
  unreachableStrategy : update.unreachableStrategy = none →
    result.unreachableStrategy = current.unreachableStrategy
  tty : update.tty = none → result.tty = current.tty
  role : update.role = none → result.role = current.role
  version : result.version = current.version
  versionInfo : result.versionInfo = current.versionInfo

/-- The update keeps what it does not mention, and one that mentions nothing gives the definition
again. -/
def ChangesOnlyMentioned (now : Timestamp) (app : AppDefinition) (update : AppUpdate) : Prop :=
  ∃ current result unchanged, appWriter app = some current ∧
    appUpdateRamlReader update app = some result ∧ KeepsUnmentioned update current result ∧
    appUpdateRamlReader {} app = some unchanged ∧ IsReadBack now app unchanged

theorem keepsUnmentioned_iff {update : AppUpdate} {current result : App}
    (hwrite : appWriter app = some current) (h : appUpdateRamlReader update app = some result) :
    KeepsUnmentioned update current result ↔
      (update.executorResources = none → current.executorResources = none) ∧
        (update.resourceLimits = none → current.resourceLimits = none) := by
  rw [appUpdateRamlReader, hwrite, Option.map_some] at h
  cases h
  constructor
  · intro hkeeps
    refine ⟨fun hnone => ?_, fun hnone => ?_⟩
    · rw [← hkeeps.executorResources hnone]
      exact hnone
    · rw [← hkeeps.resourceLimits hnone]
      exact hnone
  · rintro ⟨hexecutor, hlimits⟩
    constructor
    case executorResources => exact fun hnone => hnone.trans (hexecutor hnone).symm
    case resourceLimits => exact fun hnone => hnone.trans (hlimits hnone).symm
    all_goals first | rfl | (intro hnone; dsimp only; rw [hnone]; rfl)

theorem limits_of_reader {written : App} {restored : AppDefinition}
    (h : appRamlReader now written = some restored) :
    restored.executorResources = written.executorResources.map resourcesReads ∧
      written.resourceLimits.mapM ramlResourceLimitsRead = some restored.resourceLimits := by
  obtain ⟨role, -, h⟩ := Option.bind_eq_some_iff.mp h
  obtain ⟨constraints, -, h⟩ := Option.bind_eq_some_iff.mp h
  obtain ⟨container, -, h⟩ := Option.bind_eq_some_iff.mp h
  obtain ⟨healthChecks, -, h⟩ := Option.bind_eq_some_iff.mp h
  obtain ⟨check, -, h⟩ := Option.bind_eq_some_iff.mp h
  obtain ⟨readinessChecks, -, h⟩ := Option.bind_eq_some_iff.mp h
  obtain ⟨networks, -, h⟩ := Option.bind_eq_some_iff.mp h
  obtain ⟨limits, hlimits, h⟩ := Option.bind_eq_some_iff.mp h
  dsimp only at h
  split_ifs at h
  cases h
  exact ⟨rfl, hlimits⟩

theorem limits_of_writer {current : App} (h : appWriter app = some current) :
    current.executorResources = app.executorResources.map executorResourcesWrites ∧
      current.resourceLimits = app.resourceLimits.map ramlResourceLimitsWrite := by
  obtain ⟨container, -, h⟩ := Option.bind_eq_some_iff.mp h
  obtain ⟨healthChecks, -, h⟩ := Option.bind_eq_some_iff.mp h
  obtain ⟨check, -, h⟩ := Option.bind_eq_some_iff.mp h
  obtain ⟨ports, -, h⟩ := Option.bind_eq_some_iff.mp h
  cases h
  exact ⟨rfl, rfl⟩

theorem appUpdateRamlReader_empty {current : App} (h : appWriter app = some current) :
    appUpdateRamlReader {} app =
      some { current with executorResources := none, resourceLimits := none } := by
  rw [appUpdateRamlReader, h]
  rfl

/-- For every app definition that meets the requirements, and every update of it. -/
theorem changesOnlyMentioned_iff (now : Timestamp) (app : AppDefinition) (update : AppUpdate)
    (hrequired : app.Required) :
    ChangesOnlyMentioned now app update ↔
      IsApp app ∧ app.executorResources = none ∧ app.resourceLimits = none := by
  constructor
  · rintro ⟨current, result, unchanged, hwrite, -, -, hempty, hread⟩
    rw [appUpdateRamlReader_empty hwrite] at hempty
    cases hempty
    obtain ⟨restored, hrestored, heq⟩ := id hread
    obtain ⟨hexecutor, hlimits⟩ := limits_of_reader hrestored
    have happExecutor : app.executorResources = none :=
      (congrArg AppDefinition.executorResources heq).symm.trans hexecutor
    have happLimits : app.resourceLimits = none :=
      (congrArg AppDefinition.resourceLimits heq).symm.trans (Option.some.inj hlimits).symm
    refine ⟨?_, happExecutor, happLimits⟩
    -- there is nothing to forget
    obtain ⟨hcurrent, hcurrent'⟩ := limits_of_writer hwrite
    rw [happExecutor, Option.map_none] at hcurrent
    rw [happLimits, Option.map_none] at hcurrent'
    have hsame : { current with executorResources := none, resourceLimits := none } = current := by
      rw [← hcurrent, ← hcurrent']
    rw [hsame] at hread
    exact isApp_of_isReadBack hrequired hwrite hread
  · rintro ⟨happ, hexecutor, hlimits⟩
    obtain ⟨current, hwrite, hread⟩ : ∃ current, _ ∧ IsReadBack now app current :=
      exists_isReadBack hrequired happ
    obtain ⟨hcurrent, hcurrent'⟩ := limits_of_writer hwrite
    rw [hexecutor, Option.map_none] at hcurrent
    rw [hlimits, Option.map_none] at hcurrent'
    have hsame : { current with executorResources := none, resourceLimits := none } = current := by
      rw [← hcurrent, ← hcurrent']
    obtain ⟨result, hresult⟩ : ∃ result, appUpdateRamlReader update app = some result := by
      rw [appUpdateRamlReader, hwrite]
      exact ⟨_, rfl⟩
    refine ⟨current, result, current, hwrite, hresult,
      (keepsUnmentioned_iff hwrite hresult).mpr ⟨fun _ => hcurrent, fun _ => hcurrent'⟩, ?_, hread⟩
    rw [appUpdateRamlReader_empty hwrite, hsame]

/-- An app in a container network: a volume, a mapping, and checks of both kinds. -/
def service : AppDefinition :=
  { plainApp ⟨["services", "web"]⟩ {⟨["services", "db"]⟩} with
    networks := [.containerNetwork "net" ∅]
    container := some (.mesosDocker [⟨.hostVolume none "/var/log", ⟨none, "/log", true⟩⟩] "nginx"
      [⟨80, some 0, 0, "tcp", some "http", ∅, []⟩] none none false none)
    healthChecks := {.marathonHttpHealthCheck (seconds 300) (seconds 60) (seconds 20) 3
      (some (.byIndex 0)) none (some "/") .http false}
    check := some (.mesosCommandCheck (seconds 60) (seconds 20) (seconds 15) (.command "true")) }

theorem isSeconds_seconds {n : ℤ} (hle : -2147483648 ≤ n) (hlt : n < 2147483648) :
    IsSeconds (seconds n) :=
  ⟨n, hle, hlt, rfl⟩

theorem isApp_service {executorResources : Option Resources}
    (h : ∀ r, executorResources = some r → r.gpus = 0) :
    IsApp { service with executorResources := executorResources } where
  id := by
    show service.id.IsCanonical
    decide
  dependencies := by
    show ∀ d ∈ service.dependencies, d.IsCanonical
    decide
  backoff := ⟨1, by decide, by decide, rfl⟩
  maxLaunchDelay := ⟨300, by decide, by decide, rfl⟩
  container := by
    intro c hc
    cases hc
    refine ⟨?_, ?_, trivial⟩
    · intro v hv
      obtain rfl := List.mem_singleton.mp hv
      exact ⟨rfl, rfl⟩
    · intro m hm
      obtain rfl := List.mem_singleton.mp hm
      exact ⟨.tcp, rfl⟩
  portDefinitions := fun p hp => by cases hp
  healthChecks := by
    intro check hcheck
    obtain rfl := Finset.mem_singleton.mp hcheck
    refine ⟨isSeconds_seconds (by decide) (by decide), isSeconds_seconds (by decide) (by decide),
      isSeconds_seconds (by decide) (by decide), ?_, .inl rfl, rfl⟩
    exact fun name hname => by cases hname
  check := by
    intro check hcheck
    cases hcheck
    exact ⟨isSeconds_seconds (by decide) (by decide), isSeconds_seconds (by decide) (by decide),
      isSeconds_seconds (by decide) (by decide), "true", rfl⟩
  readinessChecks := fun c hc => by cases hc
  taskKillGracePeriod := fun d hd => by cases hd
  unreachableStrategy := trivial
  executorResources := h

theorem changesOnlyMentioned_service :
    service.Required ∧ ChangesOnlyMentioned ⟨0⟩ service { instances := some 3 } :=
  ⟨by decide, (changesOnlyMentioned_iff ⟨0⟩ service { instances := some 3 } (by decide)).mpr
    ⟨isApp_service (fun r hr => by cases hr), rfl, rfl⟩⟩

/-- The resources of the executor are lost, although the update is about the instances. -/
theorem not_forall_changesOnlyMentioned : ¬ ∀ (now : Timestamp) (app : AppDefinition)
    (update : AppUpdate), app.Required → IsApp app → ChangesOnlyMentioned now app update := by
  intro h
  have hresources : ∀ r, some (⟨1, 32, 10, 0⟩ : Resources) = some r → r.gpus = 0 := by
    intro r hr
    cases hr
    rfl
  obtain ⟨current, result, -, hwrite, hresult, hkeeps, -⟩ :=
    h ⟨0⟩ { service with executorResources := some ⟨1, 32, 10, 0⟩ } { instances := some 3 }
      (by decide) (isApp_service hresources)
  have hnone := ((keepsUnmentioned_iff hwrite hresult).mp hkeeps).1 rfl
  rw [(limits_of_writer hwrite).1] at hnone
  cases hnone

end Apps

end Raml

end Marathon
