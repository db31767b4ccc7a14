import Marathon.Lib.Conversion
import Marathon.Raml.AppTypes

/-!
# Conversions of checks

Durations are written in whole seconds. Checks and health checks, readiness checks and strategies
are written to the API and read from it; there is no result where the source throws.
-/

namespace Marathon

open Lib

namespace Raml

/-! ## Durations -/

/-- `toSeconds`, which rounds towards zero. -/
def toSeconds (d : FiniteDuration) : ℤ := d.tdiv 1000000000

/-- `Long.toInt`: the lower 32 bits, with their sign. -/
def toInt (n : ℤ) : ℤ := n.bmod 4294967296

def seconds (n : ℤ) : FiniteDuration := n * 1000000000

/-- A whole number of seconds. -/
def IsWholeSeconds (d : FiniteDuration) : Prop := ∃ n : ℤ, d = seconds n

/-- A whole number of seconds in the range of `Int`. -/
def IsSeconds (d : FiniteDuration) : Prop :=
  ∃ n : ℤ, -2147483648 ≤ n ∧ n < 2147483648 ∧ d = seconds n

theorem toSeconds_seconds (n : ℤ) : toSeconds (seconds n) = n :=
  Int.mul_tdiv_cancel n (by decide)

theorem seconds_toSeconds {d : FiniteDuration} : seconds (toSeconds d) = d ↔ IsWholeSeconds d := by
  constructor
  · exact fun h => ⟨toSeconds d, h.symm⟩
  · rintro ⟨n, rfl⟩
    rw [toSeconds_seconds]

theorem isSeconds_seconds_toInt (n : ℤ) : IsSeconds (seconds (toInt n)) := by
  have hle := Int.le_bmod (x := n) (m := 4294967296) (by decide)
  have hlt := Int.bmod_lt (x := n) (m := 4294967296) (by decide)
  refine ⟨toInt n, ?_, ?_, rfl⟩
  · rw [toInt]
    omega
  · rw [toInt]
    omega

theorem seconds_toInt_toSeconds {d : FiniteDuration} :
    seconds (toInt (toSeconds d)) = d ↔ IsSeconds d := by
  constructor
  · intro h
    rw [← h]
    exact isSeconds_seconds_toInt (toSeconds d)
  · rintro ⟨n, hle, hlt, rfl⟩
    have hself : toInt n = n := by
      rw [toInt]
      exact Int.bmod_eq_of_le (by omega) (by omega)
    rw [toSeconds_seconds, hself]

/-! ## References to ports -/

/-- The index, where ports are referred to by index. -/
def portIndexOf : Option PortReference → Option ℤ
  | some (.byIndex value) => some value
  | _ => none

def IsIndexed (portIndex : Option PortReference) : Prop :=
  ∀ name, portIndex ≠ some (.byName name)

@[simp]
theorem map_byIndex_portIndexOf {portIndex : Option PortReference} :
    (portIndexOf portIndex).map PortReference.byIndex = portIndex ↔ IsIndexed portIndex := by
  rcases portIndex with _ | index | name
  · exact iff_of_true rfl fun name h => by cases h
  · exact iff_of_true rfl fun name h => by cases h
  · exact iff_of_false (fun h => by cases h) fun h => h name rfl

@[simp]
theorem isIndexed_map_byIndex (index : Option ℤ) : IsIndexed (index.map PortReference.byIndex) := by
  cases index <;> exact fun name h => by cases h

/-! ## Health checks -/

def healthProtocolWrites : HealthCheck.Protocol → AppHealthCheckProtocol
  | .command => .command
  | .http => .http
  | .https => .https
  | .tcp => .tcp
  | .mesosHttp => .mesosHttp
  | .mesosHttps => .mesosHttps
  | .mesosTcp => .mesosTcp

def ipProtocolToRaml : Marathon.IpProtocol → IpProtocol
  | .ipv4 => .ipv4
  | .ipv6 => .ipv6

def ipProtocolFromRaml : IpProtocol → Marathon.IpProtocol
  | .ipv4 => .ipv4
  | .ipv6 => .ipv6

@[simp]
theorem ipProtocolFromRaml_toRaml (ipProtocol : Marathon.IpProtocol) :
    ipProtocolFromRaml (ipProtocolToRaml ipProtocol) = ipProtocol := by
  cases ipProtocol <;> rfl

/-- `HealthCheck.DefaultDelay`. -/
def defaultDelay : FiniteDuration := seconds 15

/-- The local `create` of `appHealthCheckWrites`. -/
def createHealthCheck (gracePeriod interval timeout : FiniteDuration)
    (maxConsecutiveFailures : ℤ) (protocol : AppHealthCheckProtocol)
    (ipProtocol : Option Marathon.IpProtocol) (command : Option AppCommandCheck)
    (ignoreHttp1xx : Option Bool) (path : Option String) (port : Option ℤ)
    (portReference : Option PortReference) (delay : FiniteDuration) : AppHealthCheck where
  gracePeriodSeconds := toInt (toSeconds gracePeriod)
  command := command
  ignoreHttp1xx := ignoreHttp1xx
  intervalSeconds := toInt (toSeconds interval)
  maxConsecutiveFailures := maxConsecutiveFailures
  path := path
  port := port
  portIndex := portIndexOf portReference
  protocol := protocol
  ipProtocol := ipProtocolToRaml (ipProtocol.getD .ipv4)
  timeoutSeconds := toInt (toSeconds timeout)
  delaySeconds := toInt (toSeconds delay)

/-- Lists of arguments are not supported. -/
def appHealthCheckWrites : HealthCheck → Option AppHealthCheck
  | .marathonHttpHealthCheck gracePeriod interval timeout maxConsecutiveFailures portIndex port path
      protocol ignoreHttp1xx =>
    some (createHealthCheck gracePeriod interval timeout maxConsecutiveFailures
      (healthProtocolWrites protocol) none none (some ignoreHttp1xx) path port portIndex
      defaultDelay)
  | .marathonTcpHealthCheck gracePeriod interval timeout maxConsecutiveFailures portIndex port =>
    some (createHealthCheck gracePeriod interval timeout maxConsecutiveFailures .tcp none none none
      none port portIndex defaultDelay)
  | .mesosHealthCheck (.mesosCommandHealthCheck gracePeriod interval timeout maxConsecutiveFailures
      delay (.command value)) =>
    some (createHealthCheck gracePeriod interval timeout maxConsecutiveFailures .command none
      (some ⟨value⟩) none none none none delay)
  | .mesosHealthCheck (.mesosCommandHealthCheck _ _ _ _ _ (.argvList _)) => none
  | .mesosHealthCheck (.mesosHttpHealthCheck gracePeriod interval timeout maxConsecutiveFailures
      portIndex port path protocol ipProtocol delay) =>
    some (createHealthCheck gracePeriod interval timeout maxConsecutiveFailures
      (healthProtocolWrites protocol) (some ipProtocol) none none path port portIndex delay)
  | .mesosHealthCheck (.mesosTcpHealthCheck gracePeriod interval timeout maxConsecutiveFailures
      portIndex port ipProtocol delay) =>
    some (createHealthCheck gracePeriod interval timeout maxConsecutiveFailures .mesosTcp
      (some ipProtocol) none none none port portIndex delay)

def appHealthCheckRamlReader (check : AppHealthCheck) : Option HealthCheck :=
  let gracePeriod := seconds check.gracePeriodSeconds
  let interval := seconds check.intervalSeconds
  let timeout := seconds check.timeoutSeconds
  let failures := check.maxConsecutiveFailures
  let portIndex := check.portIndex.map PortReference.byIndex
  let delay := seconds check.delaySeconds
  match check.command with
  | some command =>
    if check.path = none ∧ check.port = none ∧ check.protocol = .command then
      some (.mesosHealthCheck (.mesosCommandHealthCheck gracePeriod interval timeout failures delay
        (.command command.value)))
    else none
  | none =>
    match check.protocol with
    | .mesosHttp =>
      some (.mesosHealthCheck (.mesosHttpHealthCheck gracePeriod interval timeout failures portIndex
        check.port check.path .mesosHttp (ipProtocolFromRaml check.ipProtocol) delay))
    | .mesosHttps =>
      some (.mesosHealthCheck (.mesosHttpHealthCheck gracePeriod interval timeout failures portIndex
        check.port check.path .mesosHttps (ipProtocolFromRaml check.ipProtocol) delay))
    | .mesosTcp =>
      some (.mesosHealthCheck (.mesosTcpHealthCheck gracePeriod interval timeout failures portIndex
        check.port (ipProtocolFromRaml check.ipProtocol) delay))
    -- it is not read whether informational responses are ignored
    | .http =>
      some (.marathonHttpHealthCheck gracePeriod interval timeout failures portIndex check.port
        check.path .http false)
    | .https =>
      some (.marathonHttpHealthCheck gracePeriod interval timeout failures portIndex check.port
        check.path .https false)
    | .tcp =>
      some (.marathonTcpHealthCheck gracePeriod interval timeout failures portIndex check.port)
    | .command => none

/-- The health checks of the API: informational responses are not ignored. -/
def IsAppHealthCheck : HealthCheck → Prop
  | .marathonHttpHealthCheck gracePeriod interval timeout _ portIndex _ _ protocol ignoreHttp1xx =>
    IsSeconds gracePeriod ∧ IsSeconds interval ∧ IsSeconds timeout ∧ IsIndexed portIndex ∧
      (protocol = .http ∨ protocol = .https) ∧ ignoreHttp1xx = false
  | .marathonTcpHealthCheck gracePeriod interval timeout _ portIndex _ =>
    IsSeconds gracePeriod ∧ IsSeconds interval ∧ IsSeconds timeout ∧ IsIndexed portIndex
  | .mesosHealthCheck (.mesosCommandHealthCheck gracePeriod interval timeout _ delay command) =>
    IsSeconds gracePeriod ∧ IsSeconds interval ∧ IsSeconds timeout ∧ IsSeconds delay ∧
      ∃ value, command = .command value
  | .mesosHealthCheck (.mesosHttpHealthCheck gracePeriod interval timeout _ portIndex _ _ protocol _
      delay) =>
    IsSeconds gracePeriod ∧ IsSeconds interval ∧ IsSeconds timeout ∧ IsIndexed portIndex ∧
      (protocol = .mesosHttp ∨ protocol = .mesosHttps) ∧ IsSeconds delay
  | .mesosHealthCheck (.mesosTcpHealthCheck gracePeriod interval timeout _ portIndex _ _ delay) =>
    IsSeconds gracePeriod ∧ IsSeconds interval ∧ IsSeconds timeout ∧ IsIndexed portIndex ∧
      IsSeconds delay

theorem restores_healthCheck {check : HealthCheck} :
    Restores appHealthCheckWrites appHealthCheckRamlReader check ↔ IsAppHealthCheck check := by
  cases check with
  | marathonHttpHealthCheck gracePeriod interval timeout failures portIndex port path protocol
      ignoreHttp1xx =>
    cases protocol <;>
      simp [Restores, appHealthCheckWrites, createHealthCheck, appHealthCheckRamlReader,
        healthProtocolWrites, IsAppHealthCheck, seconds_toInt_toSeconds, @eq_comm _ false]
  | marathonTcpHealthCheck gracePeriod interval timeout failures portIndex port =>
    simp [Restores, appHealthCheckWrites, createHealthCheck, appHealthCheckRamlReader,
      IsAppHealthCheck, seconds_toInt_toSeconds]
  | mesosHealthCheck check =>
    cases check with
    | mesosCommandHealthCheck gracePeriod interval timeout failures delay command =>
      cases command <;>
        simp [Restores, appHealthCheckWrites, createHealthCheck, appHealthCheckRamlReader,
          IsAppHealthCheck, seconds_toInt_toSeconds]
    | mesosHttpHealthCheck gracePeriod interval timeout failures portIndex port path protocol
        ipProtocol delay =>
      cases protocol <;>
        simp [Restores, appHealthCheckWrites, createHealthCheck, appHealthCheckRamlReader,
          healthProtocolWrites, IsAppHealthCheck, seconds_toInt_toSeconds]
    | mesosTcpHealthCheck gracePeriod interval timeout failures portIndex port ipProtocol delay =>
      simp [Restores, appHealthCheckWrites, createHealthCheck, appHealthCheckRamlReader,
        IsAppHealthCheck, seconds_toInt_toSeconds]

theorem isAppHealthCheck_of_reader {written : AppHealthCheck} {check : HealthCheck}
    (hgrace : IsSeconds (seconds written.gracePeriodSeconds))
    (hinterval : IsSeconds (seconds written.intervalSeconds))
    (htimeout : IsSeconds (seconds written.timeoutSeconds))
    (hdelay : IsSeconds (seconds written.delaySeconds))
    (h : appHealthCheckRamlReader written = some check) : IsAppHealthCheck check := by
  rw [appHealthCheckRamlReader] at h
  have hindex := isIndexed_map_byIndex written.portIndex
  cases hcommand : written.command with
  | some command =>
    rw [hcommand] at h
    dsimp only at h
    split_ifs at h
    cases h
    exact ⟨hgrace, hinterval, htimeout, hdelay, command.value, rfl⟩
  | none =>
    rw [hcommand] at h
    cases hprotocol : written.protocol <;> rw [hprotocol] at h <;> dsimp only at h
    case command => cases h
    case mesosHttp =>
      cases h
      exact ⟨hgrace, hinterval, htimeout, hindex, .inl rfl, hdelay⟩
    case mesosHttps =>
      cases h
      exact ⟨hgrace, hinterval, htimeout, hindex, .inr rfl, hdelay⟩
    case mesosTcp =>
      cases h
      exact ⟨hgrace, hinterval, htimeout, hindex, hdelay⟩
    case http =>
      cases h
      exact ⟨hgrace, hinterval, htimeout, hindex, .inl rfl, rfl⟩
    case https =>
      cases h
      exact ⟨hgrace, hinterval, htimeout, hindex, .inr rfl, rfl⟩
    case tcp =>
      cases h
      exact ⟨hgrace, hinterval, htimeout, hindex⟩

theorem stable_healthCheck : Stable appHealthCheckWrites appHealthCheckRamlReader := by
  intro a b h
  obtain ⟨written, hwritten, hread⟩ := Option.bind_eq_some_iff.mp h
  have hseconds : IsSeconds (seconds written.gracePeriodSeconds) ∧
      IsSeconds (seconds written.intervalSeconds) ∧ IsSeconds (seconds written.timeoutSeconds) ∧
      IsSeconds (seconds written.delaySeconds) := by
    have hcreated : ∃ gracePeriod interval timeout failures protocol ipProtocol command ignore path
        port portIndex delay, written = createHealthCheck gracePeriod interval timeout failures
          protocol ipProtocol command ignore path port portIndex delay := by
      rcases a with _ | _ | (⟨_, _, _, _, _, _ | _⟩ | _ | _)
      case mesosHealthCheck.mesosCommandHealthCheck.argvList => cases hwritten
      all_goals
        cases hwritten
        exact ⟨_, _, _, _, _, _, _, _, _, _, _, _, rfl⟩
    obtain ⟨gracePeriod, interval, timeout, _, _, _, _, _, _, _, _, delay, rfl⟩ := hcreated
    exact ⟨isSeconds_seconds_toInt _, isSeconds_seconds_toInt _, isSeconds_seconds_toInt _,
      isSeconds_seconds_toInt _⟩
  exact restores_healthCheck.mpr (isAppHealthCheck_of_reader hseconds.1 hseconds.2.1 hseconds.2.2.1
    hseconds.2.2.2 hread)

/-! ## Checks -/

/-- Lists of arguments are not matched. -/
def commandCheckWrites : Executable → Option CommandCheck
  | .command value => some ⟨.shellCommand value⟩
  | .argvList _ => none

def commandHealthCheckRamlReader (check : CommandCheck) : Executable :=
  match check.command with
  | .shellCommand shell => .command shell
  | .argvCommand argv => .argvList argv

def checkRamlWriter : Check → Option AppCheck
  | .mesosHttpCheck interval timeout portIndex port path delay =>
    some {
      http := some ⟨portIndexOf portIndex, port, path, .http⟩
      tcp := none
      exec := none
      intervalSeconds := toInt (toSeconds interval)
      timeoutSeconds := toInt (toSeconds timeout)
      delaySeconds := toInt (toSeconds delay) }
  | .mesosTcpCheck interval timeout portIndex port delay =>
    some {
      http := none
      tcp := some ⟨portIndexOf portIndex, port⟩
      exec := none
      intervalSeconds := toInt (toSeconds interval)
      timeoutSeconds := toInt (toSeconds timeout)
      delaySeconds := toInt (toSeconds delay) }
  | .mesosCommandCheck interval timeout delay command =>
    (commandCheckWrites command).map fun exec => {
      http := none
      tcp := none
      exec := some exec
      intervalSeconds := toInt (toSeconds interval)
      timeoutSeconds := toInt (toSeconds timeout)
      delaySeconds := toInt (toSeconds delay) }

/-- A check by HTTPS is not matched. -/
def appCheckRamlReader (check : AppCheck) : Option Check :=
  let interval := seconds check.intervalSeconds
  let timeout := seconds check.timeoutSeconds
  let delay := seconds check.delaySeconds
  match check.http, check.tcp, check.exec with
  | some httpCheck, none, none =>
    if httpCheck.scheme = .http then
      some (.mesosHttpCheck interval timeout (httpCheck.portIndex.map PortReference.byIndex)
        httpCheck.port httpCheck.path delay)
    else none
  | none, some tcpCheck, none =>
    some (.mesosTcpCheck interval timeout (tcpCheck.portIndex.map PortReference.byIndex)
      tcpCheck.port delay)
  | none, none, some execCheck =>
    some (.mesosCommandCheck interval timeout delay (commandHealthCheckRamlReader execCheck))
  | _, _, _ => none

/-- A check that can be written: its command is one for the shell. -/
def IsAppCheck : Check → Prop
  | .mesosHttpCheck interval timeout portIndex _ _ delay =>
    IsSeconds interval ∧ IsSeconds timeout ∧ IsIndexed portIndex ∧ IsSeconds delay
  | .mesosTcpCheck interval timeout portIndex _ delay =>
    IsSeconds interval ∧ IsSeconds timeout ∧ IsIndexed portIndex ∧ IsSeconds delay
  | .mesosCommandCheck interval timeout delay command =>
    IsSeconds interval ∧ IsSeconds timeout ∧ IsSeconds delay ∧ ∃ value, command = .command value

theorem restores_check {check : Check} :
    Restores checkRamlWriter appCheckRamlReader check ↔ IsAppCheck check := by
  cases check with
  | mesosHttpCheck interval timeout portIndex port path delay =>
    simp [Restores, checkRamlWriter, appCheckRamlReader, IsAppCheck, seconds_toInt_toSeconds]
  | mesosTcpCheck interval timeout portIndex port delay =>
    simp [Restores, checkRamlWriter, appCheckRamlReader, IsAppCheck, seconds_toInt_toSeconds]
  | mesosCommandCheck interval timeout delay command =>
    cases command <;>
      simp [Restores, checkRamlWriter, appCheckRamlReader, IsAppCheck, commandCheckWrites,
        commandHealthCheckRamlReader, seconds_toInt_toSeconds]

/-! ## Readiness checks -/

def readinessProtocolWrites : ReadinessCheck.Protocol → HttpScheme
  | .http => .http
  | .https => .https

def readinessProtocolReads : HttpScheme → ReadinessCheck.Protocol
  | .http => .http
  | .https => .https

def readinessCheckWrites (check : Marathon.ReadinessCheck) : ReadinessCheck where
  name := check.name
  protocol := readinessProtocolWrites check.protocol
  path := check.path
  portName := check.portName
  intervalSeconds := toInt (toSeconds check.interval)
  timeoutSeconds := toInt (toSeconds check.timeout)
  httpStatusCodesForReady := some check.httpStatusCodesForReady
  preserveLastResponse := check.preserveLastResponse

/-- The status codes must be specified. -/
def appReadinessRamlReader (check : ReadinessCheck) : Option Marathon.ReadinessCheck :=
  check.httpStatusCodesForReady.map fun httpStatusCodesForReady => {
    name := check.name
    protocol := readinessProtocolReads check.protocol
    path := check.path
    portName := check.portName
    interval := seconds check.intervalSeconds
    timeout := seconds check.timeoutSeconds
    httpStatusCodesForReady := httpStatusCodesForReady
    preserveLastResponse := check.preserveLastResponse }

theorem restores_readinessCheck {check : Marathon.ReadinessCheck} :
    Restores (fun c => some (readinessCheckWrites c)) appReadinessRamlReader check ↔
      IsSeconds check.interval ∧ IsSeconds check.timeout := by
  obtain ⟨name, protocol, path, portName, interval, timeout, codes, preserve⟩ := check
  cases protocol <;>
    simp [Restores, readinessCheckWrites, appReadinessRamlReader, readinessProtocolWrites,
      readinessProtocolReads, seconds_toInt_toSeconds]

/-! ## Strategies and limits -/

def upgradeStrategyWrites (strategy : Marathon.UpgradeStrategy) : UpgradeStrategy :=
  ⟨strategy.maximumOverCapacity, strategy.minimumHealthCapacity⟩

def upgradeStrategyRamlReader (us : UpgradeStrategy) : Marathon.UpgradeStrategy where
  maximumOverCapacity := us.maximumOverCapacity
  minimumHealthCapacity := us.minimumHealthCapacity

def ramlUnreachableStrategyWrite : Marathon.UnreachableStrategy → UnreachableStrategy
  | .unreachableEnabled inactiveAfter expungeAfter =>
    .unreachableEnabled (toSeconds inactiveAfter) (toSeconds expungeAfter)
  | .unreachableDisabled => .unreachableDisabled

def ramlUnreachableStrategyRead : UnreachableStrategy → Marathon.UnreachableStrategy
  | .unreachableEnabled inactiveAfterSeconds expungeAfterSeconds =>
    .unreachableEnabled (seconds inactiveAfterSeconds) (seconds expungeAfterSeconds)
  | .unreachableDisabled => .unreachableDisabled

def IsAppUnreachableStrategy : Marathon.UnreachableStrategy → Prop
  | .unreachableEnabled inactiveAfter expungeAfter =>
    IsWholeSeconds inactiveAfter ∧ IsWholeSeconds expungeAfter
  | .unreachableDisabled => True

theorem ramlUnreachableStrategyRead_write {strategy : Marathon.UnreachableStrategy} :
    ramlUnreachableStrategyRead (ramlUnreachableStrategyWrite strategy) = strategy ↔
      IsAppUnreachableStrategy strategy := by
  cases strategy <;>
    simp [ramlUnreachableStrategyRead, ramlUnreachableStrategyWrite, IsAppUnreachableStrategy,
      seconds_toSeconds]

def ramlKillSelectionWrite : Marathon.KillSelection → KillSelection
  | .youngestFirst => .youngestFirst
  | .oldestFirst => .oldestFirst

def ramlKillSelectionRead : KillSelection → Marathon.KillSelection
  | .oldestFirst => .oldestFirst
  | .youngestFirst => .youngestFirst

theorem ramlKillSelectionRead_write (killSelection : Marathon.KillSelection) :
    ramlKillSelectionRead (ramlKillSelectionWrite killSelection) = killSelection := by
  cases killSelection <;> rfl

def executorResourcesWrites (resources : Resources) : ExecutorResources where
  cpus := resources.cpus
  mem := resources.mem
  disk := resources.disk

/-- Executors get no GPUs. -/
def resourcesReads (executorResources : ExecutorResources) : Resources where
  cpus := executorResources.cpus
  mem := executorResources.mem
  disk := executorResources.disk
  gpus := 0

/-- Only one text is a limit. -/
def resourceLimitToDouble : ResourceLimit → Option (WithTop ℚ)
  | .unlimited text => if text = "unlimited" then some ⊤ else none
  | .number value => some value

def resourceLimitFromDouble (limit : WithTop ℚ) : ResourceLimit :=
  match limit with
  | none => .unlimited "unlimited"
  | some value => .number value

def ramlResourceLimitsWrite (limits : Marathon.ResourceLimits) : ResourceLimits where
  cpus := limits.cpus.map resourceLimitFromDouble
  mem := limits.mem.map resourceLimitFromDouble

def ramlResourceLimitsRead (limits : ResourceLimits) : Option Marathon.ResourceLimits := do
  let cpus ← limits.cpus.mapM resourceLimitToDouble
  let mem ← limits.mem.mapM resourceLimitToDouble
  some ⟨cpus, mem⟩

end Raml

end Marathon
