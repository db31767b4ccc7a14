import Marathon.Instance.Instance

/-!
# Health

The results of health checks and what they make of the health of an instance.
-/

namespace Marathon

inductive HealthResult
  | healthy (instanceId : InstanceId) (version time : Timestamp) (publishEvent : Bool)
  | unhealthy (instanceId : InstanceId) (version : Timestamp) (cause : String) (time : Timestamp)
      (publishEvent : Bool)
  | ignored (instanceId : InstanceId) (version time : Timestamp) (publishEvent : Bool)
deriving DecidableEq

namespace HealthResult

def instanceId : HealthResult → InstanceId
  | healthy instanceId .. | unhealthy instanceId .. | ignored instanceId .. => instanceId

def version : HealthResult → Timestamp
  | healthy _ version .. | unhealthy _ version .. | ignored _ version .. => version

def time : HealthResult → Timestamp
  | healthy _ _ time _ | unhealthy _ _ _ time _ | ignored _ _ time _ => time

def publishEvent : HealthResult → Bool
  | healthy _ _ _ publishEvent | unhealthy _ _ _ _ publishEvent | ignored _ _ _ publishEvent =>
    publishEvent

end HealthResult

structure Health where
  instanceId : InstanceId
  firstSuccess : Option Timestamp
  lastSuccess : Option Timestamp
  lastFailure : Option Timestamp
  lastFailureCause : Option String
  consecutiveFailures : ℤ
deriving DecidableEq

namespace Health

/-- `Health.apply`: nothing is known of the instance. -/
def ofInstance (instanceId : InstanceId) : Health := ⟨instanceId, none, none, none, none, 0⟩

def alive (health : Health) : Bool :=
  health.lastSuccess.any fun successTime =>
    health.lastFailure.all fun failureTime => failureTime < successTime

/-- The count of failures is an `Int` of 32 bits. There is no case for an ignored result. -/
def update (health : Health) : HealthResult → Except Thrown Health
  | .healthy _ _ time _ => .ok
    { health with
      firstSuccess := health.firstSuccess.or (some time)
      lastSuccess := some time
      consecutiveFailures := 0 }
  | .unhealthy _ _ cause time _ => .ok
    { health with
      lastFailure := some time
      lastFailureCause := some cause
      consecutiveFailures := (health.consecutiveFailures + 1).bmod (2 ^ 32) }
  | .ignored .. => .error .matchError

end Health

/-- `maxConsecutiveFailures` of any health check. -/
def HealthCheck.maxConsecutiveFailures : HealthCheck → ℤ
  | .marathonHttpHealthCheck _ _ _ maxConsecutiveFailures .. => maxConsecutiveFailures
  | .marathonTcpHealthCheck _ _ _ maxConsecutiveFailures .. => maxConsecutiveFailures
  | .mesosHealthCheck (.mesosCommandHealthCheck _ _ _ maxConsecutiveFailures ..) =>
    maxConsecutiveFailures
  | .mesosHealthCheck (.mesosHttpHealthCheck _ _ _ maxConsecutiveFailures ..) =>
    maxConsecutiveFailures
  | .mesosHealthCheck (.mesosTcpHealthCheck _ _ _ maxConsecutiveFailures ..) =>
    maxConsecutiveFailures

def HealthCheck.gracePeriod : HealthCheck → FiniteDuration
  | .marathonHttpHealthCheck gracePeriod .. => gracePeriod
  | .marathonTcpHealthCheck gracePeriod .. => gracePeriod
  | .mesosHealthCheck (.mesosCommandHealthCheck gracePeriod ..) => gracePeriod
  | .mesosHealthCheck (.mesosHttpHealthCheck gracePeriod ..) => gracePeriod
  | .mesosHealthCheck (.mesosTcpHealthCheck gracePeriod ..) => gracePeriod

end Marathon
