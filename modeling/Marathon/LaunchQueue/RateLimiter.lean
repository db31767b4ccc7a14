import Marathon.Lib.Dict
import Marathon.State.AppDefinition
import Mathlib.Data.Rat.Floor

/-!
# The rate limiter

`RateLimiter` has the launch delays of the run specs by their configs, and `RateLimiterActor` tells
those who have subscribed of every change.
-/

namespace Marathon.LaunchQueue

open Lib

namespace RateLimiter

structure Delay where
  referenceTimestamp : Timestamp
  currentDelay : FiniteDuration
  maxLaunchDelay : FiniteDuration
deriving DecidableEq

namespace Delay

def deadline (d : Delay) : Timestamp := d.referenceTimestamp.plus d.currentDelay

/-- `Delay.apply`. -/
def ofRunSpec (timestamp : Timestamp) (runSpec : RunSpec) : Delay :=
  let strategy := runSpec.backoffStrategy
  ⟨timestamp, min strategy.backoff strategy.maxLaunchDelay, strategy.maxLaunchDelay⟩

def increased (d : Delay) (now : Timestamp) (runSpec : RunSpec) : Delay :=
  let strategy := runSpec.backoffStrategy
  ⟨now, min strategy.maxLaunchDelay ⌊(d.currentDelay : ℚ) * strategy.factor⌋,
    strategy.maxLaunchDelay⟩

end Delay

structure DelayUpdate where
  ref : RunSpecConfigRef
  delay : Option Delay
deriving DecidableEq

end RateLimiter

open RateLimiter

/-- The task launch delays per run spec and their last config change. -/
structure RateLimiter where
  taskLaunchDelays : Dict RunSpecConfigRef Delay

namespace RateLimiter

def overdue (l : RateLimiter) (now : Timestamp) : List RunSpecConfigRef :=
  (l.taskLaunchDelays.bindings.filter fun b =>
    b.2.referenceTimestamp.plus b.2.maxLaunchDelay < now).map Prod.fst

/-- The delays of the overdue refs are reset. -/
def cleanUpOverdueDelays (l : RateLimiter) (now : Timestamp) : RateLimiter :=
  ⟨l.taskLaunchDelays.eraseAll (l.overdue now)⟩

def currentDelays (l : RateLimiter) : List DelayUpdate :=
  l.taskLaunchDelays.bindings.map fun b => ⟨b.1, some b.2⟩

def getDelay (l : RateLimiter) (ref : RunSpecConfigRef) : Option Delay :=
  l.taskLaunchDelays.lookup ref

def addDelay (l : RateLimiter) (now : Timestamp) (runSpec : RunSpec) : RateLimiter :=
  let newDelay := match l.getDelay runSpec.configRef with
    | some delay => delay.increased now runSpec
    | none => Delay.ofRunSpec now runSpec
  ⟨l.taskLaunchDelays.insert runSpec.configRef newDelay⟩

def resetDelay (l : RateLimiter) (runSpec : RunSpec) : RateLimiter :=
  ⟨l.taskLaunchDelays.erase runSpec.configRef⟩

def advanceDelay (l : RateLimiter) (now : Timestamp) (runSpec : RunSpec) : RateLimiter :=
  match l.getDelay runSpec.configRef with
  | some delay =>
    ⟨l.taskLaunchDelays.insert runSpec.configRef ⟨now, delay.currentDelay, delay.maxLaunchDelay⟩⟩
  | none => l

end RateLimiter

/-! ## The actor -/

namespace RateLimiterActor

/-- The messages of those who want delays changed, or to be told of them. -/
inductive Message
  | cleanupOverdueDelays
  | subscribe
  | unsubscribe
  | addDelay (runSpec : RunSpec)
  | decreaseDelay (runSpec : RunSpec)
  | advanceDelay (runSpec : RunSpec)
  | resetDelay (runSpec : RunSpec)

/-- The rate limiter, and whether the launch queue has subscribed. -/
structure State where
  rateLimiter : RateLimiter
  subscribed : Bool

/-- The updates are sent to the launch queue if it has subscribed. -/
def State.notify (s : State) (updates : List DelayUpdate) : State × List DelayUpdate :=
  (s, if s.subscribed then updates else [])

/-- The state after a message, and what is sent to the launch queue. -/
def receive (s : State) (now : Timestamp) : Message → State × List DelayUpdate
  | .cleanupOverdueDelays =>
    { s with rateLimiter := s.rateLimiter.cleanUpOverdueDelays now }.notify
      ((s.rateLimiter.overdue now).map fun ref => ⟨ref, none⟩)
  | .subscribe =>
    if s.subscribed then (s, []) else ({ s with subscribed := true }, s.rateLimiter.currentDelays)
  | .unsubscribe => ({ s with subscribed := false }, [])
  | .addDelay runSpec =>
    let rateLimiter := s.rateLimiter.addDelay now runSpec
    { s with rateLimiter := rateLimiter }.notify
      [⟨runSpec.configRef, rateLimiter.getDelay runSpec.configRef⟩]
  | .decreaseDelay _ => (s, [])
  | .advanceDelay runSpec =>
    let rateLimiter := s.rateLimiter.advanceDelay now runSpec
    { s with rateLimiter := rateLimiter }.notify
      [⟨runSpec.configRef, rateLimiter.getDelay runSpec.configRef⟩]
  | .resetDelay runSpec =>
    { s with rateLimiter := s.rateLimiter.resetDelay runSpec }.notify [⟨runSpec.configRef, none⟩]

end RateLimiterActor

end Marathon.LaunchQueue
