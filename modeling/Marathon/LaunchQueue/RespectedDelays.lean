import Marathon.LaunchQueue.TaskLaunches

/-!
# Delays that are respected

The launcher should not launch an instance before the last deadline that it has been told for the
config of the instance. An update is dropped while no scheduled instance has the config, and the
time that was set before stays.
-/

namespace Marathon.LaunchQueue.TaskLaunches

open Lib RateLimiter State Shop

/-- A delay update with the deadline has been received, and no later one has lowered or removed
it. -/
def Announced (received : List DelayUpdate) (ref : RunSpecConfigRef) (deadline : Timestamp) : Prop :=
  ∃ newer older delay, received = newer ++ ⟨ref, some delay⟩ :: older ∧
    delay.deadline = deadline ∧ ∀ u ∈ newer, u.ref = ref →
      ∃ delay', u.delay = some delay' ∧ deadline ≤ delay'.deadline

/-- A launch is not allowed before the deadline, unless that is over. -/
def Delayed (s : State) : Prop :=
  ∀ ref t deadline, s.launcher.launchAllowedAt.lookup ref = some t →
    Announced s.received ref deadline → deadline ≤ t ∨ deadline ≤ s.now

variable {s s' : State}

/-! ## What has been announced -/

variable {u : DelayUpdate} {received : List DelayUpdate} {deadline : Timestamp}

/-- Time passes, and some of the times are forgotten. -/
theorem Delayed.mono (h : Delayed s) (hreceived : s'.received = s.received) (hnow : s.now ≤ s'.now)
    (hallowed : ∀ ref t, s'.launcher.launchAllowedAt.lookup ref = some t →
      s.launcher.launchAllowedAt.lookup ref = some t) : Delayed s' := by
  intro ref t deadline ht hannounced
  rw [hreceived] at hannounced
  obtain hle | hle := h ref t deadline (hallowed ref t ht) hannounced
  · exact .inl hle
  · exact .inr (hle.trans hnow)

namespace Dropped

/-! The only scheduled instance of a run spec is provisioned when the run spec gets a delay, and the
next one is scheduled after that. -/

def started : State := Shop.started ((∅ : InstancesBySpec).insert (Shop.scheduled 0))

/-- The tracker has read what the launcher loads. -/
def asked : State :=
  { started with answer := some (.loadedInstances (specInstances started.tracker ⟨["shop"]⟩)) }

def loaded : State :=
  asked.answeredWith (asked.launcher.receiveLoadedInstances (specInstances asked.tracker ⟨["shop"]⟩))

def events : List Event :=
  [.read, .answered, .getDelay 0, .deliver 0, offer, .rateLimiter (.addDelay runSpec), .deliver 0,
    .process (.schedule (scheduled 1)), .deliver 0, .read, .answered]

def delay : Delay := .ofRunSpec ⟨10⟩ runSpec

end Dropped

end Marathon.LaunchQueue.TaskLaunches
