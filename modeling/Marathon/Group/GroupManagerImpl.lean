import Marathon.Deployment.DeploymentPlan
import Marathon.Lib.Machine

/-!
# The group manager

The calls that change the root group, each of them step by step: the root is read, the change is
run, and the outcome is stored, deployed and assigned. Calls of `updateRootEither` go through a work
queue one at a time, calls of `patchRoot` do not.
-/

namespace Marathon.GroupManagerImpl

open Lib Deployment

inductive Call
  /-- The plan that comes of `change`, the assignment of ports, the versioning and the validations;
  there is none when the change gives a `Left`. -/
  | updateRootEither (plan : RootGroup → Except String (Option DeploymentPlan))
  | patchRoot (change : RootGroup → RootGroup)

/-- How far a call has come. -/
inductive Progress
  | queued
  | hasRead (origin : RootGroup)
  | planned (plan : DeploymentPlan)
  | versionStored (plan : DeploymentPlan)
  | deployed (plan : DeploymentPlan)
  /-- `storeRoot` has put a promise in the place of the root: who reads it waits. -/
  | storing (target : RootGroup)
  | stored (target : RootGroup)
  /-- The root that has been assigned, if any. -/
  | succeeded (target : Option RootGroup)
  | failed

/-- Neither waiting in the queue nor over. -/
def Progress.isActive : Progress → Bool
  | queued | succeeded _ | failed => false
  | _ => true

def Progress.isStoring : Progress → Bool
  | storing _ => true
  | _ => false

/-- What the calls work on: the root that the manager keeps, the one of the repository, and the
deployments that have been accepted and are running. -/
structure World where
  root : RootGroup
  storedRoot : RootGroup
  deployments : List DeploymentPlan

structure State where
  world : World
  calls : List (Call × Progress)

/-- The work queue lets one update in at a time. -/
def State.isUpdating (s : State) : Bool :=
  s.calls.any fun c =>
    match c.1 with
    | .updateRootEither _ => c.2.isActive
    | .patchRoot _ => false

/-- A root is being stored. -/
def State.isStoring (s : State) : Bool := s.calls.any fun c => c.2.isStoring

/-- What the next step of a call does; the steps that ask another component may fail. -/
def advance (s : State) (succeeds : Bool) : Call → Progress → Option (World × Progress)
  | .updateRootEither _, .queued =>
    if s.isUpdating then none else some (s.world, .hasRead s.world.root)
  | .updateRootEither plan, .hasRead origin =>
    match plan origin with
    | .ok (some plan) => some (s.world, if succeeds then .planned plan else .failed)
    | .ok none => some (s.world, if succeeds then .succeeded none else .failed)
    | .error _ => some (s.world, .failed)
  | .updateRootEither _, .planned plan =>
    some (s.world, if succeeds then .versionStored plan else .failed)
  | .updateRootEither _, .versionStored plan =>
    if succeeds then
      some ({ s.world with deployments := s.world.deployments ++ [plan] }, .deployed plan)
    else some (s.world, .failed)
  | .updateRootEither _, .deployed plan =>
    some (s.world, if succeeds then .storing plan.target else .failed)
  | .patchRoot change, .hasRead origin =>
    some (s.world, if succeeds then .storing (change origin) else .failed)
  | _, .storing target =>
    -- the old root is put back when it fails
    if succeeds then some ({ s.world with storedRoot := target }, .stored target)
    else some (s.world, .failed)
  | _, .stored target => some ({ s.world with root := target }, .succeeded (some target))
  | _, _ => none

inductive Event
  | call (call : Call)
  | proceed (k : ℕ) (succeeds : Bool)
  /-- A deployment is over, finished or cancelled. -/
  | finish (k : ℕ)

/-- A patch reads the root when it is called, an update when the queue lets it in. -/
def State.begin (s : State) : Call → Call × Progress
  | .updateRootEither plan => (.updateRootEither plan, .queued)
  | .patchRoot change => (.patchRoot change, .hasRead s.world.root)

def step (s : State) : Event → Option State
  | .call call => some { s with calls := s.calls ++ [s.begin call] }
  | .proceed k succeeds =>
    (s.calls[k]?).bind fun c => (advance s succeeds c.1 c.2).map fun next =>
      { world := next.1, calls := s.calls.set k (c.1, next.2) }
  | .finish k =>
    some { s with world := { s.world with deployments := s.world.deployments.eraseIdx k } }

/-- At first the manager has the root of the repository; deployments may have been recovered. -/
def machine : Machine State Event where
  Init s := s.calls = [] ∧ s.world.root = s.world.storedRoot
  step := step

/-! ## What a step can do -/

/-- The steps of a call, with what they make of the world. -/
inductive Advances (s : State) : Bool → Call → Progress → World → Progress → Prop
  | enter (b : Bool) (plan : RootGroup → Except String (Option DeploymentPlan))
      (hfree : ¬s.isUpdating) :
      Advances s b (.updateRootEither plan) .queued s.world (.hasRead s.world.root)
  | change {plan : RootGroup → Except String (Option DeploymentPlan)} {origin : RootGroup}
      {computed : DeploymentPlan} (hplan : plan origin = .ok (some computed)) :
      Advances s true (.updateRootEither plan) (.hasRead origin) s.world (.planned computed)
  | left {plan : RootGroup → Except String (Option DeploymentPlan)} {origin : RootGroup}
      (hplan : plan origin = .ok none) :
      Advances s true (.updateRootEither plan) (.hasRead origin) s.world (.succeeded none)
  | storeRootVersion (plan : RootGroup → Except String (Option DeploymentPlan))
      (computed : DeploymentPlan) :
      Advances s true (.updateRootEither plan) (.planned computed) s.world (.versionStored computed)
  | deploy (plan : RootGroup → Except String (Option DeploymentPlan)) (computed : DeploymentPlan) :
      Advances s true (.updateRootEither plan) (.versionStored computed)
        { s.world with deployments := s.world.deployments ++ [computed] } (.deployed computed)
  | beginStore (plan : RootGroup → Except String (Option DeploymentPlan))
      (computed : DeploymentPlan) :
      Advances s true (.updateRootEither plan) (.deployed computed) s.world
        (.storing computed.target)
  | patch (change : RootGroup → RootGroup) (origin : RootGroup) :
      Advances s true (.patchRoot change) (.hasRead origin) s.world (.storing (change origin))
  | store (call : Call) (target : RootGroup) :
      Advances s true call (.storing target) { s.world with storedRoot := target } (.stored target)
  | assign (b : Bool) (call : Call) (target : RootGroup) :
      Advances s b call (.stored target) { s.world with root := target } (.succeeded (some target))
  | fail (b : Bool) (call : Call) {progress : Progress} (hactive : progress.isActive)
      (hstored : ∀ target, progress ≠ .stored target) :
      Advances s b call progress s.world .failed

theorem advances_of_advance {s : State} {succeeds : Bool} {call : Call} {progress : Progress}
    {next : World × Progress} (h : advance s succeeds call progress = some next) :
    Advances s succeeds call progress next.1 next.2 := by
  cases progress with
  | queued =>
    cases call with
    | patchRoot => cases h
    | updateRootEither plan =>
      rw [advance] at h
      split_ifs at h with hupdating
      cases h
      exact .enter succeeds plan hupdating
  | hasRead origin =>
    cases call with
    | patchRoot change =>
      cases h
      cases succeeds with
      | true => exact .patch change origin
      | false => exact .fail false _ rfl fun _ => Progress.noConfusion
    | updateRootEither plan =>
      rw [advance] at h
      split at h
      all_goals
        rename_i hplan
        cases h
      · cases succeeds with
        | true => exact .change hplan
        | false => exact .fail false _ rfl fun _ => Progress.noConfusion
      · cases succeeds with
        | true => exact .left hplan
        | false => exact .fail false _ rfl fun _ => Progress.noConfusion
      · exact .fail succeeds _ rfl fun _ => Progress.noConfusion
  | planned plan =>
    cases call with
    | patchRoot => cases h
    | updateRootEither =>
      cases h
      cases succeeds with
      | true => exact .storeRootVersion _ plan
      | false => exact .fail false _ rfl fun _ => Progress.noConfusion
  | versionStored plan =>
    cases call with
    | patchRoot => cases h
    | updateRootEither =>
      cases succeeds with
      | true =>
        cases h
        exact .deploy _ plan
      | false =>
        cases h
        exact .fail false _ rfl fun _ => Progress.noConfusion
  | deployed plan =>
    cases call with
    | patchRoot => cases h
    | updateRootEither =>
      cases h
      cases succeeds with
      | true => exact .beginStore _ plan
      | false => exact .fail false _ rfl fun _ => Progress.noConfusion
  | storing target =>
    cases succeeds with
    | true =>
      obtain rfl : ({ s.world with storedRoot := target }, Progress.stored target) = next := by
        cases call <;> exact Option.some.inj h
      exact .store call target
    | false =>
      obtain rfl : (s.world, Progress.failed) = next := by
        cases call <;> exact Option.some.inj h
      exact .fail false call rfl fun _ => Progress.noConfusion
  | stored target =>
    obtain rfl : ({ s.world with root := target }, Progress.succeeded (some target)) = next := by
      cases call <;> exact Option.some.inj h
    exact .assign succeeds call target
  | succeeded => cases call <;> cases h
  | failed => cases call <;> cases h

theorem step_proceed_eq_some {s s' : State} {k : ℕ} {succeeds : Bool}
    (h : step s (.proceed k succeeds) = some s') :
    ∃ call progress world progress', s.calls[k]? = some (call, progress) ∧
      Advances s succeeds call progress world progress' ∧
        s' = ⟨world, s.calls.set k (call, progress')⟩ := by
  obtain ⟨c, hc, h⟩ := Option.bind_eq_some_iff.mp h
  obtain ⟨next, hnext, rfl⟩ := Option.map_eq_some_iff.mp h
  exact ⟨c.1, c.2, next.1, next.2, hc, advances_of_advance hnext, rfl⟩

end Marathon.GroupManagerImpl
