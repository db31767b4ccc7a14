import Marathon.Launcher.OfferMatcherReconciler
import Marathon.Instance.LiveTasks

/-!
# Volumes of instances that are wanted

Root updates, operations on the tracker and offers that are being reconciled, interleaved in any
order. A new root is stored only after its deployment has been started, so that the repository may
know less than the deployments do.
-/

namespace Marathon.OfferMatcherReconciler

open Lib Mesos

/-- An offer that is being matched, with the answers that have come so far. -/
structure Matching where
  resources : Dict InstanceId (List Resource)
  instances : Option InstancesBySpec
  rootGroup : Option RootGroup

structure State where
  manager : GroupManagerImpl.State
  instances : InstancesBySpec
  matchings : List Matching

inductive Event
  | manager (e : GroupManagerImpl.Event)
  | process (clock : Timestamp) (op : InstanceUpdateOperation)
  | matchOffer (resources : List LabelledResource)
  | answerInstances (k : ℕ)
  | answerRoot (k : ℕ)
  /-- Both answers are there: the operations are created, and the offer is done with. -/
  | finish (k : ℕ)

/-- What the tracker holds after an operation. -/
def processed (instances : InstancesBySpec) (clock : Timestamp) (op : InstanceUpdateOperation) :
    InstancesBySpec :=
  match InstanceUpdateOpResolver.resolve clock (instances.lookup op.instanceId) op with
  | .ok effect => instances.update effect
  | .error _ => instances

def step (s : State) : Event → Option State
  | .manager (.call (.patchRoot _)) => none
  | .manager e => (GroupManagerImpl.step s.manager e).map fun m => { s with manager := m }
  | .process clock op => some { s with instances := processed s.instances clock op }
  | .matchOffer resources =>
    -- the tracker is not queried in the common case
    if (resourcesByInstanceId resources).keys = [] then some s
    else some { s with matchings := s.matchings ++ [⟨resourcesByInstanceId resources, none, none⟩] }
  | .answerInstances k =>
    (s.matchings[k]?).bind fun m =>
      if m.instances.isSome then none
      else some { s with matchings := s.matchings.set k { m with instances := some s.instances } }
  | .answerRoot k =>
    (s.matchings[k]?).bind fun m =>
      -- while a root is being stored its readers wait
      if m.rootGroup.isSome || s.manager.isStoring then none
      else
        some
          { s with
            matchings := s.matchings.set k
              { m with rootGroup := some s.manager.world.storedRoot } }
  | .finish k =>
    (s.matchings[k]?).bind fun m =>
      if m.instances.isSome && m.rootGroup.isSome then
        some { s with matchings := s.matchings.eraseIdx k }
      else none

/-- At first no update is under way and no offer is being matched. -/
def machine : Machine State Event where
  Init s := GroupManagerImpl.machine.Init s.manager ∧ s.matchings = []
  step := step

/-! ## Wanted instances -/

/-- The target of an update whose deployment has been started and that is not over. -/
def startedBy : GroupManagerImpl.Call × GroupManagerImpl.Progress → List RootGroup
  | (_, .deployed plan) => [plan.target]
  | (_, .storing target) | (_, .stored target) => [target]
  | _ => []

/-- The targets of the deployments that have been started. -/
def State.startedTargets (s : State) : List RootGroup :=
  s.manager.world.deployments.map (fun plan => plan.target) ++ s.manager.calls.flatMap startedBy

/-- There is a run spec for the instance in the stored root or in a target. -/
def State.HasRunSpec (s : State) (id : InstanceId) : Prop :=
  hasRunSpec s.manager.world.storedRoot id = true ∨
    ∃ target ∈ s.startedTargets, hasRunSpec target id = true

/-- The instance is known, not decommissioned and terminal, and its run spec is contained in the
stored root or in the target of a deployment that has been started. -/
def State.Wanted (s : State) (id : InstanceId) : Prop := Live s.instances id ∧ s.HasRunSpec id

/-- No matching whose answers are there comes to free the volumes of a wanted instance. -/
def Safe (s : State) : Prop :=
  ∀ m ∈ s.matchings, ∀ instances rootGroup, m.instances = some instances →
    m.rootGroup = some rootGroup → ∀ op ∈ createInstanceOps instances rootGroup m.resources,
      ¬s.Wanted op.1.instanceId

/-- A root is answered that has the run specs of the live instances of the offer which the started
deployments have; no deployment is started that has a run spec of such an instance which an answered
root has not; and no instance of an offer with an answer comes back to life. -/
def KeepsUp (s : State) : Event → Prop
  | .answerRoot k => ∀ m, s.matchings[k]? = some m → ∀ id ∈ m.resources.keys,
      Live s.instances id → (∃ target ∈ s.startedTargets, hasRunSpec target id = true) →
        hasRunSpec s.manager.world.storedRoot id = true
  | .manager (.proceed k true) => ∀ call plan,
      s.manager.calls[k]? = some (call, .versionStored plan) → ∀ m ∈ s.matchings, ∀ rootGroup,
        m.rootGroup = some rootGroup → ∀ id ∈ m.resources.keys, Live s.instances id →
          hasRunSpec plan.target id = true → hasRunSpec rootGroup id = true
  | .process clock op => ∀ m ∈ s.matchings, m.instances.isSome ∨ m.rootGroup.isSome →
      ∀ id ∈ m.resources.keys, Live (processed s.instances clock op) id → Live s.instances id
  | _ => True

/-! ## The invariant -/

structure Consistent (s : State) : Prop where
  updates : ∀ c ∈ s.manager.calls, ∃ plan, c.1 = .updateRootEither plan
  /-- What the tracker did not answer as live has not come back. -/
  gone : ∀ m ∈ s.matchings, ∀ instances, m.instances = some instances →
    ∀ id ∈ m.resources.keys, Live s.instances id → Live instances id
  /-- The answered roots have the run specs of the wanted instances. -/
  told : ∀ m ∈ s.matchings, ∀ rootGroup, m.rootGroup = some rootGroup →
    ∀ id ∈ m.resources.keys, s.Wanted id → hasRunSpec rootGroup id = true

theorem Consistent.safe {s : State} (h : Consistent s) : Safe s := by
  intro m hm instances rootGroup hinstances hroot op hop hwanted
  obtain ⟨hkey, hfreed⟩ := mem_createInstanceOps hop
  have hlive := h.gone m hm instances hinstances _ hkey hwanted.1
  have htold := h.told m hm rootGroup hroot _ hkey hwanted
  rw [hfreed hlive] at htold
  cases htold

section Manager

variable {s : GroupManagerImpl.State} {succeeds : Bool} {call : GroupManagerImpl.Call}
  {progress progress' : GroupManagerImpl.Progress} {world : GroupManagerImpl.World}

theorem started_of_advances {plan : RootGroup → Except String (Option Deployment.DeploymentPlan)}
    (hcall : call = .updateRootEither plan)
    (h : GroupManagerImpl.Advances s succeeds call progress world progress') :
    (world.storedRoot = s.world.storedRoot ∨ world.storedRoot ∈ startedBy (call, progress)) ∧
      (∀ computed ∈ world.deployments, computed ∈ s.world.deployments ∨
        succeeds = true ∧ progress = .versionStored computed) ∧
      ∀ target ∈ startedBy (call, progress'), target ∈ startedBy (call, progress) ∨
        succeeds = true ∧ ∃ computed, progress = .versionStored computed ∧
          target = computed.target := by
  cases h with
  | deploy _ computed =>
    refine ⟨.inl rfl, fun other hother => ?_, fun target htarget => ?_⟩
    · rcases List.mem_append.mp hother with hold | hnew
      · exact .inl hold
      · rw [List.mem_singleton.mp hnew]
        exact .inr ⟨rfl, rfl⟩
    · exact .inr ⟨rfl, computed, rfl, List.mem_singleton.mp htarget⟩
  | store _ target =>
    exact ⟨.inr (List.mem_singleton.mpr rfl), fun _ hother => .inl hother,
      fun _ htarget => .inl htarget⟩
  | patch => cases hcall
  | beginStore => exact ⟨.inl rfl, fun _ hother => .inl hother, fun _ htarget => .inl htarget⟩
  | _ =>
    refine ⟨.inl rfl, fun _ hother => .inl hother, fun target htarget => ?_⟩
    cases htarget

end Manager

theorem hasRunSpec_of_step {s : State}
    (hupdates : ∀ c ∈ s.manager.calls, ∃ plan, c.1 = .updateRootEither plan) {k : ℕ}
    {succeeds : Bool} {manager : GroupManagerImpl.State}
    (hstep : GroupManagerImpl.step s.manager (.proceed k succeeds) = some manager)
    {id : InstanceId} (h : State.HasRunSpec { s with manager := manager } id) :
    s.HasRunSpec id ∨ ∃ call plan, succeeds = true ∧
      s.manager.calls[k]? = some (call, .versionStored plan) ∧ hasRunSpec plan.target id = true := by
  obtain ⟨call, progress, world, progress', hc, hadvances, rfl⟩ :=
    GroupManagerImpl.step_proceed_eq_some hstep
  have hmem := List.mem_of_getElem? hc
  obtain ⟨plan, hcall⟩ := hupdates _ hmem
  obtain ⟨hroot, hdeployments, htargets⟩ := started_of_advances hcall hadvances
  have hstarted : ∀ target ∈ startedBy (call, progress), target ∈ s.startedTargets :=
    fun target htarget => List.mem_append_right _ (List.mem_flatMap.mpr ⟨_, hmem, htarget⟩)
  rcases h with hstored | ⟨target, htarget, hspec⟩
  · rcases hroot with hsame | hnew
    · exact .inl (.inl (hsame ▸ hstored))
    · exact .inl (.inr ⟨_, hstarted _ hnew, hstored⟩)
  · rcases List.mem_append.mp htarget with hrunning | hcalls
    · obtain ⟨computed, hcomputed, rfl⟩ := List.mem_map.mp hrunning
      rcases hdeployments computed hcomputed with hold | ⟨hsucceeds, rfl⟩
      · exact .inl (.inr ⟨_, List.mem_append_left _ (List.mem_map.mpr ⟨_, hold, rfl⟩), hspec⟩)
      · exact .inr ⟨call, computed, hsucceeds, hc, hspec⟩
    · obtain ⟨c, hcset, hctarget⟩ := List.mem_flatMap.mp hcalls
      rcases List.mem_or_eq_of_mem_set hcset with hold | rfl
      · exact .inl (.inr ⟨target, List.mem_append_right _ (List.mem_flatMap.mpr ⟨c, hold, hctarget⟩),
          hspec⟩)
      · rcases htargets target hctarget with hold | ⟨hsucceeds, computed, rfl, rfl⟩
        · exact .inl (.inr ⟨target, hstarted target hold, hspec⟩)
        · exact .inr ⟨call, computed, hsucceeds, hc, hspec⟩

/-! ## The steps -/

section Steps

variable {s s' : State}

theorem Consistent.call (h : Consistent s)
    (plan : RootGroup → Except String (Option Deployment.DeploymentPlan)) :
    Consistent { s with manager :=
      { s.manager with calls := s.manager.calls ++ [(.updateRootEither plan, .queued)] } } := by
  constructor
  case updates =>
    intro c hc
    rcases List.mem_append.mp hc with hold | hnew
    · exact h.updates c hold
    · exact ⟨plan, by rw [List.mem_singleton.mp hnew]⟩
  case gone => exact h.gone
  case told =>
    intro m hm rootGroup hroot id hid hwanted
    apply h.told m hm rootGroup hroot id hid
    refine ⟨hwanted.1, hwanted.2.imp_right ?_⟩
    rintro ⟨target, htarget, hspec⟩
    refine ⟨target, ?_, hspec⟩
    -- a call in the queue has not started anything
    rw [State.startedTargets, List.flatMap_append] at htarget
    simpa [State.startedTargets, startedBy] using htarget

theorem Consistent.finishDeployment (h : Consistent s) (k : ℕ) :
    Consistent { s with manager :=
      { s.manager with world :=
        { s.manager.world with deployments := s.manager.world.deployments.eraseIdx k } } } := by
  refine ⟨h.updates, h.gone, ?_⟩
  intro m hm rootGroup hroot id hid hwanted
  apply h.told m hm rootGroup hroot id hid
  refine ⟨hwanted.1, hwanted.2.imp_right ?_⟩
  rintro ⟨target, htarget, hspec⟩
  refine ⟨target, ?_, hspec⟩
  rcases List.mem_append.mp htarget with hrunning | hcalls
  · obtain ⟨plan, hplan, rfl⟩ := List.mem_map.mp hrunning
    exact List.mem_append_left _ (List.mem_map.mpr ⟨plan, List.mem_of_mem_eraseIdx hplan, rfl⟩)
  · exact List.mem_append_right _ hcalls

theorem Consistent.proceed (h : Consistent s) {k : ℕ} {succeeds : Bool}
    {manager : GroupManagerImpl.State} (hok : KeepsUp s (.manager (.proceed k succeeds)))
    (hstep : GroupManagerImpl.step s.manager (.proceed k succeeds) = some manager) :
    Consistent { s with manager := manager } := by
  constructor
  case updates =>
    obtain ⟨call, progress, world, progress', hc, -, rfl⟩ :=
      GroupManagerImpl.step_proceed_eq_some hstep
    intro c hcset
    rcases List.mem_or_eq_of_mem_set hcset with hold | rfl
    · exact h.updates c hold
    · exact h.updates (call, progress) (List.mem_of_getElem? hc)
  case gone => exact h.gone
  case told =>
    intro m hm rootGroup hroot id hid hwanted
    rcases hasRunSpec_of_step h.updates hstep hwanted.2 with hbefore | ⟨call, plan, rfl, hc, hspec⟩
    · exact h.told m hm rootGroup hroot id hid ⟨hwanted.1, hbefore⟩
    · exact hok call plan hc m hm rootGroup hroot id hid hwanted.1 hspec

theorem Consistent.process (h : Consistent s) {clock : Timestamp} {op : InstanceUpdateOperation}
    (hok : KeepsUp s (.process clock op)) :
    Consistent { s with instances := processed s.instances clock op } := by
  refine ⟨h.updates, fun m hm instances hinstances id hid hlive => ?_,
    fun m hm rootGroup hroot id hid hwanted => ?_⟩
  · have hbefore := hok m hm (.inl (Option.isSome_iff_exists.mpr ⟨instances, hinstances⟩)) id hid
      hlive
    exact h.gone m hm instances hinstances id hid hbefore
  · have hbefore := hok m hm (.inr (Option.isSome_iff_exists.mpr ⟨rootGroup, hroot⟩)) id hid
      hwanted.1
    exact h.told m hm rootGroup hroot id hid ⟨hbefore, hwanted.2⟩

theorem Consistent.of_matchings (h : Consistent s) {matchings : List Matching}
    (hnew : ∀ m ∈ matchings, m ∉ s.matchings →
      (∀ instances, m.instances = some instances → ∀ id ∈ m.resources.keys,
        Live s.instances id → Live instances id) ∧
      ∀ rootGroup, m.rootGroup = some rootGroup → ∀ id ∈ m.resources.keys, s.Wanted id →
        hasRunSpec rootGroup id = true) :
    Consistent { s with matchings := matchings } := by
  refine ⟨h.updates, fun m hm => ?_, fun m hm => ?_⟩
  · by_cases hold : m ∈ s.matchings
    · exact h.gone m hold
    · exact (hnew m hm hold).1
  · by_cases hold : m ∈ s.matchings
    · exact h.told m hold
    · exact (hnew m hm hold).2

theorem Consistent.step (h : Consistent s) {e : Event} (hok : KeepsUp s e)
    (hstep : step s e = some s') : Consistent s' := by
  cases e with
  | manager e =>
    cases e with
    | call call =>
      cases call with
      | updateRootEither plan =>
        cases hstep
        exact h.call plan
      | patchRoot => cases hstep
    | proceed k succeeds =>
      obtain ⟨manager, hmanager, rfl⟩ := Option.map_eq_some_iff.mp hstep
      exact h.proceed hok hmanager
    | finish k =>
      cases hstep
      exact h.finishDeployment k
  | process clock op =>
    cases hstep
    exact h.process hok
  | matchOffer resources =>
    rw [OfferMatcherReconciler.step] at hstep
    split_ifs at hstep
    · cases hstep
      exact h
    · cases hstep
      apply h.of_matchings
      intro m hm hold
      obtain rfl := List.mem_singleton.mp ((List.mem_append.mp hm).resolve_left hold)
      exact ⟨fun _ hinstances => absurd hinstances.symm (Option.some_ne_none _),
        fun _ hroot => absurd hroot.symm (Option.some_ne_none _)⟩
  | answerInstances k =>
    obtain ⟨m, hm, hstep⟩ := Option.bind_eq_some_iff.mp hstep
    split_ifs at hstep
    cases hstep
    apply h.of_matchings
    intro m' hm' hold
    obtain rfl := (List.mem_or_eq_of_mem_set hm').resolve_left hold
    refine ⟨fun instances hinstances id _ hlive => ?_, h.told m (List.mem_of_getElem? hm)⟩
    rwa [← Option.some.inj hinstances]
  | answerRoot k =>
    obtain ⟨m, hm, hstep⟩ := Option.bind_eq_some_iff.mp hstep
    split_ifs at hstep
    cases hstep
    apply h.of_matchings
    intro m' hm' hold
    obtain rfl := (List.mem_or_eq_of_mem_set hm').resolve_left hold
    refine ⟨h.gone m (List.mem_of_getElem? hm), fun rootGroup hroot id hid hwanted => ?_⟩
    rw [← Option.some.inj hroot]
    exact hwanted.2.elim (fun hstored => hstored) fun hstarted => hok m hm id hid hwanted.1 hstarted
  | finish k =>
    obtain ⟨m, -, hstep⟩ := Option.bind_eq_some_iff.mp hstep
    split_ifs at hstep
    cases hstep
    apply h.of_matchings
    exact fun m' hm' hold => absurd (List.mem_of_mem_eraseIdx hm') hold

end Steps

/-- In a run in which the answered roots keep up with the deployments no volumes of a wanted
instance are freed. -/
theorem safe_of_keepsUp {s : State} (h : machine.ReachableIf KeepsUp s) : Safe s := by
  have hconsistent : Consistent s := by
    apply h.invariant
    · rintro s ⟨⟨hcalls, -⟩, hmatchings⟩
      constructor
      case updates =>
        rw [hcalls]
        exact fun c hc => absurd hc List.not_mem_nil
      case gone =>
        rw [hmatchings]
        exact fun m hm => absurd hm List.not_mem_nil
      case told =>
        rw [hmatchings]
        exact fun m hm => absurd hm List.not_mem_nil
    · exact fun s e s' hs hok hstep => hs.step hok hstep
  exact hconsistent.safe

/-! ## A new pod with a volume -/

/-- Whether a step meets the condition for a simple reason. -/
def meetsSimply (s : State) : Event → Bool
  | .answerRoot k => (s.matchings[k]?).all fun m =>
      m.resources.keys.all fun id => hasRunSpec s.manager.world.storedRoot id
  | .manager _ | .process .. => s.matchings.isEmpty
  | _ => true

theorem keepsUp_of_meetsSimply {s : State} {e : Event} (h : meetsSimply s e = true) :
    KeepsUp s e := by
  cases e with
  | answerRoot k =>
    intro m hm id hid _ _
    rw [meetsSimply, hm, Option.all_some, List.all_eq_true] at h
    exact h id hid
  | manager e =>
    have hempty : s.matchings = [] := List.isEmpty_iff.mp h
    cases e with
    | proceed k succeeds =>
      cases succeeds with
      | true =>
        intro call plan _ m hm
        rw [hempty] at hm
        cases hm
      | false => trivial
    | call | finish => trivial
  | process =>
    have hempty : s.matchings = [] := List.isEmpty_iff.mp h
    intro m hm
    rw [hempty] at hm
    cases hm
  | matchOffer | answerInstances | finish => trivial

namespace NewStore

/-- A pod with a persistent volume. -/
def pod : PodDefinition :=
  { plainPod ⟨["db", "store"]⟩ ["store"] with
    volumes := [.persistentVolume (some "data") ⟨10, none, .root, none, ∅⟩] }

def target : RootGroup := plainRoot [plainGroup ⟨["db"]⟩ [] [pod] ∅]

def addPod : GroupManagerImpl.Call :=
  .updateRootEither fun origin =>
    match Deployment.DeploymentPlan.apply origin target ∅ ⟨1⟩ none "deployment" with
    | .ok plan => .ok (some plan)
    | .error _ => .error "no plan"

def instanceId : InstanceId := ⟨⟨["db", "store"]⟩, .instance, ⟨0⟩⟩

def reservation : Reservation := ⟨[⟨⟨["db", "store"]⟩, "data", "0"⟩], .new none, .simplifiedId instanceId⟩

def start : State where
  manager := ⟨⟨plainRoot [], plainRoot [], []⟩, []⟩
  instances := ∅
  matchings := []

theorem init_start : machine.Init start := ⟨⟨rfl, rfl⟩, rfl⟩

/-- The next steps of the update. -/
def proceed (count : ℕ) : List Event := List.replicate count (.manager (.proceed 0 true))

/-- An instance is scheduled, and resources are reserved for it. -/
def reserve : List Event :=
  [.process ⟨2⟩ (.schedule (.scheduled (.pod pod) instanceId ⟨2⟩)),
    .process ⟨3⟩ (.reserve instanceId reservation plainAgent)]

/-- The resources are offered, and both questions are answered. -/
def offered : List Event :=
  [.matchOffer [⟨⟨.disk, .scalar 10, "*", none, none, none⟩, some instanceId⟩], .answerInstances 0,
    .answerRoot 0]

def isLive (instances : InstancesBySpec) (id : InstanceId) : Bool :=
  (instances.lookup id).any fun i =>
    !(decide (i.state.goal = .decommissioned) && i.state.condition.isTerminal)

theorem live_of_isLive {instances : InstancesBySpec} {id : InstanceId}
    (h : isLive instances id = true) : Live instances id := by
  obtain ⟨i, hi, htest⟩ := Machine.exists_of_any h
  refine ⟨i, hi, ?_⟩
  rintro ⟨hgoal, hterminal⟩
  rw [hgoal, hterminal] at htest
  cases htest

/-- The instance is live and its pod is in a started target. -/
def isWanted (s : State) : Bool :=
  isLive s.instances instanceId && s.startedTargets.any fun target => hasRunSpec target instanceId

theorem wanted_of_isWanted {s : State} (h : isWanted s = true) : s.Wanted instanceId := by
  obtain ⟨hlive, htargets⟩ := Bool.and_eq_true_iff.mp h
  obtain ⟨target, htarget, hspec⟩ := List.any_eq_true.mp htargets
  exact ⟨live_of_isLive hlive, .inr ⟨target, htarget, hspec⟩⟩

/-- Both answers are there, and they lead to an operation on the instance or not. -/
def freesInstance (m : Matching) : Option Bool :=
  m.instances.bind fun instances => m.rootGroup.map fun rootGroup =>
    (createInstanceOps instances rootGroup m.resources).any fun op => op.1.instanceId = instanceId

/-- The root is stored before the reserved resources are offered. -/
theorem exists_safe : ∃ s, machine.Reachable s ∧ s.Wanted instanceId ∧
    (s.matchings.map freesInstance = [some false]) ∧ Safe s := by
  have hrun : (machine.runIf (fun s e => meetsSimply s e = true) start
      (.manager (.call addPod) :: proceed 7 ++ reserve ++ offered)).any (fun s =>
        isWanted s && decide (s.matchings.map freesInstance = [some false])) = true := by
    decide +kernel
  obtain ⟨s, hs, htest⟩ := Machine.exists_of_any hrun
  obtain ⟨hwanted, hfrees⟩ := Bool.and_eq_true_iff.mp htest
  have hreachable : machine.ReachableIf KeepsUp s :=
    (Machine.reachableIf_of_runIf _ (.init init_start) hs).mono fun _ _ => keepsUp_of_meetsSimply
  exact ⟨s, hreachable.reachable, wanted_of_isWanted hwanted, of_decide_eq_true hfrees,
    safe_of_keepsUp hreachable⟩

theorem not_forall_safe : ¬ ∀ s, machine.Reachable s → Safe s := by
  intro h
  -- the deployment is started, and the root is not stored yet
  have hrun : (machine.run start
      (.manager (.call addPod) :: proceed 4 ++ reserve ++ offered)).any (fun s =>
        isWanted s && decide (s.matchings.map freesInstance = [some true])) = true := by
    decide +kernel
  obtain ⟨s, hs, htest⟩ := Machine.exists_of_any hrun
  obtain ⟨hwanted, hfrees⟩ := Bool.and_eq_true_iff.mp htest
  have hsafe := h s (Machine.reachableIf_of_runIf _ (.init init_start) hs)
  obtain ⟨m, hm, hfree⟩ : ∃ m ∈ s.matchings, freesInstance m = some true := by
    have hmem : some true ∈ s.matchings.map freesInstance := by
      rw [of_decide_eq_true hfrees]
      exact List.mem_singleton.mpr rfl
    exact List.mem_map.mp hmem
  obtain ⟨instances, hinstances, hfree⟩ := Option.bind_eq_some_iff.mp hfree
  obtain ⟨rootGroup, hroot, hany⟩ := Option.map_eq_some_iff.mp hfree
  obtain ⟨op, hop, hid⟩ := List.any_eq_true.mp hany
  apply hsafe m hm instances rootGroup hinstances hroot op hop
  rw [of_decide_eq_true hid]
  exact wanted_of_isWanted hwanted

end NewStore

end Marathon.OfferMatcherReconciler
