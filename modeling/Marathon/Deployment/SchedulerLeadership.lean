import Marathon.Deployment.MarathonSchedulerActor

/-!
# The scheduler and its leadership

The scheduler is suspended until it is elected and has recovered the stored deployments, and
suspended again when it is on standby. But being on standby is not taken notice of while the
deployments are loaded: the actor starts when they are there, whoever leads then.
-/

namespace Marathon.MarathonSchedulerActor

open Lib Deployment

/-! ## The actor -/

inductive LeadershipTransition
  | electedAsLeaderAndReady
  | standby
deriving DecidableEq

/-- What the actor gets besides the transitions and the loaded deployments. -/
inductive Command
  | deploy (plan : Plan) (force : Bool)
  | cancelDeployment (plan : Plan)
  | scaleRunSpec (runSpecId : AbsolutePathId)
  | scaleRunSpecs
  | reconcileTasks
  | reconcileFinished
  | reconcileHealthChecks
  | removeLocks (runSpecIds : Finset AbsolutePathId) (lockVersion : ℕ)
  | deploymentFinished (plan : Plan)
  | deploymentFailed (plan : Plan)
  | runSpecScaled (runSpecId : AbsolutePathId)
deriving DecidableEq

/-- The commands are told apart by when they were received. -/
structure Envelope where
  number : ℕ
  command : Command
deriving DecidableEq

/-- What the actor asks of others. -/
inductive Action
  | start (plan : Plan) (force : Bool)
  | cancel (plan : Plan)
  | scale (runSpecId : AbsolutePathId)
  | readRoot
  | reconcileTasks
  | reconcileHealthChecks
  | removeAllHealthChecks
  | publishSuccess (plan : Plan)
  | publishFailure (plan : Plan)
deriving DecidableEq

inductive Behavior
  | suspended
  | started
deriving DecidableEq

/-- `unstashed` is handled before anything else, `loads` are the deployments that are being
loaded, and `actions` is what the actor has asked of others so far. -/
structure Scheduler where
  behavior : Behavior
  locks : Locks
  activeReconciliation : Bool
  stash : List Envelope
  unstashed : List Envelope
  loads : List (List Plan)
  actions : List Action

namespace Scheduler

def act (s : Scheduler) (action : Action) : Scheduler := { s with actions := s.actions ++ [action] }

/-- We raise the lock in any case for a deployment attempt. -/
def deploy (s : Scheduler) (plan : Plan) (force : Bool) : Scheduler :=
  { s with locks := s.locks.addLocks plan.affectedRunSpecIds }.act (.start plan force)

def recover (s : Scheduler) (deployments : List Plan) : Scheduler :=
  deployments.foldl (fun s plan => s.deploy plan false) s

def scaleRunSpec (s : Scheduler) (runSpecId : AbsolutePathId) : Scheduler :=
  if s.locks.noConflictsWith {runSpecId} then
    { s with locks := s.locks.addLocks {runSpecId} }.act (.scale runSpecId)
  else s

/-- A reconciliation that is active is used again. -/
def reconcileTasks (s : Scheduler) : Scheduler :=
  if s.activeReconciliation then s
  else { s with activeReconciliation := true }.act .reconcileTasks

/-- The commands in the behavior `started`. -/
def handle (s : Scheduler) : Command → Scheduler
  | .deploy plan force => s.deploy plan force
  | .cancelDeployment plan => s.act (.cancel plan)
  | .scaleRunSpec runSpecId => s.scaleRunSpec runSpecId
  | .scaleRunSpecs => s.act .readRoot
  | .reconcileTasks => s.reconcileTasks
  | .reconcileFinished => { s with activeReconciliation := false }
  | .reconcileHealthChecks => s.act .reconcileHealthChecks
  | .removeLocks runSpecIds lockVersion =>
    { s with locks := s.locks.removeLocks runSpecIds lockVersion }
  | .deploymentFinished plan => s.act (.publishSuccess plan)
  | .deploymentFailed plan => s.act (.publishFailure plan)
  | .runSpecScaled _ => s

def receive (s : Scheduler) (envelope : Envelope) : Scheduler :=
  match s.behavior with
  | .suspended => { s with stash := s.stash ++ [envelope] }
  | .started => s.handle envelope.command

/-- The deployments are loaded as they are stored when the actor is elected. -/
def transition (s : Scheduler) (stored : List Plan) : LeadershipTransition → Scheduler
  | .electedAsLeaderAndReady =>
    match s.behavior with
    | .suspended => { s with loads := s.loads ++ [stored] }
    | .started => s
  | .standby =>
    match s.behavior with
    -- nothing happens here either while the deployments are loaded
    | .suspended => s
    | .started =>
      { s.act .removeAllHealthChecks with
        locks := { s.locks with lockedRunSpecs := fun _ => none }
        behavior := .suspended }

/-- The deployments are recovered, and what was stashed is handled next. -/
def loadedDeployments (s : Scheduler) (deployments : List Plan) : Scheduler :=
  match s.behavior with
  | .suspended =>
    { s.recover deployments with
      behavior := .started
      unstashed := s.stash ++ s.unstashed
      stash := [] }
  | .started => s

end Scheduler

/-! ## Runs -/

/-- The stored deployments change, a message arrives, or one that was stashed is handled; a load
that fails comes with no deployments. -/
inductive Scheduler.Event
  | stores (plans : List Plan)
  | transition (transition : LeadershipTransition)
  | loaded (position : ℕ) (succeeded : Bool)
  | received (command : Command)
  | unstashed

/-- A run: `leads` says what the last transition was, `received` counts the commands, `handled`
are the numbers of those handled. Since it was last elected: `elected` is what was stored then,
`before` how much had been asked of others, and `asked` what the commands have asked since. -/
structure Leadership where
  actor : Scheduler
  stored : List Plan
  leads : Bool
  received : ℕ
  handled : List ℕ
  elected : List Plan
  before : List Action
  asked : List Action

namespace Leadership

/-- What a command has added to the actions. -/
def added (s s' : Scheduler) : List Action := s'.actions.drop s.actions.length

/-- The command is handled, or stashed. -/
def receive (r : Leadership) (envelope : Envelope) : Leadership :=
  match r.actor.behavior with
  | .suspended => { r with actor := r.actor.receive envelope }
  | .started =>
    { r with
      actor := r.actor.receive envelope
      handled := r.handled ++ [envelope.number]
      asked := r.asked ++ added r.actor (r.actor.receive envelope) }

def transition (r : Leadership) (transition : LeadershipTransition) : Leadership :=
  let r' := { r with
    actor := r.actor.transition r.stored transition
    leads := transition = .electedAsLeaderAndReady }
  if transition = .electedAsLeaderAndReady ∧ r.leads = false then
    { r' with elected := r.stored, before := r.actor.actions, asked := [] }
  else r'

end Leadership

/-- What was unstashed is handled before the next message. -/
def leadership : Machine Leadership Scheduler.Event where
  Init r := r.actor.behavior = .suspended ∧ r.actor.stash = [] ∧ r.actor.unstashed = [] ∧
    r.actor.loads = [] ∧ r.leads = false ∧ r.received = 0 ∧ r.handled = []
  step r
    | .stores plans => some { r with stored := plans }
    | .transition transition =>
      if r.actor.unstashed.isEmpty then some (r.transition transition) else none
    | .loaded position succeeded =>
      if r.actor.unstashed.isEmpty then
        r.actor.loads[position]?.map fun plans =>
          { r with actor := { r.actor with loads := r.actor.loads.eraseIdx position
              }.loadedDeployments (if succeeded then plans else []) }
      else none
    | .received command =>
      if r.actor.unstashed.isEmpty then
        some ({ r with received := r.received + 1 }.receive ⟨r.received, command⟩)
      else none
    | .unstashed =>
      match r.actor.unstashed with
      | [] => none
      | envelope :: rest =>
        some ({ r with actor := { r.actor with unstashed := rest } }.receive envelope)

/-- The actor is started only when it leads, and has then started every deployment that was
stored when it was elected, once and before it did anything else; it asks nothing of others
otherwise; and every command is handled once, or kept until it is. -/
structure ActsAsLeader (r : Leadership) : Prop where
  leads : r.actor.behavior = .started → r.leads = true
  recovered : r.actor.behavior = .started →
    r.actor.actions = r.before ++ r.elected.map (fun plan => .start plan false) ++ r.asked
  acts : ∀ e r', leadership.step r e = some r' → r'.actor.actions ≠ r.actor.actions →
    r.leads = true
  once : (r.handled ++ r.actor.unstashed.map Envelope.number ++
    r.actor.stash.map Envelope.number).Perm (List.range r.received)

/-- No transition is received while deployments are being loaded, and no load fails. -/
def LoadsAlone (r : Leadership) : Scheduler.Event → Prop
  | .transition _ => r.actor.loads = []
  | .loaded _ succeeded => succeeded = true
  | _ => True

instance (r : Leadership) : (e : Scheduler.Event) → Decidable (LoadsAlone r e)
  | .transition _ => inferInstanceAs (Decidable (r.actor.loads = []))
  | .loaded _ succeeded => inferInstanceAs (Decidable (succeeded = true))
  | .stores _ | .received _ | .unstashed => .isTrue trivial

/-! ## What the handlers leave -/

namespace Scheduler

/-- Some more is asked of others, and the messages are left alone. -/
structure Asks (s s' : Scheduler) (actions : List Action) : Prop where
  behavior : s'.behavior = s.behavior
  stash : s'.stash = s.stash
  unstashed : s'.unstashed = s.unstashed
  loads : s'.loads = s.loads
  actions : s'.actions = s.actions ++ actions

theorem Asks.trans {s s' s'' : Scheduler} {actions actions' : List Action} (h : Asks s s' actions)
    (h' : Asks s' s'' actions') : Asks s s'' (actions ++ actions') where
  behavior := h'.behavior.trans h.behavior
  stash := h'.stash.trans h.stash
  unstashed := h'.unstashed.trans h.unstashed
  loads := h'.loads.trans h.loads
  actions := by rw [h'.actions, h.actions, List.append_assoc]

theorem asks_nothing (s : Scheduler) (locks : Locks) (activeReconciliation : Bool) :
    Asks s { s with locks := locks, activeReconciliation := activeReconciliation } [] :=
  ⟨rfl, rfl, rfl, rfl, (List.append_nil _).symm⟩

theorem asks_act (s : Scheduler) (action : Action) : Asks s (s.act action) [action] :=
  ⟨rfl, rfl, rfl, rfl, rfl⟩

theorem asks_deploy (s : Scheduler) (plan : Plan) (force : Bool) :
    Asks s (s.deploy plan force) [.start plan force] :=
  ⟨rfl, rfl, rfl, rfl, rfl⟩

theorem asks_recover (s : Scheduler) (deployments : List Plan) :
    Asks s (s.recover deployments) (deployments.map fun plan => .start plan false) := by
  induction deployments generalizing s with
  | nil => exact asks_nothing s s.locks s.activeReconciliation
  | cons plan deployments ih => exact (asks_deploy s plan false).trans (ih (s.deploy plan false))

theorem exists_asks_handle (s : Scheduler) (command : Command) :
    ∃ actions, Asks s (s.handle command) actions := by
  cases command with
  | deploy plan force => exact ⟨_, asks_deploy s plan force⟩
  | cancelDeployment plan => exact ⟨_, asks_act s _⟩
  | scaleRunSpec runSpecId =>
    unfold handle scaleRunSpec
    dsimp only
    split_ifs
    · exact ⟨_, rfl, rfl, rfl, rfl, rfl⟩
    · exact ⟨_, asks_nothing s s.locks s.activeReconciliation⟩
  | scaleRunSpecs => exact ⟨_, asks_act s _⟩
  | reconcileTasks =>
    unfold handle reconcileTasks
    split_ifs
    · exact ⟨_, asks_nothing s s.locks s.activeReconciliation⟩
    · exact ⟨_, rfl, rfl, rfl, rfl, rfl⟩
  | reconcileFinished => exact ⟨_, asks_nothing s s.locks false⟩
  | reconcileHealthChecks => exact ⟨_, asks_act s _⟩
  | removeLocks runSpecIds lockVersion => exact ⟨_, asks_nothing s _ s.activeReconciliation⟩
  | deploymentFinished plan => exact ⟨_, asks_act s _⟩
  | deploymentFailed plan => exact ⟨_, asks_act s _⟩
  | runSpecScaled runSpecId => exact ⟨_, asks_nothing s s.locks s.activeReconciliation⟩

theorem asks_handle (s : Scheduler) (command : Command) :
    Asks s (s.handle command) (Leadership.added s (s.handle command)) := by
  obtain ⟨actions, h⟩ := exists_asks_handle s command
  have hadded : Leadership.added s (s.handle command) = actions := by
    rw [Leadership.added, h.actions, List.drop_left]
  rw [hadded]
  exact h

end Scheduler

/-! ## The invariant -/

/-- While the actor leads and is suspended, the deployments that were stored when it was elected
are being loaded; when it is started, they are recovered. -/
structure Recovers (r : Leadership) : Prop where
  started : r.actor.behavior = .started → r.leads = true ∧ r.actor.loads = [] ∧
    r.actor.actions = r.before ++ r.elected.map (fun plan => .start plan false) ++ r.asked
  suspended : r.actor.behavior = .suspended → r.actor.unstashed = []
  loading : r.actor.behavior = .suspended → r.leads = true →
    r.actor.loads = [r.elected] ∧ r.actor.actions = r.before ∧ r.asked = []
  standby : r.actor.behavior = .suspended → r.leads = false → r.actor.loads = []

/-- Every command that was received has been handled, or waits. -/
def Once (r : Leadership) : Prop :=
  (r.handled ++ r.actor.unstashed.map Envelope.number ++
    r.actor.stash.map Envelope.number).Perm (List.range r.received)

variable {r r' : Leadership} {e : Scheduler.Event}

theorem Recovers.of_started (hbehavior : r.actor.behavior = .started) (hleads : r.leads = true)
    (hloads : r.actor.loads = [])
    (hactions : r.actor.actions =
      r.before ++ r.elected.map (fun plan => .start plan false) ++ r.asked) : Recovers r where
  started _ := ⟨hleads, hloads, hactions⟩
  suspended h := nomatch hbehavior.symm.trans h
  loading h := nomatch hbehavior.symm.trans h
  standby h := nomatch hbehavior.symm.trans h

theorem Recovers.of_suspended (hbehavior : r.actor.behavior = .suspended)
    (hunstashed : r.actor.unstashed = [])
    (hloading : r.leads = true →
      r.actor.loads = [r.elected] ∧ r.actor.actions = r.before ∧ r.asked = [])
    (hstandby : r.leads = false → r.actor.loads = []) : Recovers r where
  started h := nomatch hbehavior.symm.trans h
  suspended _ := hunstashed
  loading _ := hloading
  standby _ := hstandby

theorem Recovers.of_loads_ne_nil (h : Recovers r) (hloads : r.actor.loads ≠ []) :
    r.actor.behavior = .suspended ∧ r.leads = true := by
  cases hbehavior : r.actor.behavior with
  | started => exact absurd (h.started hbehavior).2.1 hloads
  | suspended =>
    refine ⟨rfl, ?_⟩
    by_contra hleads
    exact hloads (h.standby hbehavior (Bool.eq_false_iff.mpr hleads))

theorem recovers_transition (h : Recovers r) {transition : LeadershipTransition}
    (hunstashed : r.actor.unstashed = []) (halone : r.actor.loads = []) :
    Recovers (r.transition transition) := by
  cases hbehavior : r.actor.behavior with
  | suspended =>
    -- whoever led would be loading
    have hleads : r.leads = false := by
      by_contra hleads
      have hloads := (h.loading hbehavior (Bool.not_eq_false _ |>.mp hleads)).1
      rw [halone] at hloads
      cases hloads
    cases transition with
    | electedAsLeaderAndReady =>
      simp only [Leadership.transition, Scheduler.transition, hbehavior, hleads, decide_true,
        and_self, if_true]
      refine .of_suspended rfl hunstashed (fun _ => ⟨?_, rfl, rfl⟩) nofun
      rw [halone]
      rfl
    | standby =>
      simp only [Leadership.transition, Scheduler.transition, hbehavior]
      exact .of_suspended hbehavior hunstashed nofun fun _ => halone
  | started =>
    obtain ⟨hleads, hloads, hactions⟩ := h.started hbehavior
    cases transition with
    | electedAsLeaderAndReady =>
      simp only [Leadership.transition, Scheduler.transition, hbehavior, hleads, decide_true,
        reduceCtorEq, and_false, if_false]
      exact .of_started hbehavior rfl hloads hactions
    | standby =>
      simp only [Leadership.transition, Scheduler.transition, hbehavior]
      exact .of_suspended rfl hunstashed nofun fun _ => halone

theorem recovers_loaded (h : Recovers r) {position : ℕ} {plans : List Plan}
    (hplans : r.actor.loads[position]? = some plans) :
    Recovers { r with actor :=
      { r.actor with loads := r.actor.loads.eraseIdx position }.loadedDeployments plans } := by
  have hne : r.actor.loads ≠ [] := by
    intro hempty
    rw [hempty] at hplans
    cases hplans
  obtain ⟨hbehavior, hleads⟩ := h.of_loads_ne_nil hne
  obtain ⟨hloads, hactions, hasked⟩ := h.loading hbehavior hleads
  obtain ⟨rfl, rfl⟩ : position = 0 ∧ plans = r.elected := by
    rw [hloads] at hplans
    cases position with
    | zero => exact ⟨rfl, (Option.some.inj hplans).symm⟩
    | succ position => cases hplans
  have hrecover := Scheduler.asks_recover
    { r.actor with loads := r.actor.loads.eraseIdx 0 } r.elected
  unfold Scheduler.loadedDeployments
  rw [hbehavior]
  refine .of_started rfl hleads ?_ ?_
  · refine hrecover.loads.trans ?_
    rw [hloads]
    rfl
  · refine hrecover.actions.trans ?_
    rw [hactions, hasked, List.append_nil]

theorem receive_suspended (hbehavior : r.actor.behavior = .suspended) (envelope : Envelope) :
    r.receive envelope =
      { r with actor := { r.actor with stash := r.actor.stash ++ [envelope] } } := by
  simp only [Leadership.receive, Scheduler.receive, hbehavior]

theorem receive_started (hbehavior : r.actor.behavior = .started) (envelope : Envelope) :
    r.receive envelope =
      { r with
        actor := r.actor.handle envelope.command
        handled := r.handled ++ [envelope.number]
        asked := r.asked ++ Leadership.added r.actor (r.actor.handle envelope.command) } := by
  simp only [Leadership.receive, Scheduler.receive, hbehavior]

theorem recovers_receive (h : Recovers r) (envelope : Envelope) :
    Recovers (r.receive envelope) := by
  cases hbehavior : r.actor.behavior with
  | suspended =>
    rw [receive_suspended hbehavior]
    exact .of_suspended hbehavior (h.suspended hbehavior) (h.loading hbehavior)
      (h.standby hbehavior)
  | started =>
    obtain ⟨hleads, hloads, hactions⟩ := h.started hbehavior
    have hasks := Scheduler.asks_handle r.actor envelope.command
    rw [receive_started hbehavior]
    refine .of_started (hasks.behavior.trans hbehavior) hleads (hasks.loads.trans hloads) ?_
    refine hasks.actions.trans ?_
    rw [hactions, List.append_assoc]

theorem recovers_unstash (h : Recovers r) {envelope : Envelope} {rest : List Envelope}
    (hunstashed : r.actor.unstashed = envelope :: rest) :
    Recovers { r with actor := { r.actor with unstashed := rest } } := by
  cases hbehavior : r.actor.behavior with
  | suspended =>
    rw [h.suspended hbehavior] at hunstashed
    cases hunstashed
  | started =>
    obtain ⟨hleads, hloads, hactions⟩ := h.started hbehavior
    exact .of_started hbehavior hleads hloads hactions

theorem recovers_step (h : Recovers r) (halone : LoadsAlone r e)
    (hstep : leadership.step r e = some r') : Recovers r' := by
  cases e with
  | stores plans =>
    cases hstep
    exact ⟨h.started, h.suspended, h.loading, h.standby⟩
  | transition transition =>
    dsimp only [leadership] at hstep
    split_ifs at hstep with hunstashed
    cases hstep
    exact recovers_transition h (List.isEmpty_iff.mp hunstashed) halone
  | loaded position succeeded =>
    obtain rfl : succeeded = true := halone
    obtain ⟨-, hstep⟩ := Option.ite_none_right_eq_some.mp hstep
    obtain ⟨plans, hplans, rfl⟩ := Option.map_eq_some_iff.mp hstep
    exact recovers_loaded h hplans
  | received command =>
    dsimp only [leadership] at hstep
    split_ifs at hstep
    cases hstep
    have hcounted : Recovers { r with received := r.received + 1 } :=
      ⟨h.started, h.suspended, h.loading, h.standby⟩
    exact recovers_receive hcounted _
  | unstashed =>
    dsimp only [leadership] at hstep
    split at hstep
    · cases hstep
    · rename_i envelope rest hunstashed
      cases hstep
      exact recovers_receive (recovers_unstash h hunstashed) envelope

/-! ## Every command once -/

theorem once_transition (h : Once r) (transition : LeadershipTransition) :
    Once (r.transition transition) := by
  have hkept : (r.actor.transition r.stored transition).stash = r.actor.stash ∧
      (r.actor.transition r.stored transition).unstashed = r.actor.unstashed := by
    unfold Scheduler.transition
    cases transition <;> dsimp only <;> split <;> exact ⟨rfl, rfl⟩
  unfold Once Leadership.transition
  split_ifs <;> dsimp only <;> rw [hkept.1, hkept.2] <;> exact h

theorem once_loaded (h : Once r) (loads : List (List Plan)) (plans : List Plan) :
    Once { r with actor := { r.actor with loads := loads }.loadedDeployments plans } := by
  unfold Scheduler.loadedDeployments
  cases hbehavior : r.actor.behavior with
  | started => exact h
  | suspended =>
    have hcomm : (r.handled ++ (r.actor.stash.map Envelope.number ++
        r.actor.unstashed.map Envelope.number)).Perm
          (r.handled ++ (r.actor.unstashed.map Envelope.number ++
            r.actor.stash.map Envelope.number)) := List.perm_append_comm.append_left _
    unfold Once
    rw [List.map_append, List.map_nil, List.append_nil]
    refine hcomm.trans ?_
    rw [← List.append_assoc]
    exact h

theorem once_handle (hbehavior : r.actor.behavior = .started) (envelope : Envelope)
    (h : (r.handled ++ (envelope.number :: r.actor.unstashed.map Envelope.number) ++
      r.actor.stash.map Envelope.number).Perm (List.range r.received)) :
    Once (r.receive envelope) := by
  have hasks := Scheduler.asks_handle r.actor envelope.command
  rw [receive_started hbehavior, Once]
  rw [hasks.stash, hasks.unstashed, List.append_assoc r.handled]
  exact h

theorem once_unstash (h : Once r) {envelope : Envelope} {rest : List Envelope}
    (hbehavior : r.actor.behavior = .started) (hunstashed : r.actor.unstashed = envelope :: rest) :
    Once ({ r with actor := { r.actor with unstashed := rest } }.receive envelope) := by
  refine once_handle (r := { r with actor := { r.actor with unstashed := rest } }) hbehavior _ ?_
  unfold Once at h
  rw [hunstashed] at h
  exact h

theorem once_receive (h : Once r) (hunstashed : r.actor.unstashed = []) (command : Command) :
    Once ({ r with received := r.received + 1 }.receive ⟨r.received, command⟩) := by
  unfold Once at h
  rw [hunstashed, List.map_nil, List.append_nil] at h
  cases hbehavior : r.actor.behavior with
  | suspended =>
    rw [receive_suspended (r := { r with received := r.received + 1 }) hbehavior, Once]
    rw [hunstashed, List.map_append, List.map_nil, List.append_nil, ← List.append_assoc,
      List.range_succ]
    exact h.append_right _
  | started =>
    refine once_handle (r := { r with received := r.received + 1 }) hbehavior _ ?_
    rw [hunstashed, List.map_nil, List.append_assoc, List.range_succ]
    refine (List.perm_append_comm.append_left r.handled).trans ?_
    rw [← List.append_assoc]
    exact h.append_right _

theorem once_step (h : Once r) (hsuspended : r.actor.behavior = .suspended → r.actor.unstashed = [])
    (hstep : leadership.step r e = some r') : Once r' := by
  cases e with
  | stores plans =>
    cases hstep
    exact h
  | transition transition =>
    dsimp only [leadership] at hstep
    split_ifs at hstep
    cases hstep
    exact once_transition h transition
  | loaded position succeeded =>
    obtain ⟨-, hstep⟩ := Option.ite_none_right_eq_some.mp hstep
    obtain ⟨plans, -, rfl⟩ := Option.map_eq_some_iff.mp hstep
    exact once_loaded h _ _
  | received command =>
    dsimp only [leadership] at hstep
    split_ifs at hstep with hunstashed
    cases hstep
    exact once_receive h (List.isEmpty_iff.mp hunstashed) command
  | unstashed =>
    dsimp only [leadership] at hstep
    split at hstep
    · cases hstep
    · rename_i envelope rest hunstashed
      cases hstep
      have hstarted : r.actor.behavior = .started := by
        cases hbehavior : r.actor.behavior with
        | started => rfl
        | suspended =>
          rw [hsuspended hbehavior] at hunstashed
          cases hunstashed
      exact once_unstash h hstarted hunstashed

/-! ## Acting as leader -/

theorem Recovers.leads_of_actions_ne (h : Recovers r) (hstep : leadership.step r e = some r')
    (hne : r'.actor.actions ≠ r.actor.actions) : r.leads = true := by
  by_contra hleads
  have hsuspended : r.actor.behavior = .suspended := by
    cases hbehavior : r.actor.behavior with
    | suspended => rfl
    | started => exact absurd (h.started hbehavior).1 hleads
  apply hne
  cases e with
  | stores plans =>
    cases hstep
    rfl
  | transition transition =>
    dsimp only [leadership] at hstep
    split_ifs at hstep
    cases hstep
    have hactor : (r.transition transition).actor = r.actor.transition r.stored transition := by
      unfold Leadership.transition
      split_ifs <;> rfl
    rw [hactor]
    cases transition <;> simp only [Scheduler.transition, hsuspended]
  | loaded position succeeded =>
    obtain ⟨-, hstep⟩ := Option.ite_none_right_eq_some.mp hstep
    obtain ⟨plans, hplans, -⟩ := Option.map_eq_some_iff.mp hstep
    rw [h.standby hsuspended (Bool.eq_false_iff.mpr hleads)] at hplans
    cases hplans
  | received command =>
    dsimp only [leadership] at hstep
    split_ifs at hstep
    cases hstep
    simp [Leadership.receive, Scheduler.receive, hsuspended]
  | unstashed =>
    dsimp only [leadership] at hstep
    rw [h.suspended hsuspended] at hstep
    cases hstep

theorem recovers_init (h : leadership.Init r) : Recovers r ∧ Once r := by
  obtain ⟨hbehavior, hstash, hunstashed, hloads, hleads, hreceived, hhandled⟩ := h
  refine ⟨.of_suspended hbehavior hunstashed ?_ fun _ => hloads, ?_⟩
  · rw [hleads]
    exact nofun
  · rw [Once, hstash, hunstashed, hreceived, hhandled]
    exact .refl _

/-- In a run in which the deployments are loaded undisturbed the actor acts as leader. -/
theorem actsAsLeader_of_loadsAlone (r : Leadership) (h : leadership.ReachableIf LoadsAlone r) :
    ActsAsLeader r := by
  have hinvariant : Recovers r ∧ Once r := by
    refine h.invariant (fun _ => recovers_init) ?_
    rintro r e r' ⟨hrecovers, honce⟩ halone hstep
    exact ⟨recovers_step hrecovers halone hstep, once_step honce hrecovers.suspended hstep⟩
  obtain ⟨hrecovers, honce⟩ := hinvariant
  refine ⟨fun hstarted => (hrecovers.started hstarted).1, fun hstarted => ?_, fun e r' hstep => ?_,
    honce⟩
  · exact (hrecovers.started hstarted).2.2
  · exact hrecovers.leads_of_actions_ne hstep

namespace Elected

/-! ## A standby that is missed -/

def plan : Plan := ⟨"first", {⟨["app"]⟩}⟩

def follower : Leadership where
  actor := ⟨.suspended, ⟨fun _ => none, 0⟩, false, [], [], [], []⟩
  stored := [plan]
  leads := false
  received := 0
  handled := []
  elected := []
  before := []
  asked := []

theorem init_follower : leadership.Init follower := ⟨rfl, rfl, rfl, rfl, rfl, rfl, rfl⟩

/-- A command waits until the stored deployment is recovered. -/
def recovering : List Scheduler.Event :=
  [.transition .electedAsLeaderAndReady, .received .reconcileTasks, .loaded 0 true, .unstashed]

theorem exists_actsAsLeader : ∃ r : Leadership,
    r.actor.actions = [.start plan false, .reconcileTasks] ∧ ActsAsLeader r := by
  have hrun : (leadership.runIf LoadsAlone follower recovering).any (fun r =>
      decide (r.actor.actions = [.start plan false, .reconcileTasks])) = true := by
    decide +kernel
  obtain ⟨r, hr, hactions⟩ := Machine.exists_of_any hrun
  exact ⟨r, of_decide_eq_true hactions, actsAsLeader_of_loadsAlone r
    (Machine.reachableIf_of_runIf recovering (.init init_follower) hr)⟩

/-- The deployments are loaded when another one leads already. -/
def missed : List Scheduler.Event :=
  [.transition .electedAsLeaderAndReady, .transition .standby, .loaded 0 true]

theorem not_forall_actsAsLeader : ¬∀ r, leadership.Reachable r → ActsAsLeader r := by
  intro h
  have hrun : (leadership.run follower missed).any (fun r =>
      decide (r.actor.behavior = .started) && !r.leads) = true := by
    decide +kernel
  obtain ⟨r, hr, htest⟩ := Machine.exists_of_any hrun
  rw [Bool.and_eq_true, decide_eq_true_eq, Bool.not_eq_true'] at htest
  have hreachable : leadership.Reachable r :=
    Machine.reachableIf_of_runIf missed (.init init_follower) hr
  exact Bool.false_ne_true (htest.2.symm.trans ((h r hreachable).leads htest.1))

end Elected

end Marathon.MarathonSchedulerActor
