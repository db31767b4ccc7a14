import Marathon.Deployment.SoundReadiness

/-!
# Completed starts

How many instances have to come up is counted once, less those that are active or scheduled
then. But the counted ones may come up later than that, and then they are taken for instances
that were started: the step is over although some of these are not up.
-/

namespace Marathon.Deployment.TaskStartActor

open Lib
open ReadinessBehavior (showsHealthy showsReady showsTerminal)

/-- What has been observed of the instances: which were seen healthy, or ready, and have not been
reported terminal since. -/
def observe (runSpec : RunSpec) (seen : ReadinessBehavior) (message : ReadinessBehavior.Message) :
    ReadinessBehavior where
  healthy := (seen.healthy ∪ showsHealthy runSpec message) \ showsTerminal message
  ready := (seen.ready ∪ showsReady runSpec message) \ showsTerminal message

/-- A run, the instances that were there when they were counted, and what has been observed. -/
structure Run where
  actor : TaskStartActor
  snapshot : List Instance
  seen : ReadinessBehavior

/-- The instances that are taken off the number to start. -/
def Run.counted (r : Run) : Finset InstanceId :=
  ((alreadyLaunched r.snapshot).map Instance.instanceId).toFinset

def snapshotAfter (snapshot : List Instance) : Event → List Instance
  | .counted instances => instances
  | _ => snapshot

/-- The runs of the actor with events as they are published. -/
def scaling (runSpec : RunSpec) (scaleTo : ℤ) : Machine Run Event where
  Init r := r.actor = preStart ∧ r.snapshot = [] ∧ r.seen = .empty
  step r e :=
    if (handled e).all ReadinessBehavior.Message.published then
      (r.actor.step runSpec scaleTo e).map fun a =>
        ⟨a, snapshotAfter r.snapshot e, (handled e).elim r.seen (observe runSpec r.seen)⟩
    else none

/-- As many instances as were missing are up, besides those that were counted. -/
def UpToScale (scaleTo : ℤ) (r : Run) : Prop :=
  ∃ up : Finset InstanceId, target scaleTo r.snapshot ≤ up.card ∧ Disjoint up r.counted ∧
    up ⊆ r.seen.healthy ∧ up ⊆ r.seen.ready

theorem upToScale_iff {scaleTo : ℤ} {r : Run} :
    UpToScale scaleTo r ↔
      target scaleTo r.snapshot ≤ ((r.seen.healthy ∩ r.seen.ready) \ r.counted).card := by
  constructor
  · rintro ⟨up, htarget, hothers, hhealthy, hready⟩
    have hle : up.card ≤ ((r.seen.healthy ∩ r.seen.ready) \ r.counted).card :=
      Finset.card_le_card (Finset.subset_sdiff.mpr ⟨Finset.subset_inter hhealthy hready, hothers⟩)
    omega
  · intro htarget
    refine ⟨_, htarget, Finset.sdiff_disjoint, ?_, ?_⟩
    · exact Finset.sdiff_subset.trans Finset.inter_subset_left
    · exact Finset.sdiff_subset.trans Finset.inter_subset_right

/-- No instance that is counted has been shown to be healthy, or is shown to be later; an
instance in the sets ends as an instance of the run spec's version; and no instance is healthy
but not ready while another one is ready but not healthy. -/
structure Steady (runSpec : RunSpec) (r : Run) (e : Event) : Prop where
  fresh : ∀ instances, e = .counted instances →
    Disjoint r.actor.readiness.healthy
      ((alreadyLaunched instances).map Instance.instanceId).toFinset
  others : ∀ message, handled e = some message → Disjoint (showsHealthy runSpec message) r.counted
  taken : ∀ event, handled e = some (.instanceChanged event) → event.condition.isTerminal = true →
    event.id ∈ r.actor.readiness.healthy ∪ r.actor.readiness.ready →
      isTerminalNew runSpec event = true
  comparable : ∀ message, handled e = some message →
    (r.actor.readiness.noted runSpec message).Comparable

/-! ## The invariant -/

structure Invariant (scaleTo : ℤ) (r : Run) : Prop where
  healthy : r.actor.readiness.healthy ⊆ r.seen.healthy
  ready : r.actor.readiness.ready ⊆ r.seen.ready
  comparable : r.actor.readiness.Comparable
  others : Disjoint r.actor.readiness.healthy r.counted
  nrToStart : ∀ n, r.actor.nrToStart = some n → n = target scaleTo r.snapshot

variable {runSpec : RunSpec} {scaleTo : ℤ} {a a' : TaskStartActor} {r r' : Run} {e : Event}

theorem nrToStart_noted (a : TaskStartActor) (outcome : ReadinessBehavior × Option InstanceId) :
    (a.noted outcome).nrToStart = a.nrToStart := by
  unfold noted
  split <;> rfl

theorem promise_noted (a : TaskStartActor) (outcome : ReadinessBehavior × Option InstanceId) :
    (a.noted outcome).promise = a.promise := by
  unfold noted
  split <;> rfl

theorem commonBehavior_keeps (a : TaskStartActor) (message : Message) :
    (a.commonBehavior runSpec scaleTo message).nrToStart = a.nrToStart ∧
      (a.commonBehavior runSpec scaleTo message).promise = a.promise := by
  unfold commonBehavior
  dsimp only
  split
  · split_ifs <;> exact ⟨rfl, rfl⟩
  · split_ifs <;> exact ⟨rfl, rfl⟩
  all_goals exact ⟨rfl, rfl⟩

theorem receive_keeps (a : TaskStartActor) (message : Message) :
    (a.receive runSpec scaleTo message).nrToStart = a.nrToStart ∧
      (a.receive runSpec scaleTo message).promise = a.promise := by
  unfold receive
  split
  · rename_i shown
    cases hready : a.readiness.readinessBehavior runSpec shown with
    | some outcome =>
      rw [Option.map_some, Option.getD_some]
      exact ⟨nrToStart_noted a outcome, promise_noted a outcome⟩
    | none =>
      rw [Option.map_none, Option.getD_none]
      exact commonBehavior_keeps a _
  · exact commonBehavior_keeps a _

theorem steady_counted {instances : List Instance}
    (h : Disjoint r.actor.readiness.healthy
      ((alreadyLaunched instances).map Instance.instanceId).toFinset) :
    Steady runSpec r (.counted instances) where
  fresh _ heq := by
    cases heq
    exact h
  others _ heq := nomatch heq
  taken _ heq := nomatch heq
  comparable _ heq := nomatch heq

theorem steady_running {event : TaskReplaceActor.InstanceChanged}
    (hcondition : event.condition = .running)
    (hothers : Disjoint (showsHealthy runSpec (.instanceChanged event)) r.counted)
    (hcomparable : (r.actor.readiness.noted runSpec (.instanceChanged event)).Comparable) :
    Steady runSpec r (.received (.readiness (.instanceChanged event))) where
  fresh _ heq := nomatch heq
  others _ heq := by
    cases heq
    exact hothers
  taken _ heq hterminal := by
    cases heq
    rw [hcondition] at hterminal
    cases hterminal
  comparable _ heq := by
    cases heq
    exact hcomparable

theorem step_cases (h : a.step runSpec scaleTo e = some a') :
    (∃ instances, e = .counted instances ∧ a' = a.initializeStart scaleTo instances) ∨
      (∃ message, e = .received message ∧ a' = a.receive runSpec scaleTo message) ∨
        ∃ n, e = .looked ∧ a.nrToStart = some n ∧ a' = a.look n := by
  unfold step at h
  cases e with
  | counted instances =>
    dsimp only at h
    split_ifs at h
    exact .inl ⟨instances, rfl, (Option.some.inj h).symm⟩
  | received message =>
    dsimp only at h
    split_ifs at h
    exact .inr (.inl ⟨message, rfl, (Option.some.inj h).symm⟩)
  | looked =>
    dsimp only at h
    split at h
    · rename_i n hn
      split_ifs at h
      exact .inr (.inr ⟨n, rfl, hn, (Option.some.inj h).symm⟩)
    · cases h

theorem promise_initializeStart (a : TaskStartActor) (instances : List Instance) :
    (a.initializeStart scaleTo instances).promise = a.promise := by
  unfold initializeStart
  dsimp only
  split_ifs <;> rfl

theorem exists_step (h : (scaling runSpec scaleTo).step r e = some r') :
    r.actor.step runSpec scaleTo e = some r'.actor ∧
      r'.snapshot = snapshotAfter r.snapshot e ∧
        r'.seen = (handled e).elim r.seen (observe runSpec r.seen) := by
  dsimp only [scaling] at h
  split_ifs at h
  obtain ⟨a', hstep, rfl⟩ := Option.map_eq_some_iff.mp h
  exact ⟨hstep, rfl, rfl⟩

theorem snapshotAfter_of_handled {message : ReadinessBehavior.Message} (snapshot : List Instance)
    (h : handled e = some message) : snapshotAfter snapshot e = snapshot := by
  cases e with
  | received _ => rfl
  | _ => cases h

theorem invariant_handled {message : ReadinessBehavior.Message} (h : Invariant scaleTo r)
    (hsteady : Steady runSpec r e) (hstep : (scaling runSpec scaleTo).step r e = some r')
    (hhandled : handled e = some message) : Invariant scaleTo r' := by
  obtain ⟨hactor, hsnapshot, hseen⟩ := exists_step hstep
  rw [hhandled] at hseen
  rw [snapshotAfter_of_handled r.snapshot hhandled] at hsnapshot
  have htracks := (readinessActor runSpec scaleTo).tracks hactor hhandled
  have hterminal := Finset.disjoint_union_left.mp <|
    (readinessActor runSpec scaleTo).disjoint_showsTerminal hactor hhandled
      fun event heq => hsteady.taken event (heq ▸ hhandled)
  have hnrToStart : r'.actor.nrToStart = r.actor.nrToStart := by
    rw [step_of_handled hactor hhandled]
    exact (receive_keeps _ _).1
  refine ⟨?_, ?_, ?_, ?_, ?_⟩
  · rw [hseen]
    refine Finset.subset_sdiff.mpr ⟨?_, hterminal.1⟩
    exact htracks.healthy_subset.trans (Finset.union_subset_union_left h.healthy)
  · rw [hseen]
    refine Finset.subset_sdiff.mpr ⟨?_, hterminal.2⟩
    exact htracks.ready_subset.trans (Finset.union_subset_union_left h.ready)
  · exact h.comparable.tracks (hsteady.comparable message hhandled) htracks
  · rw [Run.counted, hsnapshot]
    refine Finset.disjoint_of_subset_left htracks.healthy_subset ?_
    exact Finset.disjoint_union_left.mpr ⟨h.others, hsteady.others message hhandled⟩
  · rw [hnrToStart, hsnapshot]
    exact h.nrToStart

theorem invariant_unhandled (h : Invariant scaleTo r) (hsteady : Steady runSpec r e)
    (hstep : (scaling runSpec scaleTo).step r e = some r') (hhandled : handled e = none) :
    Invariant scaleTo r' := by
  obtain ⟨hactor, hsnapshot, hseen⟩ := exists_step hstep
  rw [hhandled] at hseen
  have hreadiness := readiness_of_unhandled hactor hhandled
  have hkept : Disjoint r.actor.readiness.healthy r'.counted →
      (∀ n, r'.actor.nrToStart = some n → n = target scaleTo r'.snapshot) →
        Invariant scaleTo r' := by
    intro hothers hnrToStart
    refine ⟨?_, ?_, ?_, hreadiness ▸ hothers, hnrToStart⟩
    · rw [hreadiness, hseen]
      exact h.healthy
    · rw [hreadiness, hseen]
      exact h.ready
    · exact hreadiness ▸ h.comparable
  obtain ⟨instances, rfl, hcounted⟩ | ⟨message, rfl, hreceived⟩ | ⟨n, rfl, -, hlooked⟩ :=
    step_cases hactor
  · apply hkept
    · rw [Run.counted, hsnapshot]
      exact hsteady.fresh instances rfl
    · intro n hn
      rw [hcounted, nrToStart_initializeStart] at hn
      rw [hsnapshot]
      exact (Option.some.inj hn).symm
  · apply hkept
    · rw [Run.counted, hsnapshot]
      exact h.others
    · rw [hreceived, (receive_keeps _ _).1, hsnapshot]
      exact h.nrToStart
  · apply hkept
    · rw [Run.counted, hsnapshot]
      exact h.others
    · rw [hlooked, hsnapshot]
      exact h.nrToStart

theorem invariant_of_reachableIf
    (h : (scaling runSpec scaleTo).ReachableIf (Steady runSpec) r) : Invariant scaleTo r := by
  refine h.invariant ?_ ?_
  · rintro r ⟨hactor, hsnapshot, hseen⟩
    refine ⟨?_, ?_, ?_, ?_, ?_⟩
    · rw [hactor]
      exact Finset.empty_subset _
    · rw [hactor]
      exact Finset.empty_subset _
    · rw [hactor]
      exact .inl subset_rfl
    · rw [hactor]
      exact Finset.disjoint_empty_left _
    · rw [hactor]
      exact fun n hn => nomatch hn
  · intro r e r' ih hsteady hstep
    cases hhandled : handled e with
    | some message => exact invariant_handled ih hsteady hstep hhandled
    | none => exact invariant_unhandled ih hsteady hstep hhandled

/-- In a steady run the promise is completed only when the instances are up. -/
theorem upToScale_of_promise (runSpec : RunSpec) (scaleTo : ℤ) (r r' : Run) (e : Event)
    (h : (scaling runSpec scaleTo).ReachableIf (Steady runSpec) r)
    (hstep : (scaling runSpec scaleTo).step r e = some r') (hbefore : r.actor.promise = false)
    (hafter : r'.actor.promise = true) : UpToScale scaleTo r' := by
  have hinvariant := invariant_of_reachableIf h
  obtain ⟨hactor, hsnapshot, hseen⟩ := exists_step hstep
  obtain ⟨instances, rfl, hcounted⟩ | ⟨message, rfl, hreceived⟩ | ⟨n, rfl, hn, hlooked⟩ :=
    step_cases hactor
  · rw [hcounted, promise_initializeStart, hbefore] at hafter
    cases hafter
  · rw [hreceived, (receive_keeps _ _).2, hbefore] at hafter
    cases hafter
  · rw [hlooked, look, hbefore, Bool.false_or, decide_eq_true_eq] at hafter
    have heq := hinvariant.comparable.eq_of_targetCountReached hafter
    rw [UpToScale, Run.counted, hsnapshot, hseen]
    refine ⟨r.actor.readiness.healthy, ?_, hinvariant.others, hinvariant.healthy, ?_⟩
    · exact (hafter.1.trans (hinvariant.nrToStart n hn)).ge
    · exact heq ▸ hinvariant.ready

namespace Web

/-! ## A counted instance that comes up -/

/-- An instance of an app without checks. -/
def plainChanged (uuid : ℕ) (condition : Condition) : Event :=
  .received (.readiness (.instanceChanged
    (instanceChangedOf (TaskReplaceActor.Web.instanceOf ⟨1⟩ uuid condition .running))))

/-- A former deployment has scheduled one of two instances. -/
def counted : Event := .counted [TaskReplaceActor.Web.instanceOf ⟨1⟩ 0 .scheduled .running]

def start : Run := ⟨preStart, [], .empty⟩

theorem init_start : (scaling TaskReplaceActor.Web.runSpec 2).Init start := ⟨rfl, rfl, rfl⟩

/-- With nothing counted there is one instance to start, and the step is over when it runs. -/
theorem exists_upToScale : ∃ r' : Run, r'.actor.promise = true ∧ UpToScale 1 r' := by
  have hrun : ((scaling TaskReplaceActor.Web.runSpec 1).step start (.counted [])).any (fun r =>
      r.snapshot.isEmpty && decide (r.actor.readiness = .empty) &&
        ((scaling TaskReplaceActor.Web.runSpec 1).step r (plainChanged 0 .running)).any fun r' =>
          !r'.actor.promise && ((scaling TaskReplaceActor.Web.runSpec 1).step r' .looked).any
            fun r'' => r''.actor.promise) = true := by
    decide +kernel
  obtain ⟨r, hcounted, hr⟩ := Machine.exists_of_any hrun
  rw [Bool.and_eq_true, Bool.and_eq_true, List.isEmpty_iff, decide_eq_true_eq] at hr
  obtain ⟨⟨hsnapshot, hempty⟩, hr⟩ := hr
  obtain ⟨r', hrunning, hr'⟩ := Machine.exists_of_any hr
  rw [Bool.and_eq_true, Bool.not_eq_true'] at hr'
  obtain ⟨hbefore, hr'⟩ := hr'
  obtain ⟨r'', hlooked, hafter⟩ := Machine.exists_of_any hr'
  have hinit : (scaling TaskReplaceActor.Web.runSpec 1).Init start := ⟨rfl, rfl, rfl⟩
  have hreachable : (scaling TaskReplaceActor.Web.runSpec 1).ReachableIf
      (Steady TaskReplaceActor.Web.runSpec) r :=
    .step (.init hinit) (steady_counted (Finset.disjoint_empty_left _)) hcounted
  have hsteady : Steady TaskReplaceActor.Web.runSpec r (plainChanged 0 .running) := by
    refine steady_running rfl ?_ ?_
    · rw [Run.counted, hsnapshot]
      exact Finset.disjoint_empty_right _
    · rw [hempty]
      decide +kernel
  exact ⟨r'', hafter, upToScale_of_promise TaskReplaceActor.Web.runSpec 1 r' r'' .looked
    (.step hreachable hsteady hrunning) hlooked hbefore hafter⟩

theorem exists_of_run {runSpec : RunSpec} {scaleTo : ℤ} {events : List Event} {ok : Run → Run → Bool}
    (h : ((scaling runSpec scaleTo).run start events).any (fun r =>
      ((scaling runSpec scaleTo).step r .looked).any (ok r)) = true) :
    ∃ r r', (scaling runSpec scaleTo).run start events = some r ∧
      (scaling runSpec scaleTo).step r .looked = some r' ∧ ok r r' = true := by
  obtain ⟨r, hr, hstep⟩ := Machine.exists_of_any h
  obtain ⟨r', hr', hok⟩ := Machine.exists_of_any hstep
  exact ⟨r, r', hr, hr', hok⟩

theorem not_forall_upToScale :
    ¬∀ (runSpec : RunSpec) (scaleTo : ℤ) (r r' : Run) (e : Event),
      (scaling runSpec scaleTo).Reachable r → (scaling runSpec scaleTo).step r e = some r' →
        r.actor.promise = false → r'.actor.promise = true → UpToScale scaleTo r' := by
  intro h
  have hrun : ((scaling TaskReplaceActor.Web.runSpec 2).run start
      [counted, plainChanged 0 .running]).any (fun r =>
        ((scaling TaskReplaceActor.Web.runSpec 2).step r .looked).any fun r' =>
          !r.actor.promise && r'.actor.promise &&
            decide (¬target 2 r'.snapshot ≤
              ((r'.seen.healthy ∩ r'.seen.ready) \ r'.counted).card)) = true := by
    decide +kernel
  obtain ⟨r, r', hr, hstep, hok⟩ := exists_of_run hrun
  simp only [Bool.and_eq_true, Bool.not_eq_true', decide_eq_true_eq] at hok
  obtain ⟨⟨hbefore, hafter⟩, hnot⟩ := hok
  have hreachable := Machine.reachableIf_of_runIf _ (.init init_start) hr
  exact hnot (upToScale_iff.mp (h _ 2 r r' .looked hreachable hstep hbefore hafter))

end Web

end Marathon.Deployment.TaskStartActor
