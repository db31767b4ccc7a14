import Marathon.Deployment.ManagerInvariant

/-!
# What the handlers do to the manager's maps

For every handler the exact state that it leaves. An entry is dropped, turned to
`canceling`, launched or finished; everything else only adds messages, futures
and repository operations.
-/

namespace Marathon.Deployment

open Marathon.Lib

/-- The plan of a `DeploymentFinished`. -/
def Msg.report : Msg → Option Plan
  | .deploymentFinished plan _ => some plan
  | _ => none

variable {s s' : State} {r : PromiseResult} {id : String} {info : DeploymentInfo} {plan : Plan}
  {known : List DeploymentInfo}

namespace State

/-- The plans whose `DeploymentFinished` has not been handled yet. -/
def reports (s : State) : List Plan := s.mailbox.filterMap Msg.report

/-- The entry `info` of `id` is removed and its promise completed. -/
def dropped (s : State) (id : String) (info : DeploymentInfo) (r : PromiseResult) : State :=
  { s with
    runningDeploymentsMetric := s.runningDeploymentsMetric - 1
    runningDeployments := s.runningDeployments.erase id
    promises := s.promises.set info.promise (some r) }

/-- A `StopActor` has been spawned for the child `ref` of the entry `info`. -/
def stopped (s : State) (id : String) (info : DeploymentInfo) (ref : String) : State :=
  { (s.stopActor ref).1 with
    runningDeployments := s.runningDeployments.insert id
      { info with status := .canceling, cancel := some s.stopActors.length } }

theorem complete_eq_some {promise : ℕ} :
    s.complete promise r = some s' ↔ s.promises[promise]? = some none ∧
      s' = { s with promises := s.promises.set promise (some r) } := by
  unfold complete
  split
  · rename_i h
    simp [h, eq_comm]
  · rename_i h
    simp [h]

/-- A scheduled entry is removed: the gauge is decremented also where there is none. -/
theorem removeScheduled_eq_some :
    { s with runningDeploymentsMetric := s.runningDeploymentsMetric - 1 }.removeAndComplete id r =
        some s' ↔
      (∃ info, s.runningDeployments.lookup id = some info ∧
        s.promises[info.promise]? = some none ∧ s' = s.dropped id info r) ∨
      (s.runningDeployments.lookup id = none ∧
        s' = { s with runningDeploymentsMetric := s.runningDeploymentsMetric - 1 }) := by
  unfold removeAndComplete
  cases hl : s.runningDeployments.lookup id with
  | none => simp [eq_comm]
  | some info => simp [complete_eq_some, dropped]

/-- What cancelling the deployment `id` does to the maps. -/
inductive CancelsOne (s : State) (id : String) : State → Prop
  | keeps : CancelsOne s id s
  | drops (info : DeploymentInfo) (r : PromiseResult)
      (hl : s.runningDeployments.lookup id = some info)
      (hp : s.promises[info.promise]? = some none) : CancelsOne s id (s.dropped id info r)
  | stops (info : DeploymentInfo) (ref : String)
      (hl : s.runningDeployments.lookup id = some info) (hr : info.ref = some ref) :
      CancelsOne s id (s.stopped id info ref)

theorem stopDeployment_eq_stopped :
    s.stopDeployment id = some s' ↔ ∃ info ref, s.runningDeployments.lookup id = some info ∧
      info.ref = some ref ∧ s' = s.stopped id info ref := by
  constructor
  · intro h
    exact stopDeployment_eq_some h
  · rintro ⟨info, ref, hl, hr, rfl⟩
    simp only [stopDeployment, hl, hr, Option.bind_eq_bind, Option.bind_some, Option.pure_def,
      stopped, stopActor]

theorem cancelConflict_cases
    (h : s.cancelConflict info = some s') (hknown : info.plan.id ∈ s.runningDeployments) :
    (info.status = .scheduled ∧ ∃ cur r, s.runningDeployments.lookup info.plan.id = some cur ∧
      s.promises[cur.promise]? = some none ∧ s' = s.dropped info.plan.id cur r) ∨
    (info.status = .deploying ∧ ∃ cur ref,
      s.runningDeployments.lookup info.plan.id = some cur ∧ cur.ref = some ref ∧
      s' = s.stopped info.plan.id cur ref) ∨
    (info.status = .canceling ∧ s' = s) := by
  unfold cancelConflict at h
  split at h
  · rename_i hst
    rcases removeScheduled_eq_some.mp h with ⟨cur, hl, hp, rfl⟩ | ⟨hn, -⟩
    · exact .inl ⟨hst, cur, _, hl, hp, rfl⟩
    · exact absurd hknown (AList.lookup_eq_none.mp hn)
  · rename_i hst
    obtain ⟨cur, ref, hl, hr, rfl⟩ := stopDeployment_eq_stopped.mp h
    exact .inr (.inl ⟨hst, cur, ref, hl, hr, rfl⟩)
  · rename_i hst
    cases h
    exact .inr (.inr ⟨hst, rfl⟩)

theorem cancelConflict_cancelsOne
    (h : s.cancelConflict info = some s') (hknown : info.plan.id ∈ s.runningDeployments) :
    s.CancelsOne info.plan.id s' := by
  rcases cancelConflict_cases h hknown with ⟨-, cur, r, hl, hp, rfl⟩ | ⟨-, cur, ref, hl, hr, rfl⟩ |
    ⟨-, rfl⟩
  · exact .drops cur r hl hp
  · exact .stops cur ref hl hr
  · exact .keeps

theorem cancelDeployment_cases (h : s.cancelDeployment id = some s') :
    (∃ info r, s.runningDeployments.lookup id = some info ∧ info.status = .scheduled ∧
      s.promises[info.promise]? = some none ∧ s' = s.dropped id info r) ∨
    (∃ info ref, s.runningDeployments.lookup id = some info ∧ info.status = .deploying ∧
      info.ref = some ref ∧ s' = s.stopped id info ref) ∨
    ((∀ info, s.runningDeployments.lookup id = some info → info.status ≠ .scheduled ∧
      (info.status = .deploying → info.ref = none)) ∧ s' = s) := by
  unfold cancelDeployment at h
  cases hl : s.runningDeployments.lookup id with
  | none =>
    simp only [hl, Option.some.injEq] at h
    exact .inr (.inr ⟨by simp, h.symm⟩)
  | some info =>
    simp only [hl] at h
    cases hst : info.status with
    | scheduled =>
      simp only [hst] at h
      rcases removeScheduled_eq_some.mp h with ⟨cur, hcur, hp, rfl⟩ | ⟨hn, -⟩
      · cases hl.symm.trans hcur
        exact .inl ⟨info, _, rfl, hst, hp, rfl⟩
      · rw [hl] at hn
        cases hn
    | canceling =>
      simp only [hst, Option.some.injEq] at h
      exact .inr (.inr ⟨by rintro _ ⟨⟩; simp [hst], h.symm⟩)
    | deploying =>
      cases hr : info.ref with
      | none =>
        simp only [hst, hr, Option.some.injEq] at h
        exact .inr (.inr ⟨by rintro _ ⟨⟩; simp [hst, hr], h.symm⟩)
      | some ref =>
        simp only [hst, hr] at h
        obtain ⟨cur, ref', hcur, hr', rfl⟩ := stopDeployment_eq_stopped.mp h
        cases hl.symm.trans hcur
        exact .inr (.inl ⟨info, ref', rfl, hst, hr', rfl⟩)

theorem deploymentFinished_eq_some :
    s.deploymentFinished plan r = some s' ↔
      (∃ info, s.runningDeployments.lookup plan.id = some info ∧
        s.promises[info.promise]? = some none ∧
        s' = (s.dropped plan.id info r).submit (.delete plan.id)) ∨
      (s.runningDeployments.lookup plan.id = none ∧
        s' = { s with runningDeploymentsMetric := s.runningDeploymentsMetric - 1 }) := by
  unfold deploymentFinished
  dsimp only
  cases hl : s.runningDeployments.lookup plan.id with
  | none => simp [eq_comm]
  | some info => simp [complete_eq_some, dropped, submit]

/-- Cancelling one deployment after another touches no other entry. -/
theorem CancelsOne.lookup_ne {id' : String} (h : s.CancelsOne id s')
    (hne : id' ≠ id) : s'.runningDeployments.lookup id' = s.runningDeployments.lookup id' := by
  cases h with
  | keeps => rfl
  | drops info r hl hp => exact AList.lookup_erase_ne hne
  | stops info ref hl hr => exact AList.lookup_insert_ne hne

/-- Induction over the conflicts: when one of them is handled, its entry is still
the one that it had at the beginning. -/
theorem foldlM_cancelConflict_induction {d : Dict String DeploymentInfo}
    {P : State → Prop}
    (hf : known.foldlM cancelConflict s = some s')
    (hnodup : (known.map fun info => info.plan.id).Nodup) (hmem : ∀ info ∈ known, info.plan.id ∈ d)
    (hbase : ∀ info ∈ known,
      s.runningDeployments.lookup info.plan.id = d.lookup info.plan.id)
    (hstep : ∀ info ∈ known, ∀ t t', P t →
      t.runningDeployments.lookup info.plan.id = d.lookup info.plan.id →
      t.cancelConflict info = some t' → P t')
    (hs : P s) : P s' := by
  induction known generalizing s with
  | nil =>
    obtain rfl : s = s' := by simpa using hf
    exact hs
  | cons info rest ih =>
    simp only [List.foldlM_cons, Option.bind_eq_bind, Option.bind_eq_some_iff] at hf
    obtain ⟨t, ht, hrest⟩ := hf
    rw [List.map_cons, List.nodup_cons] at hnodup
    have hhead := hbase info List.mem_cons_self
    have hin : info.plan.id ∈ s.runningDeployments := by
      rw [← AList.lookup_isSome, hhead, AList.lookup_isSome]
      exact hmem info List.mem_cons_self
    have hone := cancelConflict_cancelsOne ht hin
    refine ih hrest hnodup.2 (fun i hi => hmem i (List.mem_cons_of_mem _ hi)) ?_
      (fun i hi => hstep i (List.mem_cons_of_mem _ hi))
      (hstep info List.mem_cons_self s t hs hhead ht)
    intro i hi
    have hne : i.plan.id ≠ info.plan.id := by
      intro he
      exact hnodup.1 (he ▸ List.mem_map_of_mem hi)
    rw [hone.lookup_ne hne]
    exact hbase i (List.mem_cons_of_mem _ hi)

theorem cancelConflict_lookup_ne (h : s.cancelConflict info = some s') (hne : id ≠ info.plan.id) :
    s'.runningDeployments.lookup id = s.runningDeployments.lookup id := by
  unfold cancelConflict at h
  split at h
  · rcases removeScheduled_eq_some.mp h with ⟨cur, -, -, rfl⟩ | ⟨-, rfl⟩
    · exact AList.lookup_erase_ne hne
    · rfl
  · obtain ⟨cur, ref, -, -, rfl⟩ := stopDeployment_eq_stopped.mp h
    exact AList.lookup_insert_ne hne
  · cases h
    rfl

theorem foldlM_cancelConflict_lookup_ne
    (hf : known.foldlM cancelConflict s = some s') (hne : ∀ info ∈ known, info.plan.id ≠ id) :
    s'.runningDeployments.lookup id = s.runningDeployments.lookup id := by
  induction known generalizing s with
  | nil =>
    obtain rfl : s = s' := by simpa using hf
    rfl
  | cons info rest ih =>
    simp only [List.foldlM_cons, Option.bind_eq_bind, Option.bind_eq_some_iff] at hf
    obtain ⟨t, ht, hrest⟩ := hf
    rw [ih hrest fun i hi => hne i (List.mem_cons_of_mem _ hi)]
    exact cancelConflict_lookup_ne ht (hne info List.mem_cons_self).symm

/-- What becomes of the entry of one conflict depends on its own snapshot alone. -/
theorem foldlM_cancelConflict_lookup (hf : known.foldlM cancelConflict s = some s')
    (hnodup : (known.map fun info => info.plan.id).Nodup) (hinfo : info ∈ known) :
    ∃ t t' : State, t.runningDeployments.lookup info.plan.id =
        s.runningDeployments.lookup info.plan.id ∧
      t.cancelConflict info = some t' ∧
      s'.runningDeployments.lookup info.plan.id =
        t'.runningDeployments.lookup info.plan.id := by
  induction known generalizing s with
  | nil => cases hinfo
  | cons head rest ih =>
    simp only [List.foldlM_cons, Option.bind_eq_bind, Option.bind_eq_some_iff] at hf
    obtain ⟨t, ht, hrest⟩ := hf
    rw [List.map_cons, List.nodup_cons] at hnodup
    rcases List.mem_cons.mp hinfo with rfl | hmem
    · refine ⟨s, t, rfl, ht, foldlM_cancelConflict_lookup_ne hrest ?_⟩
      intro i hi he
      exact hnodup.1 (he ▸ List.mem_map_of_mem hi)
    · obtain ⟨u, u', hu, hc, hl⟩ := ih hrest hnodup.2 hmem
      refine ⟨u, u', hu.trans (cancelConflict_lookup_ne ht ?_), hc, hl⟩
      intro he
      exact hnodup.1 (he ▸ List.mem_map_of_mem hmem)

theorem deleteAll_eq (s : State) (infos : List DeploymentInfo) :
    s.deleteAll infos =
      ({ s with
        pendingOps := s.pendingOps ++
          (infos.zipIdx s.nextOp).map fun x => (x.2, .delete x.1.plan.id)
        nextOp := s.nextOp + infos.length }, List.range' s.nextOp infos.length) := by
  induction infos generalizing s with
  | nil => simp [deleteAll]
  | cons info rest ih =>
    simp only [deleteAll, ih, submit, List.zipIdx_cons, List.map_cons, List.append_assoc,
      List.length_cons, List.range'_succ, List.cons_append, List.nil_append, Prod.mk.injEq]
    constructor
    · congr 1
      omega
    · trivial

/-! ## The steps -/

/-- The message at the place `k` is taken from the mailbox. -/
def delivered (s : State) (k : ℕ) : State := { s with mailbox := s.mailbox.eraseIdx k }

/-- The child `id` goes on to the phase `ph`. -/
def advanced (s : State) (id : String) (a : DeploymentActor) (ph : ActorPhase) : State :=
  { s with deploymentActors := s.deploymentActors.insert id { a with phase := ph } }

/-- The child of the plan has been spawned. -/
def launched (s : State) (plan : Plan) (info : DeploymentInfo) : State :=
  { s with
    deploymentActors := s.deploymentActors.insert plan.id
      { plan := plan, cancelRequested := false, phase := .running }
    runningDeployments := s.runningDeployments.insert plan.id
      { info with ref := some plan.id, status := .deploying } }

/-- The operation at the place `k` is completed. -/
def completed (s : State) (k n : ℕ) (action : RepositoryOp) (ok : Bool) : State :=
  { s with
    pendingOps := s.pendingOps.eraseIdx k
    opResults := s.opResults.insert n ok
    repository := if ok then applyOp s.repository action else s.repository }

/-- The `async` block at the place `k` has ended with these replies and this message. -/
def resumed (s : State) (k : ℕ) (replies : List Reply) (m : Msg) : State :=
  { s with
    asyncs := s.asyncs.eraseIdx k
    replies := s.replies ++ replies
    mailbox := s.mailbox ++ [m] }

/-- The conflicts have been cancelled in `s`; the plan goes on to be stored. -/
def storing (s : State) (plan : Plan) (conflicts : List DeploymentInfo) : State :=
  (s.submit (.store plan)).await (.cancelDeletedConflicts plan conflicts s.nextOp)

/-- Everything one step can do, with the state that it leaves. -/
inductive Act (s : State) : Event → State → Prop
  | starts (plan : Plan) (force : Bool) (hfresh : plan.id ∉ s.seen)
      (hc : s.conflictingDeployments plan = []) :
      Act s (.startDeployment plan force) (s.startNonConflictingDeployment plan)
  | forces (plan : Plan) (hfresh : plan.id ∉ s.seen) :
      Act s (.startDeployment plan true)
        (s.startConflictingDeployment plan (s.conflictingDeployments plan))
  | givesUp (plan : Plan) :
      Act s (.startDeployment plan false) (s.giveUpConflictingDeployment plan)
  | cancelsScheduled (plan : Plan) (info : DeploymentInfo) (r : PromiseResult)
      (hl : s.runningDeployments.lookup plan.id = some info) (hst : info.status = .scheduled) :
      Act s (.cancelDeployment plan) (s.dropped plan.id info r)
  | cancelsDeploying (plan : Plan) (info : DeploymentInfo) (ref : String)
      (hl : s.runningDeployments.lookup plan.id = some info) (hr : info.ref = some ref) :
      Act s (.cancelDeployment plan) (s.stopped plan.id info ref)
  | ignores (plan : Plan) : Act s (.cancelDeployment plan) s
  | unhandled (k : ℕ) (m : Msg) (t : Token) (hk : s.mailbox[k]? = some m) (hm : m.token = some t)
      (hsch : s.isScheduledDeployment t.1.id = false) : Act s (.deliver k) (s.delivered k)
  | fails (k : ℕ) (plan : Plan) (info : DeploymentInfo) (r : PromiseResult)
      (hk : s.mailbox[k]? = some (.failedRepositoryOperation plan))
      (hl : s.runningDeployments.lookup plan.id = some info) (hst : info.status = .scheduled) :
      Act s (.deliver k) ((s.delivered k).dropped plan.id info r)
  | cancelsConflicts (k : ℕ) (plan : Plan) (conflicts : List DeploymentInfo) (s₁ : State)
      (hk : s.mailbox[k]? = some (.cancelDeletedConflicts plan conflicts))
      (hsch : s.isScheduledDeployment plan.id)
      (hf : (conflicts.filter fun info => info.plan.id ∈ s.runningDeployments).foldlM
        cancelConflict (s.delivered k) = some s₁) :
      Act s (.deliver k) (s₁.storing plan conflicts)
  | waits (k : ℕ) (plan : Plan) (conflicts : List DeploymentInfo)
      (hk : s.mailbox[k]? = some (.waitForCanceledConflicts plan conflicts)) :
      Act s (.deliver k) ((s.delivered k).waitForCanceledConflicts plan conflicts)
  | launches (k : ℕ) (plan : Plan) (info : DeploymentInfo)
      (hk : s.mailbox[k]? = some (.launchDeployment plan))
      (hl : s.runningDeployments.lookup plan.id = some info) (hst : info.status = .scheduled)
      (hplan : info.plan = plan) (hfresh : plan.id ∉ s.deploymentActors) :
      Act s (.deliver k) ((s.delivered k).launched plan info)
  | finishes (k : ℕ) (plan : Plan) (r : PromiseResult) (info : DeploymentInfo)
      (hk : s.mailbox[k]? = some (.deploymentFinished plan r))
      (hl : s.runningDeployments.lookup plan.id = some info) :
      Act s (.deliver k)
        (((s.delivered k).dropped plan.id info r).submit (.delete plan.id))
  | finishesGone (k : ℕ) (plan : Plan) (r : PromiseResult)
      (hk : s.mailbox[k]? = some (.deploymentFinished plan r))
      (hl : s.runningDeployments.lookup plan.id = none) :
      Act s (.deliver k) { s.delivered k with
        runningDeploymentsMetric := s.runningDeploymentsMetric - 1 }
  | completes (k n : ℕ) (action : RepositoryOp) (ok : Bool)
      (hk : s.pendingOps[k]? = some (n, action))
      (hfirst : ∀ op ∈ s.pendingOps.take k, op.2.key ≠ action.key) :
      Act s (.completeOp k ok) (s.completed k n action ok)
  | resumes (k : ℕ) (a : Async) (replies : List Reply) (m : Msg) (hk : s.asyncs[k]? = some a)
      (hc : s.continueAsync a = some (replies, m)) :
      Act s (.resume k) (s.resumed k replies m)
  | reports (e : Event) (id : String) (a : DeploymentActor) (r : PromiseResult)
      (ha : s.deploymentActors.lookup id = some a) (hp : a.phase = .running) :
      Act s e ((s.advanced id a .stopping).send (.deploymentFinished a.plan r))
  | crashes (id : String) (a : DeploymentActor) (ha : s.deploymentActors.lookup id = some a)
      (hp : a.phase = .running) : Act s (.actorCrashed id) (s.advanced id a .stopping)
  | terminates (id : String) (a : DeploymentActor) (ha : s.deploymentActors.lookup id = some a)
      (hp : a.phase = .stopping) : Act s (.actorTerminated id) (s.advanced id a .terminated)
  | stopDone (k : ℕ) (stop : StopActor) (hk : s.stopActors[k]? = some stop) :
      Act s (.stopActorTerminated k)
        { s with stopActors := s.stopActors.set k { stop with promiseDone := true } }

/-- A scheduled entry is that of the plan whose token comes with it. -/
theorem Inv.plan_of_token (hi : s.Inv) {t : Token}
    (ht : t ∈ s.tokens) (hl : s.runningDeployments.lookup t.1.id = some info) :
    info.plan = t.1 := by
  have hknown := (hi.runningOk _ _ hl).known
  rw [hi.runningId _ _ hl, hi.tokenKnown _ ht] at hknown
  exact (Option.some.inj hknown).symm

theorem receive_act {k : ℕ} {m : Msg} (hi : s.Inv)
    (hk : s.mailbox[k]? = some m) (h : (s.delivered k).receive m = some s') :
    Act s (.deliver k) s' := by
  cases m with
  | deploymentFinished plan r =>
    rcases deploymentFinished_eq_some.mp h with ⟨info, hl, -, rfl⟩ | ⟨hl, rfl⟩
    · exact .finishes k plan r info hk hl
    · exact .finishesGone k plan r hk hl
  | launchDeployment plan =>
    simp only [receive] at h
    split at h
    · rename_i hguard
      obtain ⟨info, hl, hstart⟩ := Option.bind_eq_some_iff.mp h
      obtain ⟨info', hl', hst⟩ := isScheduledDeployment_iff.mp hguard
      cases hl.symm.trans hl'
      have htok : (plan, Stage.launching) ∈ s.tokens :=
        (tokens_deliver hk).symm.subset List.mem_cons_self
      have hplan : info.plan = plan := hi.plan_of_token htok hl
      obtain ⟨current, hcur, rfl⟩ := startDeployment_eq_some hstart
      rw [hplan] at hcur
      cases hl.symm.trans hcur
      have hact := Act.launches k plan info hk hl hst hplan (hi.tokenFresh _ htok)
      simpa only [launched, hplan] using hact
    · rename_i hguard
      cases h
      exact .unhandled k _ _ hk rfl (Bool.eq_false_iff.mpr hguard)
  | cancelDeletedConflicts plan conflicts =>
    simp only [receive] at h
    split at h
    · rename_i hguard
      simp only [cancelDeletedConflicts, Option.bind_eq_bind, Option.pure_def,
        Option.bind_eq_some_iff, Option.some.injEq] at h
      obtain ⟨s₁, hf, rfl⟩ := h
      exact .cancelsConflicts k plan conflicts s₁ hk hguard hf
    · rename_i hguard
      cases h
      exact .unhandled k _ _ hk rfl (Bool.eq_false_iff.mpr hguard)
  | waitForCanceledConflicts plan conflicts =>
    simp only [receive] at h
    split at h
    · cases h
      exact .waits k plan conflicts hk
    · rename_i hguard
      cases h
      exact .unhandled k _ _ hk rfl (Bool.eq_false_iff.mpr hguard)
  | failedRepositoryOperation plan =>
    simp only [receive] at h
    split at h
    · rename_i hguard
      obtain ⟨info, hl, hst⟩ := isScheduledDeployment_iff.mp hguard
      rcases removeScheduled_eq_some.mp h with ⟨cur, hcur, -, rfl⟩ | ⟨hn, -⟩
      · cases hl.symm.trans hcur
        exact .fails k plan info _ hk hl hst
      · rw [hl] at hn
        cases hn
    · rename_i hguard
      cases h
      exact .unhandled k _ _ hk rfl (Bool.eq_false_iff.mpr hguard)

theorem step_act {e : Event} (hi : s.Inv) (h : s.step e = some s') : Act s e s' := by
  cases e with
  | startDeployment plan force =>
    simp only [step] at h
    split at h
    · cases h
    · rename_i hfresh
      cases h
      unfold start
      dsimp only
      split_ifs with hc hf
      · exact .starts plan force hfresh hc
      · subst hf
        exact .forces plan hfresh
      · obtain rfl : force = false := Bool.eq_false_iff.mpr hf
        exact .givesUp plan
  | cancelDeployment plan =>
    rcases cancelDeployment_cases h with ⟨info, r, hl, hst, -, rfl⟩ | ⟨info, ref, hl, -, hr, rfl⟩ |
      ⟨-, rfl⟩
    · exact .cancelsScheduled plan info r hl hst
    · exact .cancelsDeploying plan info ref hl hr
    · exact .ignores plan
  | deliver k =>
    simp only [step, Option.bind_eq_bind, Option.bind_eq_some_iff] at h
    obtain ⟨m, hk, hr⟩ := h
    exact receive_act hi hk hr
  | completeOp k ok =>
    simp only [step, Option.bind_eq_bind, Option.bind_eq_some_iff] at h
    obtain ⟨⟨n, action⟩, hk, h⟩ := h
    split at h
    · cases h
    · rename_i hany
      cases h
      refine .completes k n action ok hk ?_
      intro op hop he
      exact hany (List.any_eq_true.mpr ⟨op, hop, by simpa using he⟩)
  | resume k =>
    simp only [step, Option.bind_eq_bind, Option.bind_eq_some_iff, Option.pure_def,
      Option.some.injEq] at h
    obtain ⟨a, hk, ⟨rs, m⟩, hc, rfl⟩ := h
    exact .resumes k a rs m hk hc
  | actorDone id result =>
    simp only [step, Option.bind_eq_bind, Option.bind_eq_some_iff] at h
    obtain ⟨a, ha, h⟩ := h
    split at h
    · rename_i hph
      cases h
      exact .reports _ id a result ha hph
    · cases h
  | actorCancelled id =>
    simp only [step, Option.bind_eq_bind, Option.bind_eq_some_iff] at h
    obtain ⟨a, ha, h⟩ := h
    split at h
    · rename_i hph
      cases h
      exact .reports _ id a _ ha hph.1
    · cases h
  | actorCrashed id =>
    simp only [step, Option.bind_eq_bind, Option.bind_eq_some_iff] at h
    obtain ⟨a, ha, h⟩ := h
    split at h
    · rename_i hph
      cases h
      exact .crashes id a ha hph
    · cases h
  | actorTerminated id =>
    simp only [step, Option.bind_eq_bind, Option.bind_eq_some_iff] at h
    obtain ⟨a, ha, h⟩ := h
    split at h
    · rename_i hph
      cases h
      exact .terminates id a ha hph
    · cases h
  | stopActorTerminated k =>
    simp only [step, Option.bind_eq_bind, Option.bind_eq_some_iff] at h
    obtain ⟨stop, hk, a, ha, h⟩ := h
    split at h
    · cases h
      exact .stopDone k stop hk
    · cases h

/-! ## The snapshots of conflicts -/

theorem values_map_id (hi : s.Inv) :
    (s.runningDeployments.values.map fun info => info.plan.id) = s.runningDeployments.keys := by
  simp only [Dict.values, AList.keys, List.keys, List.map_map]
  refine List.map_congr_left ?_
  intro e he
  exact hi.runningId e.1 e.2 (AList.mem_lookup_iff.mpr he)

/-- A plan's snapshot of its conflicts has every deployment once, and not the plan itself. -/
structure SnapshotsOk (s : State) : Prop where
  distinct : ∀ t ∈ s.tokens, (t.2.conflicts.map fun info => info.plan.id).Nodup
  other : ∀ t ∈ s.tokens, ∀ info ∈ t.2.conflicts, info.plan.id ≠ t.1.id

theorem conflictingDeployments_nodup (hi : s.Inv) (plan : Plan) :
    ((s.conflictingDeployments plan).map fun info => info.plan.id).Nodup := by
  have hsub : (s.conflictingDeployments plan).Sublist s.runningDeployments.values :=
    List.filter_sublist
  refine (hsub.map fun info => info.plan.id).nodup ?_
  rw [values_map_id hi]
  exact s.runningDeployments.nodupKeys

theorem Continues.conflicts_eq {e : Event} {st st' : Stage}
    (h : Continues s e plan st st') : st'.conflicts = [] ∨ st'.conflicts = st.conflicts := by
  cases h with
  | fails => exact .inl rfl
  | stays => exact .inr rfl
  | waited => exact .inl rfl
  | waits => exact .inl rfl

theorem SnapshotsOk.of_tokens (h : s.SnapshotsOk) (ht : s'.tokens ⊆ s.tokens) : s'.SnapshotsOk where
  distinct t htok := h.distinct t (ht htok)
  other t htok := h.other t (ht htok)

/-- One plan goes on to a stage without conflicts or with the same ones. -/
theorem SnapshotsOk.carries {st st' : Stage} {rest : List Token}
    (h : s.SnapshotsOk) (ht : s.tokens.Perm ((plan, st) :: rest))
    (ht' : s'.tokens.Perm ((plan, st') :: rest))
    (hc : st'.conflicts = [] ∨ st'.conflicts = st.conflicts) : s'.SnapshotsOk := by
  have hmem : (plan, st) ∈ s.tokens := ht.symm.subset List.mem_cons_self
  have hrest : ∀ t ∈ rest, t ∈ s.tokens := fun t hr => ht.symm.subset (List.mem_cons_of_mem _ hr)
  constructor
  · intro t htok
    rcases List.mem_cons.mp (ht'.subset htok) with rfl | hr
    · rcases hc with hc | hc
      · simp [hc]
      · rw [hc]
        exact h.distinct _ hmem
    · exact h.distinct t (hrest t hr)
  · intro t htok info hinfo
    rcases List.mem_cons.mp (ht'.subset htok) with rfl | hr
    · rcases hc with hc | hc
      · simp [hc] at hinfo
      · rw [hc] at hinfo
        exact h.other _ hmem info hinfo
    · exact h.other t (hrest t hr) info hinfo

theorem snapshotsOk_step {e : Event} (hi : s.Inv) (h : s.SnapshotsOk)
    (hs : s.step e = some s') : s'.SnapshotsOk := by
  cases step_effect hi hs with
  | cancels s₀ hw ht hc =>
    refine h.of_tokens ?_
    rw [hc.tokens]
    exact ht.subset
  | advances id a ph ha =>
    refine h.of_tokens ?_
    rw [ha.tokens]
    exact fun _ ht => ht
  | stopDone k stop a hk ha hph hs =>
    subst hs
    exact h.of_tokens fun _ ht => ht
  | starts plan force stage he hstart hst =>
    have hnew : ∀ info ∈ s.conflictingDeployments plan, info.plan.id ≠ plan.id := by
      intro info hinfo
      obtain ⟨id, hl⟩ := Dict.mem_values.mp (conflictingDeployments_subset s plan hinfo)
      exact hstart.ne_of_known (hi.runningOk id info hl).known
    have hstage : stage.conflicts = [] ∨ stage.conflicts = s.conflictingDeployments plan := by
      rcases hst with ⟨-, rfl⟩ | ⟨-, rfl⟩
      · exact .inl rfl
      · exact .inr rfl
    constructor
    · intro t htok
      rcases List.mem_cons.mp (hstart.tokens.subset htok) with rfl | htok
      · rcases hstage with hc | hc
        · simp [hc]
        · rw [hc]
          exact conflictingDeployments_nodup hi plan
      · exact h.distinct t htok
    · intro t htok info hinfo
      rcases List.mem_cons.mp (hstart.tokens.subset htok) with rfl | htok
      · rcases hstage with hc | hc
        · simp [hc] at hinfo
        · rw [hc] at hinfo
          exact hnew info hinfo
      · exact h.other t htok info hinfo
  | carries s₀ plan st st' hw ht hw' ht' hc => exact h.carries ht ht' hc.conflicts_eq
  | cancelsConflicts s₀ s₁ k plan conflicts he hk hsch hw ht hf hw' ht' =>
    rw [(foldlM_cancelConflict_cancels hf).tokens] at ht'
    exact h.carries ht ht' (.inr rfl)
  | launches s₀ plan hw ht hl =>
    refine h.of_tokens ?_
    rw [hl.tokens]
    exact fun t htok => ht.symm.subset (List.mem_cons_of_mem _ htok)

theorem snapshotsOk_initial (repository : Dict String Plan) : (initial repository).SnapshotsOk where
  distinct _ h := by simp [initial, tokens] at h
  other _ h := by simp [initial, tokens] at h

end State

theorem snapshotsOk_of_reachable (h : manager.Reachable s) : s.SnapshotsOk :=
  h.invariant_of (I := State.Inv) (J := State.SnapshotsOk) (fun _ hr => inv_of_reachable hr)
    (by rintro s ⟨repository, rfl⟩; exact State.snapshotsOk_initial repository)
    fun _ _ _ hi hj _ hs => State.snapshotsOk_step hi hj hs

end Marathon.Deployment
