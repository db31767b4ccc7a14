import Marathon.Deployment.OrphanedDeployments
import Marathon.Deployment.StoredConflicts

/-!
# Deployments that a next leader resumes

The next leader deploys every stored plan. When all operations succeed and nothing
is pending, the stored plans are those of the running deployments, as long as a
scheduled deployment is dropped only while it is not stored itself and has deleted
no deployment that goes on.
-/

namespace Marathon.Deployment

open Marathon.Lib

/-- What is stored under `id` after the operation, if `x` was before. -/
def RepositoryOp.applyTo (id : String) (x : Option Plan) : RepositoryOp → Option Plan
  | .store plan => if plan.id = id then some plan else x
  | .delete id' => if id' = id then none else x

theorem RepositoryOp.applyTo_of_ne {op : RepositoryOp} {id : String} (h : op.key ≠ id)
    (x : Option Plan) : op.applyTo id x = x := by
  cases op with
  | store plan => exact if_neg h
  | delete id' => exact if_neg h

theorem RepositoryOp.applyTo_of_eq {op : RepositoryOp} {id : String} (h : op.key = id)
    (x y : Option Plan) : op.applyTo id x = op.applyTo id y := by
  cases op with
  | store plan => exact (if_pos h).trans (if_pos h).symm
  | delete id' => exact (if_pos h).trans (if_pos h).symm

variable {s s' s₁ : State} {k : ℕ} {info : DeploymentInfo} {r : PromiseResult}
  {conflicts : List DeploymentInfo} {plan : Plan}

namespace State

/-- What is stored under `id` once all the pending operations have been successful. -/
def settled (s : State) (id : String) : Option Plan :=
  s.pendingOps.foldl (fun x op => op.2.applyTo id x) (s.repository.lookup id)

/-- The id is stored once all the pending operations have been successful. -/
def WillBeStored (s : State) (id : String) : Prop := s.settled id ≠ none

instance (s : State) (id : String) : Decidable (s.WillBeStored id) :=
  inferInstanceAs (Decidable (s.settled id ≠ none))

/-- Nothing is left to be done but the steps of the deployments themselves. -/
structure Quiescent (s : State) : Prop where
  mailbox : s.mailbox = []
  operations : s.pendingOps = []
  futures : ∀ a ∈ s.asyncs, s.continueAsync a = none
  cancels : ∀ id a, s.deploymentActors.lookup id = some a → a.cancelRequested →
    a.phase ≠ .running
  recovered : ∀ id ∈ s.repository, id ∈ s.seen

/-- The deployment is scheduled or deploying, not being cancelled. -/
def Proceeds (s : State) (id : String) : Prop :=
  ∃ info, s.runningDeployments.lookup id = some info ∧ info.status ≠ .canceling

instance (s : State) (id : String) : Decidable (s.Proceeds id) :=
  match h : s.runningDeployments.lookup id with
  | none => isFalse (by rintro ⟨info, hl, -⟩; rw [h] at hl; cases hl)
  | some info => decidable_of_iff (info.status ≠ .canceling)
      ⟨fun hs => ⟨info, h, hs⟩, by rintro ⟨info', hl, hs⟩; rw [h] at hl; cases hl; exact hs⟩

/-- The condition on dropping the scheduled deployment `id` together with `others`: it
will not be stored, and of what it has deleted nothing else goes on unstored. -/
def Disposable (s : State) (id : String) (others : List String) : Prop :=
  ¬ s.WillBeStored id ∧ ∀ t ∈ s.tokens, t.1.id = id → ∀ info ∈ t.2.deletes,
    s.Proceeds info.plan.id → info.plan.id ∈ others ∨ s.WillBeStored info.plan.id

def DropsDisposable (s : State) : Msg → Prop
  | .cancelDeletedConflicts plan conflicts => s.isScheduledDeployment plan.id →
    ∀ info ∈ conflicts, info.status = .scheduled → info.plan.id ∈ s.runningDeployments →
      s.Disposable info.plan.id (conflicts.map fun info => info.plan.id)
  | _ => True

/-- No repository operation fails and no child crashes. -/
def Succeeds : Event → Prop
  | .completeOp _ ok => ok = true
  | .actorCrashed _ => False
  | _ => True

/-- All operations succeed, no child crashes, and only what is disposable is dropped. -/
def LosesNothing (s : State) : Event → Prop
  | .cancelDeployment plan => s.isScheduledDeployment plan.id → s.Disposable plan.id []
  | .deliver k => ∀ m ∈ s.mailbox[k]?, s.DropsDisposable m
  | .completeOp _ ok => ok = true
  | .actorCrashed _ => False
  | _ => True

instance : (e : Event) → Decidable (Succeeds e)
  | .completeOp _ ok => inferInstanceAs (Decidable (ok = true))
  | .actorCrashed _ => isFalse id
  | .startDeployment _ _ | .cancelDeployment _ | .deliver _ | .resume _ | .actorDone _ _
  | .actorCancelled _ | .actorTerminated _ | .stopActorTerminated _ => isTrue trivial

instance (s : State) (id : String) (others : List String) : Decidable (s.Disposable id others) :=
  inferInstanceAs (Decidable (¬ s.WillBeStored id ∧ ∀ t ∈ s.tokens, t.1.id = id →
    ∀ info ∈ t.2.deletes, s.Proceeds info.plan.id →
      info.plan.id ∈ others ∨ s.WillBeStored info.plan.id))

instance (s : State) : (m : Msg) → Decidable (s.DropsDisposable m)
  | .cancelDeletedConflicts plan conflicts =>
    inferInstanceAs (Decidable (s.isScheduledDeployment plan.id →
      ∀ info ∈ conflicts, info.status = .scheduled → info.plan.id ∈ s.runningDeployments →
        s.Disposable info.plan.id (conflicts.map fun info => info.plan.id)))
  | .deploymentFinished _ _ | .launchDeployment _ | .failedRepositoryOperation _
  | .waitForCanceledConflicts _ _ => isTrue trivial

instance (s : State) : (e : Event) → Decidable (s.LosesNothing e)
  | .cancelDeployment plan =>
    inferInstanceAs (Decidable (s.isScheduledDeployment plan.id → s.Disposable plan.id []))
  | .deliver k => inferInstanceAs (Decidable (∀ m ∈ s.mailbox[k]?, s.DropsDisposable m))
  | .completeOp _ ok => inferInstanceAs (Decidable (ok = true))
  | .actorCrashed _ => isFalse id
  | .startDeployment _ _ | .resume _ | .actorDone _ _ | .actorCancelled _ | .actorTerminated _
  | .stopActorTerminated _ => isTrue trivial

/-! ## What will be stored -/

theorem lookup_applyOp (r : Dict String Plan) (op : RepositoryOp) (id : String) :
    (applyOp r op).lookup id = op.applyTo id (r.lookup id) := by
  cases op with
  | store plan =>
    simp only [applyOp, RepositoryOp.applyTo]
    split_ifs with h
    · subst h
      exact AList.lookup_insert r
    · exact AList.lookup_insert_ne (Ne.symm h)
  | delete id' =>
    simp only [applyOp, RepositoryOp.applyTo]
    split_ifs with h
    · subst h
      exact AList.lookup_erase _ _
    · exact AList.lookup_erase_ne (Ne.symm h)

theorem Submits.settled {ops : List RepositoryOp} (h : s.Submits s' ops) (id : String) :
    s'.settled id = ops.foldl (fun x op => op.applyTo id x) (s.settled id) := by
  have hnew : ∀ (ops : List RepositoryOp) (n : ℕ) (x : Option Plan),
      ((ops.zipIdx n).map fun y => (y.2, y.1)).foldl
        (fun x (op : ℕ × RepositoryOp) => op.2.applyTo id x) x =
      ops.foldl (fun x op => op.applyTo id x) x := by
    intro ops
    induction ops with
    | nil => exact fun _ _ => rfl
    | cons op rest ih => exact fun n x => ih (n + 1) _
  rw [State.settled, h.repository, h.pendingOps, List.foldl_append, hnew]
  rfl

theorem foldl_applyTo_of_ne {ops : List (ℕ × RepositoryOp)} {id : String}
    (h : ∀ op ∈ ops, op.2.key ≠ id) (x : Option Plan) :
    ops.foldl (fun x op => op.2.applyTo id x) x = x := by
  induction ops generalizing x with
  | nil => rfl
  | cons op rest ih =>
    rw [List.foldl_cons, RepositoryOp.applyTo_of_ne (h op List.mem_cons_self)]
    exact ih (fun o ho => h o (List.mem_cons_of_mem _ ho)) x

theorem settled_completed {n : ℕ} {action : RepositoryOp}
    (hk : s.pendingOps[k]? = some (n, action))
    (hfirst : ∀ op ∈ s.pendingOps.take k, op.2.key ≠ action.key) (id : String) :
    (s.completed k n action true).settled id = s.settled id := by
  obtain ⟨hlt, hget⟩ := List.getElem?_eq_some_iff.mp hk
  have hsplit : s.pendingOps = s.pendingOps.take k ++ (n, action) :: s.pendingOps.drop (k + 1) := by
    rw [← hget, ← List.drop_eq_getElem_cons hlt, List.take_append_drop]
  have herase : (s.completed k n action true).pendingOps =
      s.pendingOps.take k ++ s.pendingOps.drop (k + 1) := List.eraseIdx_eq_take_drop_succ _ _
  have hrep : (s.completed k n action true).repository.lookup id =
      action.applyTo id (s.repository.lookup id) := lookup_applyOp _ _ _
  rw [settled, herase, hrep, settled]
  conv_rhs => rw [hsplit]
  rw [List.foldl_append, List.foldl_append, List.foldl_cons]
  congr 1
  by_cases hkey : action.key = id
  · rw [foldl_applyTo_of_ne (fun op hop => hkey ▸ hfirst op hop)]
    exact RepositoryOp.applyTo_of_eq hkey _ _
  · rw [RepositoryOp.applyTo_of_ne hkey, RepositoryOp.applyTo_of_ne hkey]

/-! ## Children being stopped -/

structure Stopping (s : State) : Prop where
  canceling : ∀ id info, s.runningDeployments.lookup id = some info → info.status = .canceling →
    ∃ a, s.deploymentActors.lookup id = some a ∧ a.cancelRequested
  /-- A child that is no longer at work has reported, or its entry is gone. -/
  reported : ∀ id a, s.deploymentActors.lookup id = some a → a.phase ≠ .running →
    id ∈ s.runningDeployments → ∃ p ∈ s.reports, p.id = id
  reports : ∀ p ∈ s.reports, p.id ∈ s.deploymentActors
  stopped : ∀ stop ∈ s.stopActors, stop.toStop ∈ s.deploymentActors ∧
    ∀ info, s.runningDeployments.lookup stop.toStop = some info → info.status = .canceling

theorem Stopping.same (h : s.Stopping) (hw : s.SameBooks s') : s'.Stopping where
  canceling := by rw [hw.running, hw.actors]; exact h.canceling
  reported := by rw [hw.running, hw.actors, hw.reports]; exact h.reported
  reports := by rw [hw.reports, hw.actors]; exact h.reports
  stopped := by rw [hw.running, hw.actors, hw.stops]; exact h.stopped

/-- An entry is removed, whatever its child does. -/
theorem Stopping.dropped {id : String} (h : s.Stopping) : (s.dropped id info r).Stopping where
  canceling id' info' hl := h.canceling id' info' (Dict.lookup_erase_eq_some.mp hl).2
  reported id' a ha hp hmem := by
    obtain ⟨info', hl⟩ := Dict.lookup_ne_none_of_mem hmem
    exact h.reported id' a ha hp
      (Dict.mem_of_lookup_eq_some (Dict.lookup_erase_eq_some.mp hl).2)
  reports := h.reports
  stopped stop hstop := ⟨(h.stopped stop hstop).1, fun info' hl =>
    (h.stopped stop hstop).2 info' (Dict.lookup_erase_eq_some.mp hl).2⟩

theorem stopActor_lookup {ref id : String} {a : DeploymentActor}
    (ha : s.deploymentActors.lookup id = some a) :
    ∃ b, (s.stopActor ref).1.deploymentActors.lookup id = some b ∧ b.phase = a.phase ∧
      (a.cancelRequested = true ∨ id = ref → b.cancelRequested = true) := by
  unfold stopActor
  by_cases he : id = ref
  · subst he
    simp only [ha]
    exact ⟨_, AList.lookup_insert _, rfl, fun _ => rfl⟩
  · cases hr : s.deploymentActors.lookup ref with
    | none => exact ⟨a, ha, rfl, fun h => h.resolve_right he⟩
    | some b =>
      refine ⟨a, ?_, rfl, fun h => h.resolve_right he⟩
      show (s.deploymentActors.insert ref _).lookup id = some a
      rw [AList.lookup_insert_ne he]
      exact ha

theorem Stopping.stopped_entry {id ref : String} (hi : s.Inv)
    (h : s.Stopping) (hl : s.runningDeployments.lookup id = some info)
    (hr : info.ref = some ref) : (s.stopped id info ref).Stopping := by
  have hok := hi.runningOk id info hl
  have hid := hi.runningId id info hl
  have hne : info.status ≠ .scheduled := fun hs => by
    rw [hok.scheduled hs] at hr
    cases hr
  obtain ⟨href, hmem⟩ := hok.launched hne
  obtain rfl : ref = id := by
    rw [href] at hr
    exact (Option.some.inj hr).symm.trans hid
  rw [hid] at hmem
  have hkept : ∀ id', id' ∈ s.deploymentActors → id' ∈ (s.stopped ref info ref).deploymentActors :=
    fun id' hm => (stopDeployment_cancels
      (stopDeployment_eq_stopped.mpr ⟨info, ref, hl, hr, rfl⟩)).extends.actors id' hm
  exact
    { canceling := by
        intro id' info' hl' hst
        rcases Dict.lookup_insert_eq_some.mp hl' with ⟨rfl, -⟩ | ⟨-, hl'⟩
        · obtain ⟨a, ha⟩ := Dict.lookup_ne_none_of_mem hmem
          obtain ⟨b, hb, -, hreq⟩ := @stopActor_lookup s id' id' a ha
          exact ⟨b, hb, hreq (.inr rfl)⟩
        · obtain ⟨a, ha, hreq⟩ := h.canceling id' info' hl' hst
          obtain ⟨b, hb, -, hreq'⟩ := @stopActor_lookup s ref id' a ha
          exact ⟨b, hb, hreq' (.inl hreq)⟩
      reported := by
        intro id' b hb hp hmem'
        obtain ⟨a, ha, -, hp'⟩ := child_eq_some.mp
          (stopped_lookup.mp (child_eq_some.mpr ⟨b, hb, rfl, rfl⟩))
        refine h.reported id' a ha (by rw [hp']; exact hp) ?_
        rcases (AList.mem_insert _).mp hmem' with rfl | hm
        · exact Dict.mem_of_lookup_eq_some hl
        · exact hm
      reports := fun p hp => hkept _ (h.reports p hp)
      stopped := by
        intro stop hstop
        rcases List.mem_append.mp hstop with hold | hnew
        · refine ⟨hkept _ (h.stopped stop hold).1, fun info' hl' => ?_⟩
          rcases Dict.lookup_insert_eq_some.mp hl' with ⟨-, rfl⟩ | ⟨-, hl'⟩
          · rfl
          · exact (h.stopped stop hold).2 info' hl'
        · obtain rfl := List.mem_singleton.mp hnew
          refine ⟨hkept _ hmem, fun info' hl' => ?_⟩
          rcases Dict.lookup_insert_eq_some.mp hl' with ⟨-, rfl⟩ | ⟨hne', -⟩
          · rfl
          · exact absurd rfl hne' }

theorem Stopping.cancelConflict (hi : s.Inv)
    (h : s.Stopping) (hknown : info.plan.id ∈ s.runningDeployments)
    (hc : s.cancelConflict info = some s') : s'.Stopping := by
  rcases cancelConflict_cases hc hknown with ⟨-, cur, r, -, -, rfl⟩ | ⟨-, cur, ref, hl, hr, rfl⟩ |
    ⟨-, rfl⟩
  · exact h.dropped
  · exact h.stopped_entry hi hl hr
  · exact h

theorem Stopping.cancelsConflicts (hi : s.Inv) (h : s.Stopping)
    (hnodup : ((conflicts.filter fun info => info.plan.id ∈ s.runningDeployments).map
      fun info => info.plan.id).Nodup)
    (hf : (conflicts.filter fun info => info.plan.id ∈ s.runningDeployments).foldlM
      State.cancelConflict s = some s₁) : s₁.Stopping := by
  have hmem : ∀ info ∈ conflicts.filter fun info => info.plan.id ∈ s.runningDeployments,
      info.plan.id ∈ s.runningDeployments := fun info hinfo => by
    simpa using (List.mem_filter.mp hinfo).2
  refine (foldlM_cancelConflict_induction (P := fun t => t.Inv ∧ t.Stopping) hf hnodup hmem
    (fun _ _ => rfl) ?_ ⟨hi, h⟩).2
  rintro info hinfo t t' ⟨hit, ht⟩ hl hc
  have hin : info.plan.id ∈ t.runningDeployments := by
    rw [← AList.lookup_isSome, hl, AList.lookup_isSome]
    exact hmem info hinfo
  exact ⟨hit.cancels (cancelConflict_cancels hc), ht.cancelConflict hit hin hc⟩

theorem stopping_step {e : Event} (hi : s.Inv) (hsnap : s.SnapshotsOk)
    (h : s.Stopping) (hcrash : ∀ id, e ≠ .actorCrashed id) (hb : BookStep s e s') :
    s'.Stopping := by
  cases hb with
  | idle hw => exact h.same hw
  | marks plan hfresh hw =>
    have hnew : ∀ id ∈ s.deploymentActors, id ≠ plan.id := by
      rintro id hm rfl
      obtain ⟨a, ha⟩ := Dict.lookup_ne_none_of_mem hm
      exact hfresh (Dict.mem_of_lookup_eq_some (hi.actorKnown _ a ha))
    refine Stopping.same ?_ hw
    exact
      { canceling := by
          intro id info hl hst
          rcases Dict.lookup_insert_eq_some.mp hl with ⟨-, rfl⟩ | ⟨-, hl⟩
          · cases hst
          · exact h.canceling id info hl hst
        reported := by
          intro id a ha hp hmem
          refine h.reported id a ha hp ?_
          exact ((AList.mem_insert _).mp hmem).resolve_left
            (hnew id (Dict.mem_of_lookup_eq_some ha))
        reports := h.reports
        stopped := by
          intro stop hstop
          refine ⟨(h.stopped stop hstop).1, fun info hl => ?_⟩
          rcases Dict.lookup_insert_eq_some.mp hl with ⟨he, -⟩ | ⟨-, hl⟩
          · exact absurd he (hnew _ (h.stopped stop hstop).1)
          · exact (h.stopped stop hstop).2 info hl }
  | drops s₀ id info r hw hl hst hs' =>
    subst hs'
    exact (h.same hw).dropped
  | stops id info ref hl hr hs' =>
    subst hs'
    exact h.stopped_entry hi hl hr
  | cancelsConflicts s₀ s₁ k plan conflicts he hk hsch hs₀ hw hf hw' =>
    have htok : (plan, Stage.deleting conflicts) ∈ s.tokens :=
      (tokens_deliver hk).symm.subset List.mem_cons_self
    have hi₀ : s₀.Inv := by
      subst hs₀
      refine hi.dropTokens ⟨rfl, rfl, rfl, rfl⟩ ?_
      exact (List.sublist_append_right _ _).subperm.trans (tokens_deliver hk).symm.subperm
    exact ((h.same hw).cancelsConflicts hi₀ (known_conflicts hsnap htok).1 hf).same hw'
  | finishes s₀ k plan r info he hk hs₀ hl hs' =>
    subst hs' hs₀
    have hperm := reports_deliver (p := plan) hk rfl
    have hsub : ∀ p ∈ ((s.delivered k).reports), p ∈ s.reports := fun p hp =>
      hperm.symm.subset (List.mem_cons_of_mem _ hp)
    exact
      { canceling := fun id' info' hl' =>
          h.canceling id' info' (Dict.lookup_erase_eq_some.mp hl').2
        reported := by
          intro id' a ha hp hmem
          obtain ⟨info', hl'⟩ := Dict.lookup_ne_none_of_mem hmem
          obtain ⟨hne, hl'⟩ := Dict.lookup_erase_eq_some.mp hl'
          obtain ⟨p, hmemp, rfl⟩ := h.reported id' a ha hp (Dict.mem_of_lookup_eq_some hl')
          rcases List.mem_cons.mp (hperm.subset hmemp) with rfl | hrest
          · exact absurd rfl hne
          · exact ⟨p, hrest, rfl⟩
        reports := fun p hp => h.reports p (hsub p hp)
        stopped := fun stop hstop => ⟨(h.stopped stop hstop).1, fun info' hl' =>
          (h.stopped stop hstop).2 info' (Dict.lookup_erase_eq_some.mp hl').2⟩ }
  | finishesGone s₀ k plan r he hk hs₀ hl hs' =>
    subst hs' hs₀
    have hperm := reports_deliver (p := plan) hk rfl
    exact
      { canceling := h.canceling
        reported := by
          intro id' a ha hp hmem
          obtain ⟨p, hmemp, rfl⟩ := h.reported id' a ha hp hmem
          rcases List.mem_cons.mp (hperm.subset hmemp) with rfl | hrest
          · exact absurd hmem (AList.lookup_eq_none.mp hl)
          · exact ⟨p, hrest, rfl⟩
        reports := fun p hp => h.reports p (hperm.symm.subset (List.mem_cons_of_mem _ hp))
        stopped := h.stopped }
  | launches s₀ plan info hw hl hplan hfresh hs' =>
    subst hs'
    have h₀ : s₀.Stopping := h.same hw
    have hfresh₀ : ∀ id ∈ s₀.deploymentActors, id ≠ plan.id := by
      rintro id hm rfl
      exact hfresh (hw.actors ▸ hm)
    have hlook : ∀ id, id ≠ plan.id → (s₀.launched plan info).deploymentActors.lookup id =
        s₀.deploymentActors.lookup id := fun id hne => AList.lookup_insert_ne hne
    exact
      { canceling := by
          intro id info' hl' hst
          rcases Dict.lookup_insert_eq_some.mp hl' with ⟨-, rfl⟩ | ⟨hne, hl'⟩
          · cases hst
          · rw [hlook id hne]
            exact h₀.canceling id info' hl' hst
        reported := by
          intro id a ha hp hmem
          rcases Dict.lookup_insert_eq_some.mp ha with ⟨-, rfl⟩ | ⟨hne, ha⟩
          · exact absurd rfl hp
          · exact h₀.reported id a ha hp (((AList.mem_insert _).mp hmem).resolve_left hne)
        reports := fun p hp => (AList.mem_insert _).mpr (.inr (h₀.reports p hp))
        stopped := by
          intro stop hstop
          obtain ⟨hm, hcan⟩ := h₀.stopped stop hstop
          refine ⟨(AList.mem_insert _).mpr (.inr hm), fun info' hl' => ?_⟩
          rcases Dict.lookup_insert_eq_some.mp hl' with ⟨he, -⟩ | ⟨-, hl'⟩
          · exact absurd he (hfresh₀ _ hm)
          · exact hcan info' hl' }
  | finished id a r ha hp hs' =>
    subst hs'
    have hreports : ((s.advanced id a .stopping).send (.deploymentFinished a.plan r)).reports =
        s.reports ++ [a.plan] := by
      simp only [State.reports, send, advanced, List.filterMap_append, List.filterMap_cons,
        Msg.report, List.filterMap_nil]
    exact
      { canceling := by
          intro id' info hl hst
          obtain ⟨b, hb, hreq⟩ := h.canceling id' info hl hst
          by_cases he : id' = id
          · subst he
            cases ha.symm.trans hb
            exact ⟨{ a with phase := .stopping }, AList.lookup_insert _, hreq⟩
          · refine ⟨b, ?_, hreq⟩
            show (s.deploymentActors.insert id _).lookup id' = some b
            rw [AList.lookup_insert_ne he]
            exact hb
        reported := by
          intro id' b hb hpb hmem
          rw [hreports]
          rcases Dict.lookup_insert_eq_some.mp hb with ⟨rfl, -⟩ | ⟨-, hb⟩
          · exact ⟨a.plan, List.mem_append_right _ (List.mem_singleton_self _), hi.actorId _ a ha⟩
          · obtain ⟨p, hpmem, he⟩ := h.reported id' b hb hpb hmem
            exact ⟨p, List.mem_append_left _ hpmem, he⟩
        reports := by
          intro p hpmem
          rw [hreports, List.mem_append, List.mem_singleton] at hpmem
          refine (AList.mem_insert _).mpr ?_
          rcases hpmem with hpmem | rfl
          · exact .inr (h.reports p hpmem)
          · exact .inl (hi.actorId id a ha)
        stopped := fun stop hstop =>
          ⟨(AList.mem_insert _).mpr (.inr (h.stopped stop hstop).1), (h.stopped stop hstop).2⟩ }
  | advances id a ph ha hp hph hev hs' =>
    subst hs'
    have hstopping : a.phase ≠ .running := hev.resolve_left (hcrash id)
    exact
      { canceling := by
          intro id' info hl hst
          obtain ⟨b, hb, hreq⟩ := h.canceling id' info hl hst
          by_cases he : id' = id
          · subst he
            cases ha.symm.trans hb
            exact ⟨{ a with phase := ph }, AList.lookup_insert _, hreq⟩
          · refine ⟨b, ?_, hreq⟩
            show (s.deploymentActors.insert id _).lookup id' = some b
            rw [AList.lookup_insert_ne he]
            exact hb
        reported := by
          intro id' b hb hpb hmem
          rcases Dict.lookup_insert_eq_some.mp hb with ⟨rfl, -⟩ | ⟨-, hb⟩
          · exact h.reported id' a ha hstopping hmem
          · exact h.reported id' b hb hpb hmem
        reports := fun p hpmem => (AList.mem_insert _).mpr (.inr (h.reports p hpmem))
        stopped := fun stop hstop =>
          ⟨(AList.mem_insert _).mpr (.inr (h.stopped stop hstop).1), (h.stopped stop hstop).2⟩ }
  | stopDone k stop hk hs' =>
    subst hs'
    refine ⟨h.canceling, h.reported, h.reports, ?_⟩
    intro st hst
    rcases List.mem_or_eq_of_mem_set hst with hold | rfl
    · exact h.stopped st hold
    · exact h.stopped stop (List.mem_of_getElem? hk)

theorem stopping_initial (repository : Dict String Plan) : (initial repository).Stopping where
  canceling _ _ h := by simp [initial] at h
  reported _ _ h := by simp [initial] at h
  reports _ h := by simp [initial, reports] at h
  stopped _ h := by simp [initial] at h

/-! ## What is stored for the deployments -/

/-- A scheduled forced plan is about to delete its conflicts, and `id` is the plan or one
of the conflicts. -/
def Underway (s : State) (id : String) : Prop :=
  ∃ plan conflicts, s.Deleting plan conflicts ∧
    (plan.id = id ∨ ∃ info ∈ conflicts, info.plan.id = id)

structure Resumable (s : State) : Prop where
  backed : ∀ id, s.Proceeds id → s.WillBeStored id ∨ s.Underway id
  gone : ∀ id ∈ s.seen, id ∉ s.runningDeployments → ¬ s.WillBeStored id
  results : ∀ n r, s.opResults.lookup n = some r → r = true
  noFailure : ∀ plan, .failedRepositoryOperation plan ∉ s.mailbox

theorem Proceeds.of_erase {id id' : String}
    (hr : s'.runningDeployments = s.runningDeployments.erase id) (h : s'.Proceeds id') :
    s.Proceeds id' ∧ id' ≠ id := by
  obtain ⟨info, hl, hst⟩ := h
  rw [hr] at hl
  obtain ⟨hne, hl⟩ := Dict.lookup_erase_eq_some.mp hl
  exact ⟨⟨info, hl, hst⟩, hne⟩

/-- Nothing happens to what is stored and to the entries. -/
theorem Resumable.same (h : s.Resumable) (hset : ∀ id, s'.settled id = s.settled id)
    (hr : s'.runningDeployments = s.runningDeployments) (hseen : s'.seen = s.seen)
    (hd : ∀ plan conflicts, s.Deleting plan conflicts → s'.Deleting plan conflicts)
    (hres : ∀ n r, s'.opResults.lookup n = some r → r = true)
    (hm : ∀ plan, .failedRepositoryOperation plan ∉ s'.mailbox) : s'.Resumable where
  backed id hp := by
    have hp' : s.Proceeds id := by simpa only [Proceeds, hr] using hp
    refine (h.backed id hp').imp (fun hw => by rwa [WillBeStored, hset id]) ?_
    rintro ⟨plan, conflicts, hdel, hid⟩
    exact ⟨plan, conflicts, hd _ _ hdel, hid⟩
  gone id hid hnot := by
    rw [WillBeStored, hset id]
    exact h.gone id (hseen ▸ hid) (hr ▸ hnot)
  results := hres
  noFailure := hm

theorem Deleting.of_sameTokens (h : s.Deleting plan conflicts) (ht : s.tokens ⊆ s'.tokens)
    (hr : s'.runningDeployments = s.runningDeployments) : s'.Deleting plan conflicts := by
  refine ⟨ht h.1, ?_⟩
  simpa only [isScheduledDeployment, hr] using h.2

theorem noFailure_delivered (h : s.Resumable) (plan : Plan) :
    .failedRepositoryOperation plan ∉ (s.delivered k).mailbox := fun hm =>
  h.noFailure plan (List.mem_of_mem_eraseIdx hm)

theorem Resumable.starts (hi : s.Inv) (h : s.Resumable)
    (hfresh : plan.id ∉ s.seen) : (s.startNonConflictingDeployment plan).Resumable := by
  have hsubmits : s.Submits (s.startNonConflictingDeployment plan) [.store plan] :=
    ⟨rfl, rfl, rfl, rfl⟩
  have hset : ∀ id, (s.startNonConflictingDeployment plan).settled id =
      if plan.id = id then some plan else s.settled id := fun id => hsubmits.settled id
  have hdel : ∀ p ps, s.Deleting p ps → (s.startNonConflictingDeployment plan).Deleting p ps := by
    rintro p ps ⟨htok, hsch⟩
    have hne : p.id ≠ plan.id := fun he =>
      hfresh (he ▸ Dict.mem_of_lookup_eq_some (hi.tokenKnown _ htok))
    obtain ⟨info, hl, hst⟩ := isScheduledDeployment_iff.mp hsch
    refine ⟨(tokens_await _ _).symm.subset (List.mem_cons_of_mem _ htok), ?_⟩
    refine isScheduledDeployment_iff.mpr ⟨info, ?_, hst⟩
    exact (AList.lookup_insert_ne hne).trans hl
  exact
    { backed := by
        rintro id ⟨info, hl, hst⟩
        by_cases he : plan.id = id
        · refine .inl ?_
          rw [WillBeStored, hset id, if_pos he]
          exact Option.some_ne_none plan
        · have hl' : s.runningDeployments.lookup id = some info :=
            (AList.lookup_insert_ne (Ne.symm he)).symm.trans hl
          refine (h.backed id ⟨info, hl', hst⟩).imp (fun hw => ?_) ?_
          · rwa [WillBeStored, hset id, if_neg he]
          · rintro ⟨p, ps, hd, hid⟩
            exact ⟨p, ps, hdel p ps hd, hid⟩
      gone := by
        intro id hid hnot
        have hne : plan.id ≠ id := fun he => hnot ((AList.mem_insert _).mpr (.inl he.symm))
        rw [WillBeStored, hset id, if_neg hne]
        refine h.gone id (((AList.mem_insert _).mp hid).resolve_left (Ne.symm hne)) ?_
        exact fun hm => hnot ((AList.mem_insert _).mpr (.inr hm))
      results := h.results
      noFailure := h.noFailure }

theorem foldl_delete {infos : List DeploymentInfo} {id : String} (x : Option Plan) :
    (infos.map fun info => RepositoryOp.delete info.plan.id).foldl
      (fun x op => op.applyTo id x) x = if ∃ info ∈ infos, info.plan.id = id then none else x := by
  induction infos generalizing x with
  | nil => simp
  | cons info rest ih =>
    rw [List.map_cons, List.foldl_cons, ih]
    simp only [RepositoryOp.applyTo, List.exists_mem_cons_iff]
    by_cases he : info.plan.id = id <;> simp [he]

theorem Resumable.forces (hi : s.Inv) (h : s.Resumable) (hfresh : plan.id ∉ s.seen) :
    (s.startConflictingDeployment plan (s.conflictingDeployments plan)).Resumable := by
  have hsub := deleteAll_submits (s.markScheduled plan) (s.conflictingDeployments plan)
  set s' := s.startConflictingDeployment plan (s.conflictingDeployments plan) with hs'
  have hset : ∀ id, s'.settled id =
      if ∃ info ∈ s.conflictingDeployments plan, info.plan.id = id then none
      else s.settled id := by
    intro id
    have hsubmits : s.Submits s' ((s.conflictingDeployments plan).map fun info =>
        .delete info.plan.id) :=
      ⟨hsub.pendingOps, hsub.nextOp, hsub.opResults, hsub.repository⟩
    rw [hsubmits.settled, foldl_delete]
  have hparts : s'.runningDeployments = (s.markScheduled plan).runningDeployments ∧
      s'.seen = s.seen.insert plan.id plan ∧ s'.mailbox = s.mailbox ∧
      s'.asyncs = s.asyncs ++ [.startConflictingDeployment plan (s.conflictingDeployments plan)
        (List.range' s.nextOp (s.conflictingDeployments plan).length)] := by
    rw [hs', startConflictingDeployment, deleteAll_eq]
    exact ⟨rfl, rfl, rfl, rfl⟩
  obtain ⟨hrun, hseen, hmail, hasyncs⟩ := hparts
  have hkeep : ∀ p ps, (p, Stage.deleting ps) ∈ s.tokens → (p, Stage.deleting ps) ∈ s'.tokens := by
    intro p ps htok
    refine mem_tokens_deleting.mpr ((mem_tokens_deleting.mp htok).imp ?_ fun hm => hmail ▸ hm)
    rintro ⟨deletes, ha⟩
    exact ⟨deletes, by rw [hasyncs]; exact List.mem_append_left _ ha⟩
  have hdel : ∀ p ps, s.Deleting p ps → s'.Deleting p ps := by
    rintro p ps ⟨htok, hsch⟩
    have hne : p.id ≠ plan.id := fun he =>
      hfresh (he ▸ Dict.mem_of_lookup_eq_some (hi.tokenKnown _ htok))
    obtain ⟨info, hl, hst⟩ := isScheduledDeployment_iff.mp hsch
    refine ⟨hkeep p ps htok, isScheduledDeployment_iff.mpr ⟨info, ?_, hst⟩⟩
    rw [hrun]
    exact (AList.lookup_insert_ne hne).trans hl
  have hmine : s'.Deleting plan (s.conflictingDeployments plan) := by
    refine ⟨mem_tokens_deleting.mpr (.inl
      ⟨List.range' s.nextOp (s.conflictingDeployments plan).length, ?_⟩), ?_⟩
    · rw [hasyncs]
      exact List.mem_append_right _ (List.mem_singleton_self _)
    · simp only [isScheduledDeployment, hrun, markScheduled, AList.lookup_insert]
      rfl
  exact
    { backed := by
        rintro id ⟨info, hl, hst⟩
        by_cases he : plan.id = id
        · exact .inr ⟨plan, _, hmine, .inl he⟩
        · by_cases hc : ∃ info ∈ s.conflictingDeployments plan, info.plan.id = id
          · exact .inr ⟨plan, _, hmine, .inr hc⟩
          · rw [hrun] at hl
            have hl' : s.runningDeployments.lookup id = some info :=
              (AList.lookup_insert_ne (Ne.symm he)).symm.trans hl
            refine (h.backed id ⟨info, hl', hst⟩).imp (fun hw => ?_) ?_
            · rwa [WillBeStored, hset id, if_neg hc]
            · rintro ⟨p, ps, hd, hid⟩
              exact ⟨p, ps, hdel p ps hd, hid⟩
      gone := by
        intro id hid hnot hw
        rw [hrun] at hnot
        have hne : id ≠ plan.id := fun he => hnot ((AList.mem_insert _).mpr (.inl he))
        rw [WillBeStored, hset id] at hw
        split_ifs at hw
        · exact hw rfl
        · rw [hseen] at hid
          exact h.gone id (((AList.mem_insert _).mp hid).resolve_left hne)
            (fun hm => hnot ((AList.mem_insert _).mpr (.inr hm))) hw
      results := by
        rw [show s'.opResults = s.opResults from hsub.opResults]
        exact h.results
      noFailure := by
        rw [hmail]
        exact h.noFailure }

/-- A disposable scheduled deployment is dropped. -/
theorem Resumable.dropped {id : String}
    (h : s.Resumable) (hd : s.Disposable id []) : (s.dropped id info r).Resumable where
  backed id' hp := by
    obtain ⟨hp', hne⟩ := hp.of_erase rfl
    rcases h.backed id' hp' with hw | ⟨plan, conflicts, ⟨htok, hsch⟩, hid⟩
    · exact .inl hw
    · by_cases he : plan.id = id
      · -- the dropped plan itself has deleted the deployment
        rcases hid with hid | ⟨i, hmem, hid⟩
        · exact absurd (hid.symm.trans he) hne
        · rcases hd.2 _ htok he i hmem (hid ▸ hp') with hnil | hw
          · cases hnil
          · exact .inl (hid ▸ hw)
      · refine .inr ⟨plan, conflicts, ⟨htok, ?_⟩, hid⟩
        obtain ⟨cur, hl, hst⟩ := isScheduledDeployment_iff.mp hsch
        exact isScheduledDeployment_iff.mpr ⟨cur, Dict.lookup_erase_eq_some.mpr ⟨he, hl⟩, hst⟩
  gone id' hseen hnot := by
    by_cases he : id' = id
    · subst he
      exact hd.1
    · refine h.gone id' hseen fun hm => hnot ?_
      obtain ⟨cur, hl⟩ := Dict.lookup_ne_none_of_mem hm
      exact Dict.mem_of_lookup_eq_some (Dict.lookup_erase_eq_some.mpr ⟨he, hl⟩)
  results := h.results
  noFailure := h.noFailure

/-- A deployment that was not scheduled is turned to `canceling`. -/
theorem Resumable.stopped {id ref : String} (hi : s.Inv)
    (h : s.Resumable) (hl : s.runningDeployments.lookup id = some info)
    (hr : info.ref = some ref) : (s.stopped id info ref).Resumable where
  backed id' hp := by
    obtain ⟨info', hl', hst⟩ := hp
    rcases Dict.lookup_insert_eq_some.mp hl' with ⟨-, rfl⟩ | ⟨hne, hl'⟩
    · exact absurd rfl hst
    · refine (h.backed id' ⟨info', hl', hst⟩).imp (fun hw => hw) ?_
      rintro ⟨plan, conflicts, ⟨htok, hsch⟩, hid⟩
      obtain ⟨cur, hcur, hsched⟩ := isScheduledDeployment_iff.mp hsch
      have hplan : plan.id ≠ id := by
        rintro rfl
        cases hl.symm.trans hcur
        rw [(hi.runningOk _ _ hl).scheduled hsched] at hr
        cases hr
      exact ⟨plan, conflicts, ⟨htok, isScheduledDeployment_iff.mpr
        ⟨cur, (AList.lookup_insert_ne hplan).trans hcur, hsched⟩⟩, hid⟩
  gone id' hseen hnot :=
    h.gone id' hseen fun hm => hnot ((AList.mem_insert _).mpr (.inr hm))
  results := h.results
  noFailure := h.noFailure

theorem conflict_after (hi : s.Inv) (hsnap : s.SnapshotsOk) (hst : s.Stopping)
    (hk : s.mailbox[k]? = some (.cancelDeletedConflicts plan conflicts))
    (hf : (conflicts.filter fun info => info.plan.id ∈ s.runningDeployments).foldlM
      cancelConflict (s.delivered k) = some s₁)
    (hinfo : info ∈ conflicts) (hmem : info.plan.id ∈ s.runningDeployments) :
    ¬ s₁.Proceeds info.plan.id ∧
      (info.status ≠ .scheduled → info.plan.id ∈ s₁.runningDeployments) := by
  have htok : (plan, Stage.deleting conflicts) ∈ s.tokens :=
    (tokens_deliver hk).symm.subset List.mem_cons_self
  have hknown : info ∈ conflicts.filter fun info => info.plan.id ∈ s.runningDeployments :=
    List.mem_filter.mpr ⟨hinfo, by simpa using hmem⟩
  obtain ⟨t, t', hl, hc, hl'⟩ := foldlM_cancelConflict_lookup hf
    (known_conflicts hsnap htok).1 hknown
  have hin : info.plan.id ∈ t.runningDeployments := by
    rw [← AList.lookup_isSome, hl]
    exact AList.lookup_isSome.mpr hmem
  rcases cancelConflict_cases hc hin with ⟨hs, cur, r, -, -, rfl⟩ | ⟨hs, cur, ref, -, -, rfl⟩ |
    ⟨hs, rfl⟩
  · have hnone : s₁.runningDeployments.lookup info.plan.id = none := by
      rw [hl']
      exact AList.lookup_erase _ _
    refine ⟨?_, fun hne => absurd hs hne⟩
    rintro ⟨cur', hcur, -⟩
    rw [hnone] at hcur
    cases hcur
  · have hsome : s₁.runningDeployments.lookup info.plan.id =
        some { cur with status := .canceling, cancel := some t.stopActors.length } := by
      rw [hl']
      exact AList.lookup_insert _
    refine ⟨?_, fun _ => Dict.mem_of_lookup_eq_some hsome⟩
    rintro ⟨cur', hcur, hne⟩
    rw [hsome] at hcur
    cases hcur
    exact hne rfl
  · have hsame : s₁.runningDeployments.lookup info.plan.id =
        s.runningDeployments.lookup info.plan.id := hl'.trans hl
    refine ⟨?_, fun _ => ?_⟩
    · rintro ⟨cur', hcur, hne⟩
      obtain ⟨j, -, stop, hstop, hto⟩ := (hi.snapshotOk _ htok info hinfo).canceled hs
      rw [hsame, ← hto] at hcur
      exact hne ((hst.stopped stop (List.mem_of_getElem? hstop)).2 cur' hcur)
    · rw [← AList.lookup_isSome, hsame]
      exact AList.lookup_isSome.mpr hmem

theorem Resumable.cancelsConflicts (hi : s.Inv) (hsnap : s.SnapshotsOk) (hst : s.Stopping)
    (h : s.Resumable) (hk : s.mailbox[k]? = some (.cancelDeletedConflicts plan conflicts))
    (hsch : s.isScheduledDeployment plan.id)
    (hf : (conflicts.filter fun info => info.plan.id ∈ s.runningDeployments).foldlM
      State.cancelConflict (s.delivered k) = some s₁)
    (hok : s.DropsDisposable (.cancelDeletedConflicts plan conflicts)) :
    (s₁.storing plan conflicts).Resumable := by
  have hsame := foldlM_cancelConflict_sameStore hf
  have hcan := foldlM_cancelConflict_cancels hf
  have hperm : s.tokens.Perm ((plan, .deleting conflicts) :: (s.delivered k).tokens) :=
    tokens_deliver hk
  have htok : (plan, Stage.deleting conflicts) ∈ s.tokens :=
    hperm.symm.subset List.mem_cons_self
  have hset : ∀ id, (s₁.storing plan conflicts).settled id =
      if plan.id = id then some plan else s.settled id := fun id =>
    (storing_submits hsame).settled id
  -- the entries of all other plans are as before
  have hother : ∀ id, (∀ info ∈ conflicts, info.plan.id ≠ id) →
      s₁.runningDeployments.lookup id = s.runningDeployments.lookup id := fun id hne =>
    foldlM_cancelConflict_lookup_ne (s := s.delivered k) hf fun info hinfo =>
      hne info (List.mem_filter.mp hinfo).1
  have hold : ∀ id, s₁.Proceeds id → s.Proceeds id ∧ ∀ info ∈ conflicts, info.plan.id ≠ id := by
    rintro id ⟨info', hl', hne⟩
    obtain ⟨info, hl, rfl | ⟨_, _, _, _, _, hcanc, _, _⟩⟩ := hcan.running id info' hl'
    · refine ⟨⟨info', hl, hne⟩, ?_⟩
      rintro c hc rfl
      have hmem : c.plan.id ∈ s.runningDeployments := Dict.mem_of_lookup_eq_some hl
      exact (conflict_after hi hsnap hst hk hf hc hmem).1 ⟨info', hl', hne⟩
    · exact absurd hcanc hne
  have hmine : plan.id ∈ s₁.runningDeployments := by
    rw [← AList.lookup_isSome, hother plan.id (hsnap.other _ htok), AList.lookup_isSome]
    obtain ⟨info, hl, -⟩ := isScheduledDeployment_iff.mp hsch
    exact Dict.mem_of_lookup_eq_some hl
  exact
    { backed := by
        intro id hp
        obtain ⟨hps, hnot⟩ := hold id hp
        by_cases he : plan.id = id
        · refine .inl ?_
          rw [WillBeStored, hset id, if_pos he]
          exact Option.some_ne_none plan
        · rw [WillBeStored, hset id, if_neg he]
          rcases h.backed id hps with hw | ⟨p, ps, ⟨hptok, hpsch⟩, hid⟩
          · exact .inl hw
          · by_cases hpe : p.id = plan.id
            · -- this plan itself: its conflicts proceed no longer
              have heq := token_eq_of_id_eq hi hptok htok hpe
              obtain ⟨rfl, hstage⟩ := Prod.mk.inj heq
              cases hstage
              rcases hid with hid | ⟨i, hmem, hid⟩
              · exact absurd hid he
              · exact absurd hid (hnot i hmem)
            · by_cases hpc : ∃ c ∈ conflicts, c.plan.id = p.id
              · -- a conflict that has deleted the deployment is dropped
                obtain ⟨c, hc, hcid⟩ := hpc
                obtain ⟨cur, hcur, -⟩ := isScheduledDeployment_iff.mp hpsch
                have hcs : c.status = .scheduled := by
                  by_contra hne
                  exact hi.tokenFresh _ hptok
                    (hcid ▸ ((hi.snapshotOk _ htok c hc).launched hne).2)
                have hdisp := hok hsch c hc hcs
                  (by rw [hcid]; exact Dict.mem_of_lookup_eq_some hcur)
                rcases hid with hid | ⟨i, hmem, hid⟩
                · exact absurd (hcid.trans hid) (hnot c hc)
                · rcases hdisp.2 _ hptok hcid.symm i hmem (hid ▸ hps) with hin | hw
                  · obtain ⟨d, hd, hde⟩ := List.mem_map.mp hin
                    exact absurd (hde.trans hid) (hnot d hd)
                  · exact .inl (hid ▸ hw)
              · refine .inr ⟨p, ps, ⟨?_, ?_⟩, hid⟩
                · have hrest : (p, Stage.deleting ps) ∈ (s.delivered k).tokens := by
                    refine (List.mem_cons.mp (hperm.subset hptok)).resolve_left fun heq => ?_
                    exact hpe (congrArg (fun t : Token => t.1.id) heq)
                  refine (tokens_await _ _).symm.subset (List.mem_cons_of_mem _ ?_)
                  show (p, Stage.deleting ps) ∈ s₁.tokens
                  rw [hcan.tokens]
                  exact hrest
                · have hl := hother p.id fun c hc hce => hpc ⟨c, hc, hce⟩
                  show s₁.isScheduledDeployment p.id = true
                  rw [isScheduledDeployment, hl]
                  exact hpsch
      gone := by
        intro id hid hnot
        have hseen : id ∈ s.seen := by
          have hid' : id ∈ s₁.seen := hid
          rw [hcan.seen] at hid'
          exact hid'
        have hne : plan.id ≠ id := by
          rintro rfl
          exact hnot hmine
        rw [WillBeStored, hset id, if_neg hne]
        by_cases hmem : id ∈ s.runningDeployments
        · by_cases hc : ∃ c ∈ conflicts, c.plan.id = id
          · obtain ⟨c, hc, rfl⟩ := hc
            have hcs : c.status = .scheduled := by
              by_contra hns
              exact hnot ((conflict_after hi hsnap hst hk hf hc hmem).2 hns)
            exact (hok hsch c hc hcs hmem).1
          · refine absurd ?_ hnot
            show id ∈ s₁.runningDeployments
            rw [← AList.lookup_isSome, hother id fun c hce he => hc ⟨c, hce, he⟩]
            exact AList.lookup_isSome.mpr hmem
        · exact h.gone id hseen hmem
      results := by
        intro n r hr
        refine h.results n r ?_
        have hr' : s₁.opResults.lookup n = some r := hr
        rw [hsame.opResults] at hr'
        exact hr'
      noFailure := by
        intro p hm
        have hm' : .failedRepositoryOperation p ∈ s₁.mailbox := hm
        rw [hsame.mailbox] at hm'
        exact noFailure_delivered h p hm' }

theorem Resumable.launches
    (hi : s.Inv) (h : s.Resumable) (hk : s.mailbox[k]? = some (.launchDeployment plan))
    (hl : s.runningDeployments.lookup plan.id = some info) (hst : info.status = .scheduled) :
    ((s.delivered k).launched plan info).Resumable := by
  have hperm : s.tokens.Perm ((plan, .launching) :: (s.delivered k).tokens) := tokens_deliver hk
  have htok : (plan, Stage.launching) ∈ s.tokens := hperm.symm.subset List.mem_cons_self
  have hdel : ∀ p ps, s.Deleting p ps → ((s.delivered k).launched plan info).Deleting p ps := by
    rintro p ps ⟨hptok, hpsch⟩
    have hne : p.id ≠ plan.id := by
      intro he
      cases token_eq_of_id_eq hi hptok htok he
    refine ⟨?_, ?_⟩
    · refine (List.mem_cons.mp (hperm.subset hptok)).resolve_left fun heq => ?_
      exact hne (congrArg (fun t : Token => t.1.id) heq)
    · obtain ⟨cur, hcur, hs⟩ := isScheduledDeployment_iff.mp hpsch
      exact isScheduledDeployment_iff.mpr ⟨cur, (AList.lookup_insert_ne hne).trans hcur, hs⟩
  exact
    { backed := by
        rintro id ⟨info', hl', hne⟩
        have hp : s.Proceeds id := by
          rcases Dict.lookup_insert_eq_some.mp hl' with ⟨rfl, -⟩ | ⟨-, hl'⟩
          · exact ⟨info, hl, by simp [hst]⟩
          · exact ⟨info', hl', hne⟩
        refine (h.backed id hp).imp (fun hw => hw) ?_
        rintro ⟨p, ps, hd, hid⟩
        exact ⟨p, ps, hdel p ps hd, hid⟩
      gone := fun id hid hnot => h.gone id hid fun hm => hnot ((AList.mem_insert _).mpr (.inr hm))
      results := h.results
      noFailure := noFailure_delivered h }

theorem Resumable.finishes (hi : s.Inv) (hst : s.Stopping) (h : s.Resumable)
    (hk : s.mailbox[k]? = some (.deploymentFinished plan r)) :
    (((s.delivered k).dropped plan.id info r).submit (.delete plan.id)).Resumable := by
  have hsubmits : s.Submits (((s.delivered k).dropped plan.id info r).submit (.delete plan.id))
      [.delete plan.id] := ⟨rfl, rfl, rfl, rfl⟩
  have hset : ∀ id, (((s.delivered k).dropped plan.id info r).submit (.delete plan.id)).settled id =
      if plan.id = id then none else s.settled id := fun id => hsubmits.settled id
  have hactor : plan.id ∈ s.deploymentActors :=
    hst.reports plan ((reports_deliver (p := plan) hk rfl).symm.subset List.mem_cons_self)
  exact
    { backed := by
        intro id hp
        obtain ⟨hps, hne⟩ := hp.of_erase rfl
        rw [WillBeStored, hset id, if_neg (Ne.symm hne)]
        refine (h.backed id hps).imp (fun hw => hw) ?_
        rintro ⟨p, ps, ⟨htok, hsch⟩, hid⟩
        have hpne : p.id ≠ plan.id := by
          intro he
          exact hi.tokenFresh _ htok (he ▸ hactor)
        obtain ⟨cur, hcur, hs⟩ := isScheduledDeployment_iff.mp hsch
        refine ⟨p, ps, ⟨?_, isScheduledDeployment_iff.mpr
          ⟨cur, Dict.lookup_erase_eq_some.mpr ⟨hpne, hcur⟩, hs⟩⟩, hid⟩
        exact (tokens_deliver hk).subset htok
      gone := by
        intro id hid hnot
        rw [WillBeStored, hset id]
        split_ifs with he
        · exact fun hn => hn rfl
        · refine h.gone id hid fun hm => hnot ?_
          obtain ⟨cur, hl⟩ := Dict.lookup_ne_none_of_mem hm
          exact Dict.mem_of_lookup_eq_some (Dict.lookup_erase_eq_some.mpr ⟨Ne.symm he, hl⟩)
      results := h.results
      noFailure := noFailure_delivered h }

theorem sequence_ne_false {l : List (Option Bool)} (h : ∀ x ∈ l, x ≠ some false) :
    sequence l ≠ some false := by
  induction l with
  | nil => simp [sequence]
  | cons x rest ih =>
    have hx := h x List.mem_cons_self
    have hrest := ih fun y hy => h y (List.mem_cons_of_mem _ hy)
    cases x with
    | none => simp [sequence]
    | some b =>
      cases b with
      | false => exact absurd rfl hx
      | true => simpa [sequence] using hrest

theorem continueAsync_of_results {a : Async} {rs : List Reply} {m : Msg}
    (hres : ∀ n r, s.opResults.lookup n = some r → r = true)
    (h : s.continueAsync a = some (rs, m)) :
    (∀ plan, m ≠ .failedRepositoryOperation plan) ∧
      ∀ plan conflicts deletes, a = .startConflictingDeployment plan conflicts deletes →
        m = .cancelDeletedConflicts plan conflicts := by
  have hres' : ∀ n, s.opResult n ≠ some false := fun n hn => by
    cases hres n false hn
  cases a with
  | startNonConflictingDeployment p store =>
    obtain ⟨ok, hok, he⟩ := Option.map_eq_some_iff.mp h
    cases ok with
    | false => exact absurd hok (hres' store)
    | true =>
      cases he
      exact ⟨fun _ => by simp, fun _ _ _ he => by cases he⟩
  | startConflictingDeployment p cs deletes =>
    obtain ⟨ok, hok, he⟩ := Option.map_eq_some_iff.mp h
    cases ok with
    | false =>
      refine absurd hok (sequence_ne_false fun x hx => ?_)
      obtain ⟨n, -, rfl⟩ := List.mem_map.mp hx
      exact hres' n
    | true =>
      cases he
      refine ⟨fun _ => by simp, fun _ _ _ he => ?_⟩
      cases he
      rfl
  | cancelDeletedConflicts p cs store =>
    obtain ⟨ok, hok, he⟩ := Option.map_eq_some_iff.mp h
    cases ok with
    | false => exact absurd hok (hres' store)
    | true =>
      cases he
      exact ⟨fun _ => by simp, fun _ _ _ he => by cases he⟩
  | waitForCanceledConflicts p cs =>
    simp only [continueAsync] at h
    split at h
    · cases h
      exact ⟨fun _ => by simp, fun _ _ _ he => by cases he⟩
    · cases h

theorem Resumable.resumes {a : Async} {rs : List Reply} {m : Msg}
    (h : s.Resumable) (hk : s.asyncs[k]? = some a) (hc : s.continueAsync a = some (rs, m)) :
    (s.resumed k rs m).Resumable := by
  obtain ⟨hfail, hsent⟩ := continueAsync_of_results h.results hc
  refine h.same (fun _ => rfl) rfl rfl ?_ h.results ?_
  · rintro p ps ⟨htok, hsch⟩
    refine ⟨mem_tokens_deleting.mpr ?_, hsch⟩
    rcases mem_tokens_deleting.mp htok with ⟨deletes, ha⟩ | hm
    · obtain ⟨hlt, hget⟩ := List.getElem?_eq_some_iff.mp hk
      have hcons := (List.getElem_cons_eraseIdx_perm hlt).symm.subset ha
      rw [hget] at hcons
      rcases List.mem_cons.mp hcons with he | hrest
      · refine .inr (List.mem_append_right _ ?_)
        rw [hsent p ps deletes he.symm]
        exact List.mem_singleton_self _
      · exact .inl ⟨deletes, hrest⟩
    · exact .inr (List.mem_append_left _ hm)
  · intro p hm
    rcases List.mem_append.mp hm with hm | hm
    · exact h.noFailure p hm
    · exact hfail p (List.mem_singleton.mp hm).symm

theorem resumable_step {e : Event} (hi : s.Inv) (hsnap : s.SnapshotsOk)
    (hst : s.Stopping) (h : s.Resumable) (hok : s.LosesNothing e) (ha : Act s e s') :
    s'.Resumable := by
  cases ha with
  | starts plan force hfresh hc => exact h.starts hi hfresh
  | forces plan hfresh => exact h.forces hi hfresh
  | givesUp plan =>
    exact h.same (fun _ => rfl) rfl rfl (fun _ _ hd => hd) h.results h.noFailure
  | cancelsScheduled plan info r hl hs =>
    exact h.dropped (hok (isScheduledDeployment_iff.mpr ⟨info, hl, hs⟩))
  | cancelsDeploying plan info ref hl hr => exact h.stopped hi hl hr
  | ignores plan => exact h
  | unhandled k m t hk hm hsch =>
    refine h.same (fun _ => rfl) rfl rfl ?_ h.results (noFailure_delivered h)
    rintro p ps ⟨htok, hps⟩
    have hperm := tokens_deliver hk
    rw [hm] at hperm
    refine ⟨(List.mem_cons.mp (hperm.subset htok)).resolve_left ?_, hps⟩
    rintro rfl
    rw [hsch] at hps
    cases hps
  | fails k plan info r hk hl hs => exact absurd (List.mem_of_getElem? hk) (h.noFailure plan)
  | cancelsConflicts k plan conflicts s₁ hk hsch hf =>
    exact h.cancelsConflicts hi hsnap hst hk hsch hf (hok _ hk)
  | waits k plan conflicts hk =>
    refine h.same (fun _ => rfl) rfl rfl ?_ h.results (noFailure_delivered h)
    rintro p ps ⟨htok, hps⟩
    refine ⟨(tokens_await _ _).symm.subset (List.mem_cons_of_mem _ ?_), hps⟩
    refine (List.mem_cons.mp ((tokens_deliver hk).subset htok)).resolve_left fun he => ?_
    cases he
  | launches k plan info hk hl hs hplan hfresh => exact h.launches hi hk hl hs
  | finishes k plan r info hk hl => exact h.finishes hi hst hk
  | finishesGone k plan r hk hl =>
    refine h.same (fun _ => rfl) rfl rfl ?_ h.results (noFailure_delivered h)
    exact fun p ps hd => hd.of_sameTokens (fun t ht => (tokens_deliver hk).subset ht) rfl
  | completes k n action ok hk hfirst =>
    obtain rfl : ok = true := hok
    refine h.same (settled_completed hk hfirst) rfl rfl (fun _ _ hd => hd) ?_ h.noFailure
    intro m r hr
    rcases Dict.lookup_insert_eq_some.mp hr with ⟨-, rfl⟩ | ⟨-, hr⟩
    · rfl
    · exact h.results m r hr
  | resumes k a replies m hk hc => exact h.resumes hk hc
  | reports _ id a r ha hp =>
    refine h.same (fun _ => rfl) rfl rfl ?_ h.results ?_
    · intro p ps hd
      refine hd.of_sameTokens (fun t ht => ?_) rfl
      rw [tokens_send]
      exact List.mem_append_left _ ht
    · intro p hm
      rcases List.mem_append.mp hm with hm | hm
      · exact h.noFailure p hm
      · cases List.mem_singleton.mp hm
  | crashes id a ha hp => exact False.elim hok
  | terminates id a ha hp =>
    exact h.same (fun _ => rfl) rfl rfl (fun _ _ hd => hd) h.results h.noFailure
  | stopDone k stop hk =>
    exact h.same (fun _ => rfl) rfl rfl (fun _ _ hd => hd) h.results h.noFailure

theorem resumable_initial (repository : Dict String Plan) : (initial repository).Resumable where
  backed id h := by
    obtain ⟨info, hl, -⟩ := h
    simp [initial] at hl
  gone id h := by simp [initial] at h
  results n r h := by simp [initial] at h
  noFailure _ h := by simp [initial] at h

theorem Quiescent.not_underway (hq : s.Quiescent) (ho : s.OpsOk) (h : s.Resumable)
    (id : String) : ¬ s.Underway id := by
  rintro ⟨plan, conflicts, ⟨htok, -⟩, -⟩
  rcases mem_tokens_deleting.mp htok with ⟨deletes, ha⟩ | hm
  · have hall : sequence (deletes.map s.opResult) = some true := by
      refine sequence_eq_true.mpr fun x hx => ?_
      obtain ⟨n, hn, rfl⟩ := List.mem_map.mp hx
      rcases ho.awaited _ ha n hn with hpend | ⟨r, hr⟩
      · rw [opNumbers, hq.operations] at hpend
        cases hpend
      · rw [opResult, hr, h.results n r hr]
    have hnone := hq.futures _ ha
    simp [continueAsync, hall] at hnone
  · rw [hq.mailbox] at hm
    cases hm

theorem Resumable.mem_repository_iff (h : s.Resumable) (hst : s.Stopping)
    (ho : s.OpsOk) (hq : s.Quiescent) (id : String) :
    id ∈ s.repository ↔ id ∈ s.runningDeployments := by
  have hset : s.settled id = s.repository.lookup id := by
    rw [settled, hq.operations]
    rfl
  constructor
  · intro hmem
    by_contra hnot
    refine h.gone id (hq.recovered id hmem) hnot ?_
    rw [WillBeStored, hset]
    exact fun hn => AList.lookup_eq_none.mp hn hmem
  · intro hmem
    obtain ⟨info, hl⟩ := Dict.lookup_ne_none_of_mem hmem
    by_cases hcan : info.status = .canceling
    · -- the child has handled its `Cancel`, and its report as well
      obtain ⟨a, ha, hreq⟩ := hst.canceling id info hl hcan
      obtain ⟨p, hp, -⟩ := hst.reported id a ha (hq.cancels id a ha hreq) hmem
      rw [reports, hq.mailbox] at hp
      cases hp
    · rcases h.backed id ⟨info, hl, hcan⟩ with hw | hu
      · rw [WillBeStored, hset] at hw
        by_contra hnot
        exact hw (AList.lookup_eq_none.mpr hnot)
      · exact absurd hu (hq.not_underway ho h id)

instance (s : State) : Decidable s.Quiescent :=
  decidable_of_iff (s.mailbox = [] ∧ s.pendingOps = [] ∧
      (∀ a ∈ s.asyncs, (s.continueAsync a).isNone) ∧
      (∀ x ∈ s.deploymentActors.entries, x.2.cancelRequested → x.2.phase ≠ .running) ∧
      ∀ id ∈ s.repository.keys, id ∈ s.seen)
    ⟨fun ⟨h₁, h₂, h₃, h₄, h₅⟩ =>
      ⟨h₁, h₂, fun a ha => Option.isNone_iff_eq_none.mp (h₃ a ha),
        Dict.forall_lookup_iff.mpr h₄, h₅⟩,
      fun h => ⟨h.mailbox, h.operations,
        fun a ha => Option.isNone_iff_eq_none.mpr (h.futures a ha),
        Dict.forall_lookup_iff.mp h.cancels, h.recovered⟩⟩

end State

/-- In every run that loses nothing, whenever nothing is pending the stored plans are those
of the running deployments. -/
theorem mem_repository_iff_of_losesNothing {s : State}
    (h : manager.ReachableIf State.LosesNothing s) (hq : s.Quiescent) (id : String) :
    id ∈ s.repository ↔ id ∈ s.runningDeployments := by
  have hcrash : ∀ (s : State) e, s.LosesNothing e → ∀ id, e ≠ .actorCrashed id := by
    rintro s e hok id rfl
    exact hok
  have hst : ∀ s, manager.ReachableIf State.LosesNothing s → s.Stopping := fun s hr =>
    hr.invariant_of (I := fun s => s.Inv ∧ s.SnapshotsOk) (J := State.Stopping)
      (fun _ hr => ⟨inv_of_reachable hr.reachable, snapshotsOk_of_reachable hr.reachable⟩)
      (by rintro s ⟨repository, rfl⟩; exact State.stopping_initial repository)
      fun s e _ hi hj hok hs =>
        State.stopping_step hi.1 hi.2 hj (hcrash s e hok) (State.step_books hi.1 hs)
  have hres : s.Resumable := h.invariant_of
    (I := fun s => (s.Inv ∧ s.SnapshotsOk) ∧ s.Stopping) (J := State.Resumable)
    (fun s hr => ⟨⟨inv_of_reachable hr.reachable, snapshotsOk_of_reachable hr.reachable⟩, hst s hr⟩)
    (by rintro s ⟨repository, rfl⟩; exact State.resumable_initial repository)
    fun _ _ _ hi hj hok hs =>
      State.resumable_step hi.1.1 hi.1.2 hi.2 hj hok (State.step_act hi.1.1 hs)
  exact hres.mem_repository_iff (hst s h) (opsOk_of_reachable h.reachable) hq id

/-- The forced deployment has replaced the first one, which was cancelled before. -/
theorem awaitingRun_stored :
    ∃ s, manager.run (State.initial ∅) (awaitingRun ++ [.deliver 0, .completeOp 0 true]) = some s ∧
      "forced" ∈ s.repository ∧ ∀ id, id ∈ s.repository ↔ id ∈ s.runningDeployments := by
  have hif : ((manager.runIf State.LosesNothing (State.initial ∅)
      (awaitingRun ++ [.deliver 0, .completeOp 0 true])).map fun s =>
        (decide s.Quiescent, decide ("forced" ∈ s.repository))) = some (true, true) := by
    decide
  obtain ⟨s, hrun, hs⟩ := Option.map_eq_some_iff.mp hif
  obtain ⟨hq, hmem⟩ := Prod.mk.inj hs
  exact ⟨s, Machine.run_of_runIf hrun, of_decide_eq_true hmem,
    mem_repository_iff_of_losesNothing (Machine.reachableIf_of_runIf _ (.init ⟨∅, rfl⟩) hrun)
      (of_decide_eq_true hq)⟩

/-! ## A run that leaves a cancelled plan behind -/

/-- The plan is cancelled while its `store` is pending, and stored. -/
def cancelledRun : List Event :=
  [.startDeployment overtakenPlan false, .cancelDeployment overtakenPlan, .completeOp 0 true,
    .resume 0, .deliver 0]

theorem cancelledRun_stored :
    (manager.runIf (fun _ e => State.Succeeds e) (State.initial ∅) cancelledRun).map (fun s =>
      (decide s.Quiescent, decide ("overtaken" ∈ s.repository),
        decide ("overtaken" ∈ s.runningDeployments))) = some (true, true, false) := by
  decide

/-- Also where all operations succeed, a cancelled plan may stay in the repository. -/
theorem not_forall_reachable_mem_repository_iff :
    ¬ ∀ s, manager.ReachableIf (fun _ e => State.Succeeds e) s → s.Quiescent →
      ∀ id, id ∈ s.repository ↔ id ∈ s.runningDeployments := by
  intro h
  obtain ⟨s, hrun, hs⟩ := Option.map_eq_some_iff.mp cancelledRun_stored
  have hr : manager.ReachableIf (fun _ e => State.Succeeds e) s :=
    Machine.reachableIf_of_runIf _ (.init ⟨∅, rfl⟩) hrun
  obtain ⟨hq, hrest⟩ := Prod.mk.inj hs
  obtain ⟨hstored, hrunning⟩ := Prod.mk.inj hrest
  exact of_decide_eq_false hrunning
    ((h s hr (of_decide_eq_true hq) "overtaken").mp (of_decide_eq_true hstored))

end Marathon.Deployment
