import Marathon.Deployment.ManagerBooks

/-!
# Orphaned deployments

`cancelDeletedConflicts` decides by the snapshot which of its conflicts have a
child to stop. A conflict that was `scheduled` when the snapshot was taken and
has been launched since is dropped like one that was never started: its child
goes on without an entry, and the `DeploymentFinished` of that child decrements
the gauge a second time.
-/

namespace Marathon.Deployment

open Marathon.Lib

variable {s s' : State} {id id' ref : String} {info : DeploymentInfo} {r : PromiseResult}
  {p plan : Plan} {ph : ActorPhase} {a : DeploymentActor}

namespace State

/-- The child has an entry by which it can be found. -/
def Launched (s : State) (id : String) : Prop :=
  ∃ info, s.runningDeployments.lookup id = some info ∧ info.status ≠ .scheduled

/-- Some `StopActor` has been spawned for the child. -/
def HandedOver (s : State) (id : String) : Prop := ∃ stop ∈ s.stopActors, stop.toStop = id

instance (s : State) (id : String) : Decidable (s.HandedOver id) :=
  inferInstanceAs (Decidable (∃ stop ∈ s.stopActors, stop.toStop = id))

/-- Every child that has neither terminated nor been handed to a `StopActor` is the
`ref` of an entry in status `deploying`. -/
def NoOrphan (s : State) : Prop :=
  ∀ id, s.Live id → ¬ s.HandedOver id → ∃ info,
    s.runningDeployments.lookup id = some info ∧ info.ref = some id ∧ info.status = .deploying

/-- The gauge shows the number of entries. -/
def GaugeExact (s : State) : Prop :=
  s.runningDeploymentsMetric = (Dict.size s.runningDeployments : ℤ)

structure Bookkeeping (s : State) : Prop where
  noOrphan : s.NoOrphan
  gauge : s.GaugeExact
  promises : s.PromisesOpen
  settles : ∀ e s', s.step e = some s' → s.Settles s'
  once : ∀ k < s.mailbox.length, s.step (.deliver k) ≠ none

/-- The condition on a `CancelDeletedConflicts`: what was `scheduled` in the snapshot
is still scheduled or gone. -/
def SnapshotUnlaunched (s : State) : Msg → Prop
  | .cancelDeletedConflicts plan conflicts => s.isScheduledDeployment plan.id →
    ∀ info ∈ conflicts, info.status = .scheduled → info.plan.id ∈ s.runningDeployments →
      s.isScheduledDeployment info.plan.id
  | _ => True

/-- The condition on a `DeploymentFinished`: the child that sent it has terminated by
now, or is being stopped. -/
def ReportedLast (s : State) : Msg → Prop
  | .deploymentFinished plan _ => s.Live plan.id → s.HandedOver plan.id
  | _ => True

/-- The steps on which no launched conflict is dropped. -/
def DropsUnlaunched (s : State) : Event → Prop
  | .deliver k => ∀ m ∈ s.mailbox[k]?, s.SnapshotUnlaunched m
  | _ => True

/-- The steps on which, besides, no child is forgotten before it has terminated. -/
def ForgetsNoChild (s : State) : Event → Prop
  | .deliver k => ∀ m ∈ s.mailbox[k]?, s.SnapshotUnlaunched m ∧ s.ReportedLast m
  | _ => True

instance (s : State) : (m : Msg) → Decidable (s.SnapshotUnlaunched m)
  | .cancelDeletedConflicts plan conflicts =>
    inferInstanceAs (Decidable (s.isScheduledDeployment plan.id →
      ∀ info ∈ conflicts, info.status = .scheduled → info.plan.id ∈ s.runningDeployments →
        s.isScheduledDeployment info.plan.id))
  | .deploymentFinished _ _ | .launchDeployment _ | .failedRepositoryOperation _
  | .waitForCanceledConflicts _ _ => isTrue trivial

instance (s : State) : (m : Msg) → Decidable (s.ReportedLast m)
  | .deploymentFinished plan _ =>
    inferInstanceAs (Decidable (s.Live plan.id → s.HandedOver plan.id))
  | .cancelDeletedConflicts _ _ | .launchDeployment _ | .failedRepositoryOperation _
  | .waitForCanceledConflicts _ _ => isTrue trivial

instance (s : State) : (e : Event) → Decidable (s.ForgetsNoChild e)
  | .deliver k =>
    inferInstanceAs (Decidable (∀ m ∈ s.mailbox[k]?, s.SnapshotUnlaunched m ∧ s.ReportedLast m))
  | .startDeployment _ _ | .cancelDeployment _ | .completeOp _ _ | .resume _ | .actorDone _ _
  | .actorCancelled _ | .actorCrashed _ | .actorTerminated _ | .stopActorTerminated _ =>
    isTrue trivial

theorem ForgetsNoChild.dropsUnlaunched {e : Event} (h : s.ForgetsNoChild e) :
    s.DropsUnlaunched e := by
  cases e with
  | deliver k => exact fun m hm => (h m hm).1
  | _ => trivial

/-! ## The gauge and the children at work -/

structure Books (s : State) : Prop where
  gauge : s.GaugeExact
  working : ∀ id a, s.deploymentActors.lookup id = some a → a.phase = .running → s.Launched id
  reported : ∀ p ∈ s.reports, s.Launched p.id ∧
    ∃ a, s.deploymentActors.lookup p.id = some a ∧ a.phase ≠ .running
  reportsNodup : (s.reports.map Plan.id).Nodup

theorem SameBooks.launched (h : s.SameBooks s') (hl : s.Launched id) : s'.Launched id := by
  rw [Launched, h.running]
  exact hl

theorem Books.same (hb : s.Books) (h : s.SameBooks s') : s'.Books where
  gauge := by
    rw [GaugeExact, h.metric, h.running]
    exact hb.gauge
  working id a ha hp := h.launched (hb.working id a (h.actors ▸ ha) hp)
  reported p hp := by
    obtain ⟨hl, hph⟩ := hb.reported p (h.reports ▸ hp)
    exact ⟨h.launched hl, by rw [h.actors]; exact hph⟩
  reportsNodup := by
    rw [h.reports]
    exact hb.reportsNodup

theorem Launched.ne_of_scheduled
    (h : s.Launched id') (hl : s.runningDeployments.lookup id = some info)
    (hst : info.status = .scheduled) : id' ≠ id := by
  rintro rfl
  obtain ⟨info', hl', hne⟩ := h
  cases hl.symm.trans hl'
  exact hne hst

theorem Launched.erase (h : s.Launched id') (hne : id' ≠ id)
    (hr : s'.runningDeployments = s.runningDeployments.erase id) : s'.Launched id' := by
  obtain ⟨info, hl, hst⟩ := h
  exact ⟨info, by rw [hr]; exact Dict.lookup_erase_eq_some.mpr ⟨hne, hl⟩, hst⟩

theorem Launched.insert (h : s.Launched id') (hst : info.status ≠ .scheduled)
    (hr : s'.runningDeployments = s.runningDeployments.insert id info) : s'.Launched id' := by
  by_cases he : id' = id
  · subst he
    exact ⟨info, by rw [hr]; exact AList.lookup_insert _, hst⟩
  · obtain ⟨info', hl, hst'⟩ := h
    exact ⟨info', by rw [hr, AList.lookup_insert_ne he]; exact hl, hst'⟩

theorem GaugeExact.dropped (h : s.GaugeExact) (hl : s.runningDeployments.lookup id = some info) :
    (s.dropped id info r).GaugeExact := by
  have hsize := Dict.size_erase_of_mem (Dict.mem_of_lookup_eq_some hl)
  show s.runningDeploymentsMetric - 1 = (Dict.size (s.runningDeployments.erase id) : ℤ)
  rw [h, ← hsize]
  omega

theorem Books.dropped (hb : s.Books) (hl : s.runningDeployments.lookup id = some info)
    (hst : info.status = .scheduled) : (s.dropped id info r).Books where
  gauge := hb.gauge.dropped hl
  working id' a ha hp := by
    have hlaunched := hb.working id' a ha hp
    exact hlaunched.erase (hlaunched.ne_of_scheduled hl hst) rfl
  reported p hp := by
    obtain ⟨hlaunched, hph⟩ := hb.reported p hp
    exact ⟨hlaunched.erase (hlaunched.ne_of_scheduled hl hst) rfl, hph⟩
  reportsNodup := hb.reportsNodup

theorem stopped_lookup
    : (s.stopped id info ref).child id' = some (p, ph) ↔
      s.child id' = some (p, ph) := by
  show (s.stopActor ref).1.child id' = some (p, ph) ↔ _
  rw [stopActor_child]

theorem Books.stopped (hb : s.Books)
    (hl : s.runningDeployments.lookup id = some info) : (s.stopped id info ref).Books where
  gauge := by
    show s.runningDeploymentsMetric = (Dict.size (s.runningDeployments.insert id _) : ℤ)
    rw [Dict.size_insert_of_mem (Dict.mem_of_lookup_eq_some hl)]
    exact hb.gauge
  working id' a ha hp := by
    obtain ⟨a', ha', -, hp'⟩ := child_eq_some.mp
      (stopped_lookup.mp (child_eq_some.mpr ⟨a, ha, rfl, rfl⟩))
    exact (hb.working id' a' ha' (hp'.trans hp)).insert (by simp) rfl
  reported p hp := by
    obtain ⟨hlaunched, a, ha, hph⟩ := hb.reported p hp
    have hchild : (s.stopped id info ref).child p.id = some (a.plan, a.phase) :=
      stopped_lookup.mpr (child_eq_some.mpr ⟨a, ha, rfl, rfl⟩)
    obtain ⟨a', ha', -, hp'⟩ := child_eq_some.mp hchild
    exact ⟨hlaunched.insert (by simp) rfl, a', ha', by rw [hp']; exact hph⟩
  reportsNodup := hb.reportsNodup

theorem cancelsConflicts_induction {s₀ s₁ : State} {k : ℕ}
    {conflicts : List DeploymentInfo} {P : State → Prop} (hsnap : s.SnapshotsOk)
    (hk : s.mailbox[k]? = some (.cancelDeletedConflicts plan conflicts))
    (hsch : s.isScheduledDeployment plan.id) (hw : s.SameBooks s₀)
    (hcur : s.SnapshotUnlaunched (.cancelDeletedConflicts plan conflicts))
    (hf : (conflicts.filter fun info => info.plan.id ∈ s₀.runningDeployments).foldlM
      cancelConflict s₀ = some s₁)
    (hdrop : ∀ t id info r, P t → t.runningDeployments.lookup id = some info →
      info.status = .scheduled → P (t.dropped id info r))
    (hstop : ∀ t id info ref, P t → t.runningDeployments.lookup id = some info →
      info.ref = some ref → P (t.stopped id info ref))
    (hs₀ : P s₀) : P s₁ := by
  have htok : (plan, Stage.deleting conflicts) ∈ s.tokens :=
    (tokens_deliver hk).symm.subset List.mem_cons_self
  obtain ⟨hnodup, hmem⟩ := known_conflicts (d := s₀.runningDeployments) hsnap htok
  refine foldlM_cancelConflict_induction hf hnodup hmem (fun _ _ => rfl) ?_ hs₀
  intro info hinfo t t' ht hl hc
  have hin : info.plan.id ∈ t.runningDeployments := by
    rw [← AList.lookup_isSome, hl, AList.lookup_isSome]
    exact hmem info hinfo
  rcases cancelConflict_cases hc hin with ⟨hst, cur, r, hcurl, -, rfl⟩ |
    ⟨-, cur, ref, hcurl, hr, rfl⟩ | ⟨-, rfl⟩
  · have hrun : s.runningDeployments.lookup info.plan.id = some cur := by
      rw [← hw.running, ← hl]
      exact hcurl
    obtain ⟨cur', hl', hst'⟩ := isScheduledDeployment_iff.mp
      (hcur hsch info (List.mem_filter.mp hinfo).1 hst (Dict.mem_of_lookup_eq_some hrun))
    cases hrun.symm.trans hl'
    exact hdrop t _ cur r ht hcurl hst'
  · exact hstop t _ cur ref ht hcurl hr
  · exact ht

/-- The report at the place `k` of the mailbox comes off. -/
theorem reports_deliver {k : ℕ} {m : Msg} (hk : s.mailbox[k]? = some m) (hm : m.report = some p) :
    s.reports.Perm (p :: { s with mailbox := s.mailbox.eraseIdx k }.reports) := by
  obtain ⟨hlt, rfl⟩ := List.getElem?_eq_some_iff.mp hk
  have hp := ((List.getElem_cons_eraseIdx_perm hlt).filterMap Msg.report).symm
  rw [List.filterMap_cons] at hp
  simpa only [hm, reports] using hp

theorem Books.finishes {k : ℕ}
    (hb : s.Books) (hk : s.mailbox[k]? = some (.deploymentFinished plan r))
    (hl : s.runningDeployments.lookup plan.id = some info) :
    ((({ s with mailbox := s.mailbox.eraseIdx k }).dropped plan.id info r).submit
      (.delete plan.id)).Books := by
  have hperm := reports_deliver (p := plan) hk rfl
  have hnodup := ((hperm.map Plan.id).nodup_iff).mp hb.reportsNodup
  rw [List.map_cons, List.nodup_cons] at hnodup
  have hmem : plan ∈ s.reports := hperm.symm.subset List.mem_cons_self
  obtain ⟨-, child, hchild, hph⟩ := hb.reported plan hmem
  exact
    { gauge :=
        GaugeExact.dropped (s := { s with mailbox := s.mailbox.eraseIdx k }) (r := r) hb.gauge hl
      working := by
        intro id a ha hp
        have hne : id ≠ plan.id := by
          rintro rfl
          rw [show s.deploymentActors.lookup plan.id = some a from ha] at hchild
          cases hchild
          exact hph hp
        exact (hb.working id a ha hp).erase hne rfl
      reported := by
        intro p hp
        have hne : p.id ≠ plan.id := by
          intro he
          exact hnodup.1 (he ▸ List.mem_map_of_mem hp)
        obtain ⟨hlaunched, hphase⟩ := hb.reported p (hperm.symm.subset (List.mem_cons_of_mem _ hp))
        exact ⟨hlaunched.erase hne rfl, hphase⟩
      reportsNodup := hnodup.2 }

theorem Books.launched (hb : s.Books) (hl : s.runningDeployments.lookup plan.id = some info)
    (hfresh : plan.id ∉ s.deploymentActors) : (s.launched plan info).Books where
  gauge := by
    show s.runningDeploymentsMetric = (Dict.size (s.runningDeployments.insert plan.id _) : ℤ)
    rw [Dict.size_insert_of_mem (Dict.mem_of_lookup_eq_some hl)]
    exact hb.gauge
  working id a ha hp := by
    rcases Dict.lookup_insert_eq_some.mp ha with ⟨rfl, rfl⟩ | ⟨-, ha⟩
    · exact ⟨_, AList.lookup_insert _, by simp⟩
    · exact (hb.working id a ha hp).insert (by simp) rfl
  reported p hp := by
    obtain ⟨hlaunched, a, ha, hph⟩ := hb.reported p hp
    have hne : p.id ≠ plan.id := by
      intro he
      exact hfresh (he ▸ Dict.mem_of_lookup_eq_some ha)
    refine ⟨hlaunched.insert (by simp) rfl, a, ?_, hph⟩
    show (s.deploymentActors.insert plan.id _).lookup p.id = some a
    rw [AList.lookup_insert_ne hne]
    exact ha
  reportsNodup := hb.reportsNodup

/-- A child that stops is at work no longer. -/
theorem Books.advanced (hb : s.Books) (hph : ph ≠ .running) : (s.advanced id a ph).Books where
  gauge := hb.gauge
  working id' a' ha' hp' := by
    rcases Dict.lookup_insert_eq_some.mp ha' with ⟨rfl, rfl⟩ | ⟨-, ha'⟩
    · exact absurd hp' hph
    · exact hb.working id' a' ha' hp'
  reported p hp := by
    obtain ⟨hlaunched, a', ha', hp'⟩ := hb.reported p hp
    refine ⟨hlaunched, ?_⟩
    by_cases he : p.id = id
    · exact ⟨{ a with phase := ph }, by rw [he]; exact AList.lookup_insert _, hph⟩
    · refine ⟨a', ?_, hp'⟩
      show (s.deploymentActors.insert id _).lookup p.id = some a'
      rw [AList.lookup_insert_ne he]
      exact ha'
  reportsNodup := hb.reportsNodup

theorem Books.reporting
    (hb : s.Books) (ha : s.deploymentActors.lookup id = some a) (hid : a.plan.id = id)
    (hp : a.phase = .running) :
    ((s.advanced id a .stopping).send (.deploymentFinished a.plan r)).Books := by
  have hadv : (s.advanced id a .stopping).Books := hb.advanced (by simp)
  have hreports : ((s.advanced id a .stopping).send (.deploymentFinished a.plan r)).reports =
      s.reports ++ [a.plan] := by
    simp only [reports, send, State.advanced, List.filterMap_append, List.filterMap_cons,
      Msg.report, List.filterMap_nil]
  exact
    { gauge := hb.gauge
      working := hadv.working
      reported := by
        intro p hmem
        rw [hreports, List.mem_append, List.mem_singleton] at hmem
        rcases hmem with hmem | rfl
        · exact hadv.reported p hmem
        · rw [hid]
          exact ⟨hb.working id a ha hp, _, AList.lookup_insert _, by simp⟩
      reportsNodup := by
        rw [hreports, List.map_append, List.nodup_append]
        refine ⟨hb.reportsNodup, by simp, ?_⟩
        -- a child that is running has not reported yet
        intro x hx y hy he
        obtain ⟨p, hmem, rfl⟩ := List.mem_map.mp hx
        obtain ⟨-, b, hb', hph⟩ := hb.reported p hmem
        obtain rfl : y = a.plan.id := by simpa using hy
        rw [he, hid, ha] at hb'
        cases hb'
        exact hph hp }

theorem books_step {e : Event} (hi : s.Inv) (hsnap : s.SnapshotsOk)
    (hb : s.Books) (hok : s.DropsUnlaunched e) (hs : s.step e = some s') : s'.Books := by
  cases step_books hi hs with
  | idle hw => exact hb.same hw
  | marks plan hfresh hw =>
    have hnew : plan.id ∉ s.runningDeployments := by
      intro hmem
      obtain ⟨info, hl⟩ := Dict.lookup_ne_none_of_mem hmem
      have hknown := (hi.runningOk _ _ hl).known
      rw [hi.runningId _ _ hl] at hknown
      exact hfresh (Dict.mem_of_lookup_eq_some hknown)
    have hkeep : ∀ id, s.Launched id → (s.markScheduled plan).Launched id := by
      rintro id ⟨info, hl, hst⟩
      refine ⟨info, ?_, hst⟩
      show (s.runningDeployments.insert plan.id _).lookup id = some info
      rw [AList.lookup_insert_ne]
      · exact hl
      · rintro rfl
        exact hnew (Dict.mem_of_lookup_eq_some hl)
    refine Books.same ?_ hw
    exact
      { gauge := by
          show s.runningDeploymentsMetric + 1 =
            (Dict.size (s.runningDeployments.insert plan.id _) : ℤ)
          rw [Dict.size_insert_of_notMem hnew, hb.gauge]
          omega
        working := fun id a ha hp => hkeep id (hb.working id a ha hp)
        reported := fun p hp => ⟨hkeep _ (hb.reported p hp).1, (hb.reported p hp).2⟩
        reportsNodup := hb.reportsNodup }
  | drops s₀ id info r hw hl hst hs' =>
    subst hs'
    exact (hb.same hw).dropped (by rw [hw.running]; exact hl) hst
  | stops id info ref hl hr hs' =>
    subst hs'
    exact hb.stopped hl
  | cancelsConflicts s₀ s₁ k plan conflicts he hk hsch hs₀ hw hf hw' =>
    subst he
    refine Books.same ?_ hw'
    exact cancelsConflicts_induction hsnap hk hsch hw (hok _ hk) hf
      (fun t id info r ht hl hst => ht.dropped hl hst)
      (fun t id info ref ht hl _ => ht.stopped hl) (hb.same hw)
  | finishes s₀ k plan r info he hk hs₀ hl hs' =>
    subst hs' hs₀
    exact hb.finishes hk hl
  | finishesGone s₀ k plan r he hk hs₀ hl hs' =>
    obtain ⟨⟨info, hl', -⟩, -⟩ := hb.reported plan
      ((reports_deliver (p := plan) hk rfl).symm.subset List.mem_cons_self)
    rw [hl] at hl'
    cases hl'
  | launches s₀ plan info hw hl hplan hfresh hs' =>
    subst hs'
    exact (hb.same hw).launched (by rw [hw.running]; exact hl) (by rw [hw.actors]; exact hfresh)
  | finished id a r ha hp hs' =>
    subst hs'
    exact hb.reporting ha (hi.actorId id a ha) hp
  | advances id a ph ha hp hph hev hs' =>
    subst hs'
    exact hb.advanced hph
  | stopDone k stop hk hs' =>
    subst hs'
    exact ⟨hb.gauge, hb.working, hb.reported, hb.reportsNodup⟩

theorem books_initial (repository : Dict String Plan) : (initial repository).Books where
  gauge := rfl
  working _ _ h := by simp [initial] at h
  reported _ h := by simp [initial, reports] at h
  reportsNodup := by simp [initial, reports]

end State

theorem books_of_dropsUnlaunched (h : manager.ReachableIf State.DropsUnlaunched s) : s.Books :=
  h.invariant_of (I := fun s => s.Inv ∧ s.SnapshotsOk) (J := State.Books)
    (fun _ hr => ⟨inv_of_reachable hr.reachable, snapshotsOk_of_reachable hr.reachable⟩)
    (by rintro s ⟨repository, rfl⟩; exact State.books_initial repository)
    fun _ _ _ hi hj hok hs => State.books_step hi.1 hi.2 hj hok hs

namespace State

/-! ## Children that are stopping -/

/-- A child that has neither terminated nor been handed over has a launched entry. -/
def Attended (s : State) : Prop := ∀ id, s.Live id → ¬ s.HandedOver id → s.Launched id

theorem Attended.of_le (h : s.Attended)
    (hlive : ∀ id, s'.Live id → ¬ s'.HandedOver id → s.Live id ∧ ¬ s.HandedOver id)
    (hlaunched : ∀ id, s'.Live id → ¬ s'.HandedOver id → s.Launched id → s'.Launched id) :
    s'.Attended := by
  intro id hl hh
  obtain ⟨hl', hh'⟩ := hlive id hl hh
  exact hlaunched id hl hh (h id hl' hh')

theorem Attended.same (h : s.Attended) (hw : s.SameBooks s') : s'.Attended := by
  refine h.of_le ?_ fun _ _ _ hl => hw.launched hl
  intro id hl hh
  simp only [Live, HandedOver, hw.actors, hw.stops] at hl hh
  exact ⟨hl, hh⟩

theorem Attended.dropped (h : s.Attended) (hl : s.runningDeployments.lookup id = some info)
    (hst : info.status = .scheduled) : (s.dropped id info r).Attended :=
  h.of_le (fun _ hlive hh => ⟨hlive, hh⟩) fun _ _ _ hlaunched =>
    hlaunched.erase (hlaunched.ne_of_scheduled hl hst) rfl

theorem Attended.stopped (h : s.Attended) : (s.stopped id info ref).Attended := by
  refine h.of_le ?_ fun _ _ _ hlaunched => hlaunched.insert (by simp) rfl
  rintro id' ⟨a, ha, hp⟩ hh
  obtain ⟨a', ha', -, hp'⟩ := child_eq_some.mp
    (stopped_lookup.mp (child_eq_some.mpr ⟨a, ha, rfl, rfl⟩))
  refine ⟨⟨a', ha', by rw [hp']; exact hp⟩, ?_⟩
  rintro ⟨stop, hstop, hid⟩
  exact hh ⟨stop, List.mem_append_left _ hstop, hid⟩

theorem Attended.advanced
    (h : s.Attended) (ha : s.deploymentActors.lookup id = some a) (hp : a.phase ≠ .terminated) :
    (s.advanced id a ph).Attended := by
  refine h.of_le ?_ fun _ _ _ hlaunched => hlaunched
  rintro id' ⟨b, hb, hpb⟩ hh
  refine ⟨?_, hh⟩
  rcases Dict.lookup_insert_eq_some.mp hb with ⟨rfl, -⟩ | ⟨-, hb⟩
  · exact ⟨a, ha, hp⟩
  · exact ⟨b, hb, hpb⟩

theorem attended_step {e : Event} (hi : s.Inv) (hsnap : s.SnapshotsOk)
    (h : s.Attended) (hok : s.ForgetsNoChild e) (hs : s.step e = some s') : s'.Attended := by
  cases step_books hi hs with
  | idle hw => exact h.same hw
  | marks plan hfresh hw =>
    refine Attended.same ?_ hw
    refine h.of_le (fun _ hlive hh => ⟨hlive, hh⟩) ?_
    rintro id - - ⟨info, hl, hst⟩
    refine ⟨info, ?_, hst⟩
    show (s.runningDeployments.insert plan.id _).lookup id = some info
    rw [AList.lookup_insert_ne]
    · exact hl
    · rintro rfl
      have hknown := (hi.runningOk _ _ hl).known
      rw [hi.runningId _ _ hl] at hknown
      exact hfresh (Dict.mem_of_lookup_eq_some hknown)
  | drops s₀ id info r hw hl hst hs' =>
    subst hs'
    exact (h.same hw).dropped (by rw [hw.running]; exact hl) hst
  | stops id info ref hl hr hs' =>
    subst hs'
    exact h.stopped
  | cancelsConflicts s₀ s₁ k plan conflicts he hk hsch hs₀ hw hf hw' =>
    subst he
    refine Attended.same ?_ hw'
    exact cancelsConflicts_induction hsnap hk hsch hw (hok _ hk).1 hf
      (fun t id info r ht hl hst => ht.dropped hl hst)
      (fun t id info ref ht _ _ => ht.stopped) (h.same hw)
  | finishes s₀ k plan r info he hk hs₀ hl hs' =>
    subst he hs' hs₀
    refine h.of_le (fun _ hlive hh => ⟨hlive, hh⟩) ?_
    intro id hlive hh hlaunched
    refine hlaunched.erase ?_ rfl
    rintro rfl
    exact hh ((hok _ hk).2 hlive)
  | finishesGone s₀ k plan r he hk hs₀ hl hs' =>
    subst hs' hs₀
    exact h
  | launches s₀ plan info hw hl hplan hfresh hs' =>
    subst hs'
    have h₀ : s₀.Attended := h.same hw
    rintro id ⟨a, ha, hp⟩ hh
    rcases Dict.lookup_insert_eq_some.mp ha with ⟨rfl, rfl⟩ | ⟨-, ha⟩
    · exact ⟨_, AList.lookup_insert _, by simp⟩
    · exact (h₀ id ⟨a, ha, hp⟩ hh).insert (by simp) rfl
  | finished id a r ha hp hs' =>
    subst hs'
    exact h.advanced ha (by simp [hp])
  | advances id a ph ha hp hph hev hs' =>
    subst hs'
    exact h.advanced ha hp
  | stopDone k stop hk hs' =>
    subst hs'
    refine h.of_le ?_ fun _ _ _ hlaunched => hlaunched
    intro id hlive hh
    refine ⟨hlive, ?_⟩
    rintro ⟨old, hold, hid⟩
    obtain ⟨j, hj⟩ := List.mem_iff_getElem?.mp hold
    obtain ⟨new, hnew, hid'⟩ := (stopDone_extends hk).stops j id ⟨old, hj, hid⟩
    exact hh ⟨new, List.mem_of_getElem? hnew, hid'⟩

theorem attended_initial (repository : Dict String Plan) : (initial repository).Attended := by
  rintro id ⟨a, ha, -⟩
  simp [initial] at ha

theorem Attended.noOrphan (hi : s.Inv) (h : s.Attended) : s.NoOrphan := by
  intro id hlive hh
  obtain ⟨info, hl, hst⟩ := h id hlive hh
  have hok := hi.runningOk id info hl
  have hid := hi.runningId id info hl
  refine ⟨info, hl, by rw [(hok.launched hst).1, hid], ?_⟩
  cases hstat : info.status with
  | scheduled => exact absurd hstat hst
  | deploying => rfl
  | canceling =>
    obtain ⟨k, -, stop, hstop, hto⟩ := hok.canceled hstat
    exact absurd ⟨stop, List.mem_of_getElem? hstop, hto.trans hid⟩ hh

end State

/-- In every run whose steps drop no launched conflict and forget no child before it has
terminated, the manager's books are right. -/
theorem bookkeeping_of_forgetsNoChild {s : State}
    (h : manager.ReachableIf State.ForgetsNoChild s) : s.Bookkeeping := by
  have hr : manager.Reachable s := h.reachable
  have hatt : s.Attended := h.invariant_of (I := fun s => s.Inv ∧ s.SnapshotsOk)
    (J := State.Attended)
    (fun _ hr => ⟨inv_of_reachable hr.reachable, snapshotsOk_of_reachable hr.reachable⟩)
    (by rintro s ⟨repository, rfl⟩; exact State.attended_initial repository)
    fun _ _ _ hi hj hok hs => State.attended_step hi.1 hi.2 hj hok hs
  have hbooks : s.Books :=
    books_of_dropsUnlaunched (h.mono fun _ _ hok => hok.dropsUnlaunched)
  exact
    { noOrphan := hatt.noOrphan (inv_of_reachable hr)
      gauge := hbooks.gauge
      promises := promisesOpen_of_reachable hr
      settles := fun e s' hs => settles_of_reachable hr hs
      once := fun k hk => deliver_ne_none_of_reachable hr hk }

/-- The cancelled child has terminated when its `DeploymentFinished` is handled, while
the forced deployment is at work. -/
theorem awaitingRun_bookkeeping :
    ∃ s, manager.run (State.initial ∅) (awaitingRun ++ [.deliver 0]) = some s ∧
      s.Live "forced" ∧ s.Bookkeeping := by
  have hif : ((manager.runIf State.ForgetsNoChild (State.initial ∅)
      (awaitingRun ++ [.deliver 0])).map fun s => decide (s.Live "forced")) = some true := by
    decide
  obtain ⟨s, hrun, hlive⟩ := Option.map_eq_some_iff.mp hif
  exact ⟨s, Machine.run_of_runIf hrun, of_decide_eq_true hlive,
    bookkeeping_of_forgetsNoChild (Machine.reachableIf_of_runIf _ (.init ⟨∅, rfl⟩) hrun)⟩

/-! ## A run that orphans a child -/

/-- The forced plan takes its snapshot before the first plan is stored; the first plan
is stored and launched, and then deleted and dropped as if it were still scheduled.
Its child goes on, finishes and is subtracted from the gauge once more. -/
def orphaningRun : List Event :=
  [.startDeployment overtakenPlan false, .startDeployment forcedPlan true, .completeOp 0 true,
    .resume 0, .deliver 0, .completeOp 0 true, .resume 0, .deliver 0]

theorem orphaningRun_orphan :
    (manager.run (State.initial ∅) orphaningRun).map (fun s =>
      (s.deploymentActors.lookup "overtaken", s.stopActors,
        s.runningDeployments.lookup "overtaken")) =
    some (some ⟨overtakenPlan, false, .running⟩, [], none) := by
  decide

theorem orphaningRun_gauge :
    (manager.run (State.initial ∅)
      (orphaningRun ++ [.actorDone "overtaken" .done, .deliver 0])).map (fun s =>
        (s.runningDeploymentsMetric, Dict.size s.runningDeployments)) = some (0, 1) := by
  decide

/-- There are runs with an orphaned child, and runs with a wrong gauge. -/
theorem not_forall_reachable_bookkeeping :
    ¬ (∀ s, manager.Reachable s → s.NoOrphan) ∧ ¬ (∀ s, manager.Reachable s → s.GaugeExact) ∧
      ¬ ∀ s, manager.Reachable s → s.Bookkeeping := by
  have horphan : ¬ ∀ s, manager.Reachable s → s.NoOrphan := by
    intro h
    obtain ⟨s, hrun, hs⟩ := Option.map_eq_some_iff.mp orphaningRun_orphan
    have hr : manager.Reachable s := Machine.reachableIf_of_runIf _ (.init ⟨∅, rfl⟩) hrun
    obtain ⟨hchild, hrest⟩ := Prod.mk.inj hs
    obtain ⟨hstops, hentry⟩ := Prod.mk.inj hrest
    have hhand : ¬ s.HandedOver "overtaken" := by
      rintro ⟨stop, hstop, -⟩
      rw [hstops] at hstop
      cases hstop
    obtain ⟨info, hl, -⟩ := h s hr "overtaken" ⟨_, hchild, by decide⟩ hhand
    rw [hentry] at hl
    cases hl
  refine ⟨horphan, ?_, fun h => horphan fun s hr => (h s hr).noOrphan⟩
  intro h
  obtain ⟨s, hrun, hs⟩ := Option.map_eq_some_iff.mp orphaningRun_gauge
  have hr : manager.Reachable s := Machine.reachableIf_of_runIf _ (.init ⟨∅, rfl⟩) hrun
  obtain ⟨hgauge, hsize⟩ := Prod.mk.inj hs
  have hexact := h s hr
  rw [State.GaugeExact, hgauge, hsize] at hexact
  omega

end Marathon.Deployment
