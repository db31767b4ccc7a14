import Marathon.Deployment.ManagerInvariant

/-!
# Deployment exclusion

Two live `DeploymentActor`s never work on a common run spec, as long as no step
runs into one of the three places where the manager loses sight of a live child:
the snapshot of the conflicts shows a deployment as `scheduled` that has been
launched since, the snapshot shows it as `deploying` so that its cancellation is
not awaited, or its `DeploymentFinished` was handled before it terminated.
-/

namespace Marathon.Deployment

open Marathon.Lib

variable {s s' s₀ : State} {id : String} {st st' : Stage} {plan : Plan}

namespace State

/-- The child `id` has been spawned and has not terminated. -/
def Live (s : State) (id : String) : Prop :=
  ∃ a, s.deploymentActors.lookup id = some a ∧ a.phase ≠ .terminated

instance (s : State) (id : String) : Decidable (s.Live id) :=
  match h : s.deploymentActors.lookup id with
  | none => isFalse (by rintro ⟨a, ha, -⟩; rw [h] at ha; cases ha)
  | some a => decidable_of_iff (a.phase ≠ .terminated)
      ⟨fun hp => ⟨a, h, hp⟩, by rintro ⟨b, hb, hp⟩; rw [h] at hb; cases hb; exact hp⟩

/-- No two live children work on a common run spec. -/
def Exclusion (s : State) : Prop :=
  ∀ id₁ id₂ a₁ a₂, s.deploymentActors.lookup id₁ = some a₁ →
    s.deploymentActors.lookup id₂ = some a₂ → a₁.phase ≠ .terminated → a₂.phase ≠ .terminated →
    id₁ ≠ id₂ → ¬ a₁.plan.Intersects a₂.plan

/-- The condition on a message that is about to be handled: the snapshot is
still right about the children that the handler will not wait for. -/
def SnapshotCurrent (s : State) : Msg → Prop
  | .cancelDeletedConflicts plan conflicts => s.isScheduledDeployment plan.id →
    ∀ info ∈ conflicts, info.status = .scheduled → ¬ s.Live info.plan.id
  | .waitForCanceledConflicts plan conflicts => s.isScheduledDeployment plan.id →
    ∀ info ∈ conflicts, info.status = .deploying → ¬ s.Live info.plan.id
  | _ => True

/-- The condition on a deployment that is about to be scheduled: every live child
it conflicts with is still listed. -/
def ChildrenListed (s : State) (plan : Plan) (force : Bool) : Prop :=
  s.conflictingDeployments plan = [] ∨ force = true → ∀ id a,
    s.deploymentActors.lookup id = some a → a.phase ≠ .terminated → a.plan.Intersects plan →
    id ∈ s.runningDeployments

/-- The steps on which the manager keeps sight of every live child. -/
def KeepsSight (s : State) : Event → Prop
  | .startDeployment plan force => s.ChildrenListed plan force
  | .deliver k => ∀ m ∈ s.mailbox[k]?, s.SnapshotCurrent m
  | _ => True

instance (s : State) : (m : Msg) → Decidable (s.SnapshotCurrent m)
  | .cancelDeletedConflicts plan conflicts =>
    inferInstanceAs (Decidable (s.isScheduledDeployment plan.id →
      ∀ info ∈ conflicts, info.status = .scheduled → ¬ s.Live info.plan.id))
  | .waitForCanceledConflicts plan conflicts =>
    inferInstanceAs (Decidable (s.isScheduledDeployment plan.id →
      ∀ info ∈ conflicts, info.status = .deploying → ¬ s.Live info.plan.id))
  | .deploymentFinished _ _ | .launchDeployment _ | .failedRepositoryOperation _ => isTrue trivial

instance (s : State) (plan : Plan) (force : Bool) : Decidable (s.ChildrenListed plan force) :=
  decidable_of_iff (s.conflictingDeployments plan = [] ∨ force = true →
      ∀ x ∈ s.deploymentActors.entries, x.2.phase ≠ .terminated → x.2.plan.Intersects plan →
        x.1 ∈ s.runningDeployments)
    (imp_congr_right fun _ => (Dict.forall_lookup_iff (P := fun id (a : DeploymentActor) =>
      a.phase ≠ .terminated → a.plan.Intersects plan → id ∈ s.runningDeployments)).symm)

instance (s : State) : (e : Event) → Decidable (s.KeepsSight e)
  | .startDeployment plan force => inferInstanceAs (Decidable (s.ChildrenListed plan force))
  | .deliver k => inferInstanceAs (Decidable (∀ m ∈ s.mailbox[k]?, s.SnapshotCurrent m))
  | .cancelDeployment _ | .completeOp _ _ | .resume _ | .actorDone _ _ | .actorCancelled _
  | .actorCrashed _ | .actorTerminated _ | .stopActorTerminated _ => isTrue trivial

/-! ## The invariant -/

/-- How a scheduled plan accounts for a live child that it conflicts with. -/
def Accounts (s : State) (id : String) : Stage → Prop
  | .deleting conflicts => ∃ info ∈ conflicts, info.plan.id = id
  | .storing conflicts => ∃ info ∈ conflicts, info.plan.id = id ∧ info.status ≠ .scheduled
  | .waiting cancellations => ∃ k ∈ cancellations, s.Stops k id
  | .launching => False
  | .failed => True

/-- The plan behind `t` will remove the plan `id` before it is launched. -/
def WillCancel (t : Token) (id : String) : Prop :=
  ∃ conflicts, t.2 = .deleting conflicts ∧ ∃ info ∈ conflicts, info.plan.id = id

structure Safe (s : State) : Prop where
  exclusion : s.Exclusion
  /-- A scheduled plan accounts for every live child it conflicts with. -/
  covered : ∀ t ∈ s.tokens, s.isScheduledDeployment t.1.id → ∀ id a,
    s.deploymentActors.lookup id = some a → a.phase ≠ .terminated → a.plan.Intersects t.1 →
    s.Accounts id t.2
  /-- Of two scheduled plans that conflict, one will cancel the other. -/
  paired : ∀ t ∈ s.tokens, ∀ u ∈ s.tokens, t.1.id ≠ u.1.id → s.isScheduledDeployment t.1.id →
    s.isScheduledDeployment u.1.id → t.1.Intersects u.1 →
    WillCancel t u.1.id ∨ WillCancel u t.1.id ∨ t.2 = .failed ∨ u.2 = .failed

theorem Accounts.mono (h : s.Accounts id st) (he : s.Extends s') : s'.Accounts id st := by
  cases st with
  | deleting conflicts => exact h
  | storing conflicts => exact h
  | waiting cancellations =>
    obtain ⟨k, hk, hstop⟩ := h
    exact ⟨k, hk, he.stops _ _ hstop⟩
  | launching => exact h
  | failed => trivial

/-- No child comes to life and no plan becomes scheduled from `s` to `s'`. -/
structure Calms (s s' : State) : Prop where
  ext : s.Extends s'
  live : ∀ id a', s'.deploymentActors.lookup id = some a' → a'.phase ≠ .terminated →
    ∃ a, s.deploymentActors.lookup id = some a ∧ a.phase ≠ .terminated ∧ a.plan = a'.plan
  scheduled : ∀ id, s'.isScheduledDeployment id → s.isScheduledDeployment id

theorem SameWork.calms (h : s.SameWork s') : s.Calms s' where
  ext := h.extends
  live id a' ha hp := ⟨a', h.actors ▸ ha, hp, rfl⟩
  scheduled id hs := by simpa only [isScheduledDeployment, h.running] using hs

theorem Cancels.calms (h : s.Cancels s') : s.Calms s' where
  ext := h.extends
  live id a' ha hp := by
    have hc : s.child id = some (a'.plan, a'.phase) := by
      rw [← h.child]
      exact child_eq_some.mpr ⟨a', ha, rfl, rfl⟩
    obtain ⟨a, ha, hplan, hph⟩ := child_eq_some.mp hc
    exact ⟨a, ha, hph ▸ hp, hplan⟩
  scheduled id hs := by
    obtain ⟨info', hl, hst⟩ := isScheduledDeployment_iff.mp hs
    exact isScheduledDeployment_iff.mpr ⟨info', h.of_scheduled hl hst, hst⟩

theorem Advances.calms {a : DeploymentActor} {ph : ActorPhase}
    (h : s.Advances s' id a ph) : s.Calms s' where
  ext := h.extends
  live id' a' ha hp := by
    rw [h.actors] at ha
    rcases Dict.lookup_insert_eq_some.mp ha with ⟨rfl, rfl⟩ | ⟨-, ha⟩
    · exact ⟨a, h.old, h.alive, rfl⟩
    · exact ⟨a', ha, hp, rfl⟩
  scheduled id' hs := by simpa only [isScheduledDeployment, h.running] using hs

theorem Exclusion.calms (h : s.Exclusion) (hc : s.Calms s') : s'.Exclusion := by
  intro id₁ id₂ b₁ b₂ hb₁ hb₂ hp₁ hp₂ hne
  obtain ⟨a₁, ha₁, hq₁, he₁⟩ := hc.live _ _ hb₁ hp₁
  obtain ⟨a₂, ha₂, hq₂, he₂⟩ := hc.live _ _ hb₂ hp₂
  rw [← he₁, ← he₂]
  exact h _ _ _ _ ha₁ ha₂ hq₁ hq₂ hne

theorem Safe.calms (h : s.Safe) (hc : s.Calms s') (ht : s'.tokens ⊆ s.tokens) : s'.Safe where
  exclusion := h.exclusion.calms hc
  covered t htok hs id b hb hp hint := by
    obtain ⟨a, ha, hq, he⟩ := hc.live _ _ hb hp
    exact (h.covered t (ht htok) (hc.scheduled _ hs) id a ha hq (he ▸ hint)).mono hc.ext
  paired t htok u hu hne hst hsu hint :=
    h.paired t (ht htok) u (ht hu) hne (hc.scheduled _ hst) (hc.scheduled _ hsu) hint

/-- A calm step that gives one plan a new stage. -/
theorem Safe.carries {rest : List Token}
    (h : s.Safe) (hc : s.Calms s') (ht : s.tokens.Perm ((plan, st) :: rest))
    (ht' : s'.tokens.Perm ((plan, st') :: rest))
    (hcov : s.isScheduledDeployment plan.id → ∀ id, s.Live id → s.Accounts id st →
      s'.Accounts id st')
    (hpair : ∀ u ∈ rest, s'.isScheduledDeployment u.1.id → s'.isScheduledDeployment plan.id →
      WillCancel (plan, st) u.1.id → WillCancel (plan, st') u.1.id ∨ st' = .failed)
    (hfail : st = .failed → st' = .failed) : s'.Safe := by
  have hmem : (plan, st) ∈ s.tokens := ht.symm.subset (List.mem_cons_self ..)
  have hold : ∀ u ∈ rest, u ∈ s.tokens := fun u hu => ht.symm.subset (List.mem_cons_of_mem _ hu)
  have hpaired : ∀ u ∈ rest, plan.id ≠ u.1.id → s'.isScheduledDeployment plan.id →
      s'.isScheduledDeployment u.1.id → plan.Intersects u.1 →
      WillCancel (plan, st') u.1.id ∨ WillCancel u plan.id ∨ st' = .failed ∨ u.2 = .failed := by
    intro u hu hne hsp hsu hint
    rcases h.paired _ hmem u (hold u hu) hne (hc.scheduled _ hsp) (hc.scheduled _ hsu) hint with
      hw | hw | hf | hf
    · rcases hpair u hu hsu hsp hw with hw' | hf
      · exact .inl hw'
      · exact .inr (.inr (.inl hf))
    · exact .inr (.inl hw)
    · exact .inr (.inr (.inl (hfail hf)))
    · exact .inr (.inr (.inr hf))
  exact
    { exclusion := h.exclusion.calms hc
      covered := by
        intro t htok hs id b hb hp hint
        obtain ⟨a, ha, hq, he⟩ := hc.live _ _ hb hp
        rcases List.mem_cons.mp (ht'.subset htok) with rfl | hrest
        · exact hcov (hc.scheduled _ hs) id ⟨a, ha, hq⟩
            (h.covered _ hmem (hc.scheduled _ hs) id a ha hq (he ▸ hint))
        · exact (h.covered t (hold t hrest) (hc.scheduled _ hs) id a ha hq (he ▸ hint)).mono hc.ext
      paired := by
        intro t htok u hu hne hst hsu hint
        rcases List.mem_cons.mp (ht'.subset htok) with rfl | ht
        · rcases List.mem_cons.mp (ht'.subset hu) with rfl | hu
          · exact absurd rfl hne
          · exact hpaired u hu hne hst hsu hint
        · rcases List.mem_cons.mp (ht'.subset hu) with rfl | hu
          · rcases hpaired t ht hne.symm hsu hst hint.symm with hw | hw | hf | hf
            · exact .inr (.inl hw)
            · exact .inl hw
            · exact .inr (.inr (.inr hf))
            · exact .inr (.inr (.inl hf))
          · exact h.paired t (hold t ht) u (hold u hu) hne (hc.scheduled _ hst)
              (hc.scheduled _ hsu) hint }

/-! ## The steps -/

theorem Safe.starts {force : Bool} {stage : Stage} (hi : s.Inv)
    (h : s.Safe) (hstart : s.Starts s' plan stage)
    (hst : s.conflictingDeployments plan = [] ∧ stage = .launching ∨
      force = true ∧ stage = .deleting (s.conflictingDeployments plan))
    (hok : s.ChildrenListed plan force) : s'.Safe := by
  obtain ⟨promise, hrun⟩ := hstart.running
  have hsch : ∀ id, id ≠ plan.id → s'.isScheduledDeployment id → s.isScheduledDeployment id := by
    intro id hne hs
    simpa only [isScheduledDeployment, hrun, AList.lookup_insert_ne hne] using hs
  have hconf : ∀ id info, s.runningDeployments.lookup id = some info →
      info.plan.Intersects plan → info ∈ s.conflictingDeployments plan := by
    intro id info hl hint
    exact List.mem_filter.mpr ⟨Dict.mem_values.mpr ⟨id, hl⟩, by simpa using hint⟩
  have hne : ∀ t ∈ s.tokens, t.1.id ≠ plan.id := fun t ht =>
    hstart.ne_of_known (hi.tokenKnown t ht)
  have hpaired : ∀ u ∈ s.tokens, s'.isScheduledDeployment u.1.id → plan.Intersects u.1 →
      WillCancel (plan, stage) u.1.id := by
    intro u hu hsu hint
    obtain ⟨info, hl, -⟩ := isScheduledDeployment_iff.mp (hsch _ (hne u hu) hsu)
    have hplan : info.plan = u.1 := by
      have hk := (hi.runningOk _ _ hl).known
      rw [hi.runningId _ _ hl, hi.tokenKnown u hu] at hk
      exact (Option.some.inj hk).symm
    have hmem := hconf _ _ hl (hplan ▸ hint.symm)
    rcases hst with ⟨hnil, -⟩ | ⟨-, rfl⟩
    · rw [hnil] at hmem
      cases hmem
    · exact ⟨_, rfl, info, hmem, by rw [hplan]⟩
  exact
    { exclusion := by
        intro id₁ id₂ a₁ a₂ h₁ h₂
        rw [hstart.actors] at h₁ h₂
        exact h.exclusion id₁ id₂ a₁ a₂ h₁ h₂
      covered := by
        intro t ht hs id a ha hp hint
        rw [hstart.actors] at ha
        rcases List.mem_cons.mp (hstart.tokens.subset ht) with rfl | ht
        · have hgo : s.conflictingDeployments plan = [] ∨ force = true :=
            hst.imp And.left And.left
          obtain ⟨info, hl⟩ := Dict.lookup_ne_none_of_mem (hok hgo id a ha hp hint)
          have hplan : info.plan = a.plan := by
            have hk := (hi.runningOk _ _ hl).known
            rw [hi.runningId _ _ hl, hi.actorKnown _ _ ha] at hk
            exact (Option.some.inj hk).symm
          have hmem := hconf _ _ hl (hplan ▸ hint)
          rcases hst with ⟨hnil, -⟩ | ⟨-, rfl⟩
          · rw [hnil] at hmem
            cases hmem
          · exact ⟨info, hmem, hi.runningId _ _ hl⟩
        · exact (h.covered t ht (hsch _ (hne t ht) hs) id a ha hp hint).mono hstart.extends
      paired := by
        intro t ht u hu hneq hst' hsu hint
        rcases List.mem_cons.mp (hstart.tokens.subset ht) with rfl | ht
        · rcases List.mem_cons.mp (hstart.tokens.subset hu) with rfl | hu
          · exact absurd rfl hneq
          · exact .inl (hpaired u hu hsu hint)
        · rcases List.mem_cons.mp (hstart.tokens.subset hu) with rfl | hu
          · exact .inr (.inl (hpaired t ht hst' hint.symm))
          · exact h.paired t ht u hu hneq (hsch _ (hne t ht) hst') (hsch _ (hne u hu) hsu) hint }

theorem Safe.launches (h : s.Safe)
    (hw : s.SameWork s₀) (ht : s.tokens.Perm ((plan, .launching) :: s₀.tokens))
    (hl : s₀.Launches s' plan) : s'.Safe := by
  obtain ⟨info, hinfo, hst, hrun⟩ := hl.running
  have hmem : (plan, Stage.launching) ∈ s.tokens := ht.symm.subset (List.mem_cons_self ..)
  have hsplan : s.isScheduledDeployment plan.id :=
    isScheduledDeployment_iff.mpr ⟨info, hw.running ▸ hinfo, hst⟩
  have hfree : ∀ id a, s.deploymentActors.lookup id = some a → a.phase ≠ .terminated →
      ¬ a.plan.Intersects plan := fun id a ha hp hint => h.covered _ hmem hsplan id a ha hp hint
  have hold : ∀ t ∈ s'.tokens, t ∈ s.tokens ∧ t.1.id ≠ plan.id := by
    intro t htok
    rw [hl.tokens] at htok
    exact ⟨ht.symm.subset (List.mem_cons_of_mem _ htok), hl.noToken t htok⟩
  have hext : s.Extends s' :=
    { seen := fun id p hp => hl.extends.seen _ _ (hw.extends.seen _ _ hp)
      actors := fun id hid => hl.extends.actors _ (hw.extends.actors _ hid)
      stops := fun k id hk => hl.extends.stops _ _ (hw.extends.stops _ _ hk) }
  have hsch : ∀ id, id ≠ plan.id → s'.isScheduledDeployment id → s.isScheduledDeployment id := by
    intro id hne hs
    simpa only [isScheduledDeployment, hrun, AList.lookup_insert_ne hne, hw.running] using hs
  have hact : ∀ id a, s'.deploymentActors.lookup id = some a →
      id = plan.id ∧ a.plan = plan ∨ s.deploymentActors.lookup id = some a := by
    intro id a ha
    rw [hl.actors, hw.actors] at ha
    rcases Dict.lookup_insert_eq_some.mp ha with ⟨rfl, rfl⟩ | ⟨-, ha⟩
    · exact .inl ⟨rfl, rfl⟩
    · exact .inr ha
  exact
    { exclusion := by
        intro id₁ id₂ a₁ a₂ h₁ h₂ hp₁ hp₂ hne hint
        rcases hact _ _ h₁ with ⟨rfl, e₁⟩ | h₁
        · rcases hact _ _ h₂ with ⟨rfl, -⟩ | h₂
          · exact hne rfl
          · exact hfree _ _ h₂ hp₂ (e₁ ▸ hint.symm)
        · rcases hact _ _ h₂ with ⟨rfl, e₂⟩ | h₂
          · exact hfree _ _ h₁ hp₁ (e₂ ▸ hint)
          · exact h.exclusion _ _ _ _ h₁ h₂ hp₁ hp₂ hne hint
      covered := by
        intro t htok hs id a ha hp hint
        obtain ⟨htok, hne⟩ := hold t htok
        rcases hact _ _ ha with ⟨rfl, e⟩ | ha
        · -- the new child: of the two plans it is the other one that cancels
          rcases h.paired _ hmem t htok hne.symm hsplan (hsch _ hne hs) (e ▸ hint) with
            ⟨_, hd, _⟩ | ⟨conflicts, hd, hinfo⟩ | hf | hf
          · cases hd
          · rw [hd]
            exact hinfo
          · cases hf
          · rw [hf]
            trivial
        · exact (h.covered t htok (hsch _ hne hs) id a ha hp hint).mono hext
      paired := by
        intro t htok u hu hneq hst' hsu hint
        obtain ⟨htok, hnet⟩ := hold t htok
        obtain ⟨hu, hneu⟩ := hold u hu
        exact h.paired t htok u hu hneq (hsch _ hnet hst') (hsch _ hneu hsu) hint }

theorem Continues.accounts {e : Event} (hi : s.Inv)
    (hok : s.KeepsSight e) (hc : Continues s e plan st st') (hmem : (plan, st) ∈ s.tokens)
    (hlive : s.Live id) (ha : s.Accounts id st) : s.Accounts id st' := by
  cases hc with
  | fails => trivial
  | stays => exact ha
  | waited fs hdone =>
    -- a completed cancellation means that the child has terminated
    obtain ⟨k, hk, stop, hstop, rfl⟩ := ha
    have hd := hdone k hk
    simp only [stopFutureDone, hstop] at hd
    obtain ⟨a, hl, hph⟩ := hi.stopDone stop (List.mem_of_getElem? hstop) hd
    obtain ⟨b, hb, hp⟩ := hlive
    rw [hl] at hb
    cases hb
    exact hp hph
  | waits k conflicts he hk hs =>
    obtain ⟨info, hinfo, rfl, hns⟩ := ha
    have hcur : info.status = .deploying → ¬ s.Live info.plan.id := by
      subst he
      exact hok _ hk hs info hinfo
    have hcan : info.status = .canceling := by
      cases hstat : info.status with
      | scheduled => exact absurd hstat hns
      | deploying => exact absurd hlive (hcur hstat)
      | canceling => rfl
    obtain ⟨k', hk', hstop⟩ := (hi.snapshotOk _ hmem info hinfo).canceled hcan
    exact ⟨k', List.mem_filterMap.mpr
      ⟨info, List.mem_filter.mpr ⟨hinfo, by simpa using hcan⟩, hk'⟩, hstop⟩

theorem Continues.willCancel {e : Event}
    (hc : Continues s e plan st st') (hw : WillCancel (plan, st) id) :
    WillCancel (plan, st') id ∨ st' = .failed := by
  cases hc with
  | fails => exact .inr rfl
  | stays => exact .inl hw
  | waited =>
    obtain ⟨_, hd, _⟩ := hw
    cases hd
  | waits =>
    obtain ⟨_, hd, _⟩ := hw
    cases hd

/-- The conflicts that are still scheduled are those whose snapshot was. -/
theorem Safe.cancelsConflicts {s₁ : State} {k : ℕ}
    {conflicts : List DeploymentInfo} (hi : s.Inv) (h : s.Safe) (hok : s.KeepsSight (.deliver k))
    (hk : s.mailbox[k]? = some (.cancelDeletedConflicts plan conflicts))
    (hs : s.isScheduledDeployment plan.id) (hw : s.SameWork s₀)
    (ht : s.tokens.Perm ((plan, .deleting conflicts) :: s₀.tokens))
    (hf : (conflicts.filter fun info => info.plan.id ∈ s₀.runningDeployments).foldlM
      cancelConflict s₀ = some s₁)
    (hw' : s₁.SameWork s') (ht' : s'.tokens.Perm ((plan, .storing conflicts) :: s₁.tokens)) :
    s'.Safe := by
  have hcan := foldlM_cancelConflict_cancels hf
  have hcalm : s.Calms s' :=
    { ext :=
        { seen := fun _ _ hp => hw'.extends.seen _ _ (hcan.extends.seen _ _ (hw.extends.seen _ _ hp))
          actors := fun _ hid =>
            hw'.extends.actors _ (hcan.extends.actors _ (hw.extends.actors _ hid))
          stops := fun _ _ hk =>
            hw'.extends.stops _ _ (hcan.extends.stops _ _ (hw.extends.stops _ _ hk)) }
      live := by
        intro id b hb hp
        obtain ⟨a₁, ha₁, hp₁, e₁⟩ := hw'.calms.live _ _ hb hp
        obtain ⟨a₀, ha₀, hp₀, e₀⟩ := hcan.calms.live _ _ ha₁ hp₁
        obtain ⟨a, ha, hp, e⟩ := hw.calms.live _ _ ha₀ hp₀
        exact ⟨a, ha, hp, (e.trans e₀).trans e₁⟩
      scheduled := fun id hid =>
        hw.calms.scheduled _ (hcan.calms.scheduled _ (hw'.calms.scheduled _ hid)) }
  have hmem : (plan, Stage.deleting conflicts) ∈ s.tokens :=
    ht.symm.subset (List.mem_cons_self ..)
  rw [hcan.tokens] at ht'
  refine h.carries hcalm ht ht' ?_ ?_ (by simp)
  · intro _ id hlive hacc
    obtain ⟨info, hinfo, rfl⟩ := hacc
    exact ⟨info, hinfo, rfl, fun hst => hok _ hk hs info hinfo hst hlive⟩
  · -- a conflict that is still scheduled had a token, so its snapshot was scheduled
    rintro u hu hsu - ⟨_, hd, info, hinfo, hid⟩
    cases hd
    have hu' : u ∈ s.tokens := ht.symm.subset (List.mem_cons_of_mem _ hu)
    have hsnap := hi.snapshotOk _ hmem info hinfo
    have hst : info.status = .scheduled := by
      by_contra hne
      exact hi.tokenFresh u hu' (hid ▸ (hsnap.launched hne).2)
    obtain ⟨info₁, hl₁, hs₁⟩ := isScheduledDeployment_iff.mp (hw'.calms.scheduled _ hsu)
    have hl₀ := hcan.of_scheduled hl₁ hs₁
    have hknown : info ∈ conflicts.filter fun info => info.plan.id ∈ s₀.runningDeployments := by
      refine List.mem_filter.mpr ⟨hinfo, ?_⟩
      simpa [hid] using Dict.mem_of_lookup_eq_some hl₀
    have hgone := foldlM_cancelConflict_removed hf hknown hst
    rw [hid, hl₁] at hgone
    cases hgone

theorem safe_step {e : Event} (hi : s.Inv) (h : s.Safe) (hok : s.KeepsSight e)
    (hs : s.step e = some s') : s'.Safe := by
  cases step_effect hi hs with
  | cancels s₀ hw ht hc =>
    refine (h.calms hw.calms ht.subset).calms hc.calms ?_
    rw [hc.tokens]
    exact fun _ ht => ht
  | advances id a ph ha =>
    refine h.calms ha.calms ?_
    rw [ha.tokens]
    exact fun _ ht => ht
  | stopDone k stop a hk ha hph hs =>
    subst hs
    refine h.calms ⟨stopDone_extends hk, fun id b hb hp => ⟨b, hb, hp, rfl⟩, fun _ h => h⟩ ?_
    exact fun _ ht => ht
  | starts plan force stage he hstart hst =>
    subst he
    exact h.starts hi hstart hst hok
  | carries s₀ plan st st' hw ht hw' ht' hc =>
    have hmem : (plan, st) ∈ s.tokens := ht.symm.subset (List.mem_cons_self ..)
    have hcalm : s.Calms s' :=
      { ext :=
          { seen := fun _ _ hp => hw'.extends.seen _ _ (hw.extends.seen _ _ hp)
            actors := fun _ hid => hw'.extends.actors _ (hw.extends.actors _ hid)
            stops := fun _ _ hk => hw'.extends.stops _ _ (hw.extends.stops _ _ hk) }
        live := fun id b hb hp => ⟨b, hw.actors ▸ hw'.actors ▸ hb, hp, rfl⟩
        scheduled := fun id hid => hw.calms.scheduled _ (hw'.calms.scheduled _ hid) }
    refine h.carries hcalm ht ht' ?_ (fun u _ _ _ hwc => hc.willCancel hwc) ?_
    · intro _ id hlive hacc
      exact (hc.accounts hi hok hmem hlive hacc).mono hcalm.ext
    · rintro rfl
      cases hc <;> rfl
  | cancelsConflicts s₀ s₁ k plan conflicts he hk hsch hw ht hf hw' ht' =>
    subst he
    exact h.cancelsConflicts hi hok hk hsch hw ht hf hw' ht'
  | launches s₀ plan hw ht hl => exact h.launches hw ht hl

theorem safe_initial (repository : Dict String Plan) : (initial repository).Safe where
  exclusion _ _ _ _ h := by simp [initial] at h
  covered _ h := by simp [initial, tokens] at h
  paired _ h := by simp [initial, tokens] at h

end State

/-- In every run whose steps all keep sight of the live children, no two live
`DeploymentActor`s ever work on a common run spec. -/
theorem exclusion_of_keepsSight {s : State}
    (h : manager.ReachableIf State.KeepsSight s) : s.Exclusion := by
  have hsafe : s.Safe := h.invariant_of (I := State.Inv) (J := State.Safe)
    (fun _ hr => inv_of_reachable hr.reachable)
    (by rintro s ⟨repository, rfl⟩; exact State.safe_initial repository)
    (fun _ _ _ hi hj hok hs => State.safe_step hi hj hok hs)
  exact hsafe.exclusion

/-- A deployment of `/app` that is running when a forced one for `/app` arrives. -/
def overtakenPlan : Plan := ⟨"overtaken", {⟨["app"]⟩}⟩

def forcedPlan : Plan := ⟨"forced", {⟨["app"]⟩}⟩

/-- A deployment that was cancelled by hand before the forced one arrives is
waited for: its child terminates, then the forced deployment is launched. -/
def awaitingRun : List Event :=
  [.startDeployment overtakenPlan false, .completeOp 0 true, .resume 0, .deliver 0,
    .cancelDeployment overtakenPlan, .startDeployment forcedPlan true, .completeOp 0 true,
    .resume 0, .deliver 0, .completeOp 0 true, .resume 0, .deliver 0,
    .actorCancelled "overtaken", .actorTerminated "overtaken", .stopActorTerminated 0, .resume 0,
    .deliver 1]

theorem awaitingRun_exclusion :
    ∃ s, manager.run (State.initial ∅) awaitingRun = some s ∧ s.Live "forced" ∧ s.Exclusion := by
  have hif : ((manager.runIf State.KeepsSight (State.initial ∅) awaitingRun).map fun s =>
      decide (s.Live "forced")) = some true := by decide
  obtain ⟨s, hrun, hlive⟩ := Option.map_eq_some_iff.mp hif
  refine ⟨s, ?_, of_decide_eq_true hlive, exclusion_of_keepsSight
    (Machine.reachableIf_of_runIf _ (.init ⟨∅, rfl⟩) hrun)⟩
  exact Machine.run_of_runIf hrun

/-! ## A run that loses sight -/

/-- The overtaken plan is stored and launched; the forced one deletes it from the
repository, has it cancelled, is stored, finds nothing to wait for and is
launched before the first child has even handled its `Cancel`. -/
def overtakingRun : List Event :=
  [.startDeployment overtakenPlan false, .completeOp 0 true, .resume 0, .deliver 0,
    .startDeployment forcedPlan true, .completeOp 0 true, .resume 0, .deliver 0,
    .completeOp 0 true, .resume 0, .deliver 0, .resume 0, .deliver 0]

theorem overtakingRun_children :
    (manager.run (State.initial ∅) overtakingRun).map (fun s =>
      (s.deploymentActors.lookup "overtaken", s.deploymentActors.lookup "forced")) =
    some (some ⟨overtakenPlan, true, .running⟩, some ⟨forcedPlan, false, .running⟩) := by
  decide

/-- Not every reachable state keeps conflicting deployments apart. -/
theorem not_forall_reachable_exclusion : ¬ ∀ s, manager.Reachable s → s.Exclusion := by
  intro h
  obtain ⟨s, hrun, hchildren⟩ := Option.map_eq_some_iff.mp overtakingRun_children
  have hr : manager.Reachable s := Machine.reachableIf_of_runIf _ (.init ⟨∅, rfl⟩) hrun
  obtain ⟨h₁, h₂⟩ := Prod.mk.inj hchildren
  exact h s hr "overtaken" "forced" _ _ h₁ h₂ (by decide) (by decide) (by decide) (by decide)

end Marathon.Deployment
