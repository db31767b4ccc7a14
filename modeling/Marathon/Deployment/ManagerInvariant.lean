import Marathon.Deployment.DeploymentManager

/-!
# The bookkeeping of the deployment manager

Every plan that has been started and not yet launched or dropped is carried by
exactly one token: an `async` block or a message. This module states what the
tokens, the entries of `runningDeployments`, the child actors and the snapshots
of conflicts have to do with one another, and that every step keeps it.
-/

namespace Marathon.Deployment

open Marathon.Lib

/-- How far a started plan has come. -/
inductive Stage
  | deleting (conflicts : List DeploymentInfo)
  | storing (conflicts : List DeploymentInfo)
  | waiting (cancellations : List ℕ)
  | launching
  | failed

def Stage.conflicts : Stage → List DeploymentInfo
  | .deleting conflicts => conflicts
  | .storing conflicts => conflicts
  | _ => []

/-- A plan on its way to `startDeployment`. -/
abbrev Token := Plan × Stage

def Async.token : Async → Token
  | .startNonConflictingDeployment plan _ => (plan, .launching)
  | .startConflictingDeployment plan conflicts _ => (plan, .deleting conflicts)
  | .cancelDeletedConflicts plan conflicts _ => (plan, .storing conflicts)
  | .waitForCanceledConflicts plan cancellations => (plan, .waiting cancellations)

def Msg.token : Msg → Option Token
  | .deploymentFinished _ _ => none
  | .launchDeployment plan => some (plan, .launching)
  | .cancelDeletedConflicts plan conflicts => some (plan, .deleting conflicts)
  | .waitForCanceledConflicts plan conflicts => some (plan, .storing conflicts)
  | .failedRepositoryOperation plan => some (plan, .failed)

variable {s s' s₀ : State} {info : DeploymentInfo} {k : ℕ} {t : Token} {id : String}
  {ph : ActorPhase} {r : PromiseResult} {known : List DeploymentInfo} {plan : Plan}
  {a : DeploymentActor} {stage : Stage} {e : Event}

namespace State

def tokens (s : State) : List Token := s.asyncs.map Async.token ++ s.mailbox.filterMap Msg.token

/-- The `StopActor` behind the future `k` stops the child `id`. -/
def Stops (s : State) (k : ℕ) (id : String) : Prop :=
  ∃ stop, s.stopActors[k]? = some stop ∧ stop.toStop = id

/-- What holds of an entry of `runningDeployments` and of every snapshot of it. -/
structure InfoOk (s : State) (info : DeploymentInfo) : Prop where
  known : s.seen.lookup info.plan.id = some info.plan
  scheduled : info.status = .scheduled → info.ref = none
  launched : info.status ≠ .scheduled →
    info.ref = some info.plan.id ∧ info.plan.id ∈ s.deploymentActors
  canceled : info.status = .canceling → ∃ k, info.cancel = some k ∧ s.Stops k info.plan.id

structure Inv (s : State) : Prop where
  runningId : ∀ id info, s.runningDeployments.lookup id = some info → info.plan.id = id
  runningOk : ∀ id info, s.runningDeployments.lookup id = some info → s.InfoOk info
  runningFresh : ∀ id info, s.runningDeployments.lookup id = some info →
    info.status = .scheduled → id ∉ s.deploymentActors
  actorId : ∀ id a, s.deploymentActors.lookup id = some a → a.plan.id = id
  actorKnown : ∀ id a, s.deploymentActors.lookup id = some a → s.seen.lookup id = some a.plan
  stopDone : ∀ stop ∈ s.stopActors, stop.promiseDone →
    ∃ a, s.deploymentActors.lookup stop.toStop = some a ∧ a.phase = .terminated
  tokenKnown : ∀ t ∈ s.tokens, s.seen.lookup t.1.id = some t.1
  tokenFresh : ∀ t ∈ s.tokens, t.1.id ∉ s.deploymentActors
  tokenNodup : (s.tokens.map fun t => t.1.id).Nodup
  snapshotOk : ∀ t ∈ s.tokens, ∀ info ∈ t.2.conflicts, s.InfoOk info

/-! ## What carries over to a later state -/

/-- Nothing that has been started is forgotten. -/
structure Extends (s s' : State) : Prop where
  seen : ∀ id p, s.seen.lookup id = some p → s'.seen.lookup id = some p
  actors : ∀ id ∈ s.deploymentActors, id ∈ s'.deploymentActors
  stops : ∀ k id, s.Stops k id → s'.Stops k id

theorem InfoOk.mono (h : s.InfoOk info) (he : s.Extends s') : s'.InfoOk info where
  known := he.seen _ _ h.known
  scheduled := h.scheduled
  launched hs := ⟨(h.launched hs).1, he.actors _ (h.launched hs).2⟩
  canceled hc := by
    obtain ⟨k, hk, hstop⟩ := h.canceled hc
    exact ⟨k, hk, he.stops _ _ hstop⟩

/-! ## Tokens -/

theorem tokens_await (s : State) (a : Async) : (s.await a).tokens.Perm (a.token :: s.tokens) := by
  simp only [tokens, await, List.map_append, List.map_cons, List.map_nil, List.append_assoc]
  exact List.perm_middle

theorem tokens_send (s : State) (m : Msg) : (s.send m).tokens = s.tokens ++ m.token.toList := by
  cases h : m.token <;> simp [tokens, send, h]

theorem tokens_deliver {m : Msg} (h : s.mailbox[k]? = some m) :
    s.tokens.Perm (m.token.toList ++ { s with mailbox := s.mailbox.eraseIdx k }.tokens) := by
  obtain ⟨hk, rfl⟩ := List.getElem?_eq_some_iff.mp h
  have hp := ((List.getElem_cons_eraseIdx_perm hk).filterMap Msg.token).symm
  rw [List.filterMap_cons] at hp
  simp only [tokens]
  cases hm : (s.mailbox[k]).token with
  | none =>
    simp only [hm] at hp
    simpa using hp.append_left _
  | some t =>
    simp only [hm] at hp
    exact (hp.append_left _).trans List.perm_middle

theorem tokens_resume {a : Async} (h : s.asyncs[k]? = some a) :
    s.tokens.Perm (a.token :: { s with asyncs := s.asyncs.eraseIdx k }.tokens) := by
  obtain ⟨hk, rfl⟩ := List.getElem?_eq_some_iff.mp h
  have hp := ((List.getElem_cons_eraseIdx_perm hk).map Async.token).symm
  exact hp.append_right _

theorem token_eq_of_id_eq (hi : s.Inv) {u : Token} (ht : t ∈ s.tokens)
    (hu : u ∈ s.tokens) (h : t.1.id = u.1.id) : t = u :=
  List.inj_on_of_nodup_map hi.tokenNodup ht hu h

/-- `s'` has the same plans, entries, children and stop actors as `s`. -/
structure SameWork (s s' : State) : Prop where
  running : s'.runningDeployments = s.runningDeployments
  actors : s'.deploymentActors = s.deploymentActors
  stops : s'.stopActors = s.stopActors
  seen : s'.seen = s.seen

theorem SameWork.extends (h : s.SameWork s') : s.Extends s' where
  seen id p hp := by rw [h.seen]; exact hp
  actors id hid := by rw [h.actors]; exact hid
  stops k id hk := by simpa only [Stops, h.stops] using hk

/-- Tokens may be dropped. -/
theorem Inv.dropTokens (hi : s.Inv) (hw : s.SameWork s')
    (ht : s'.tokens.Subperm s.tokens) : s'.Inv where
  runningId := by rw [hw.running]; exact hi.runningId
  runningOk id info h := (hi.runningOk id info (hw.running ▸ h)).mono hw.extends
  runningFresh := by rw [hw.running, hw.actors]; exact hi.runningFresh
  actorId := by rw [hw.actors]; exact hi.actorId
  actorKnown := by rw [hw.actors, hw.seen]; exact hi.actorKnown
  stopDone := by rw [hw.stops, hw.actors]; exact hi.stopDone
  tokenKnown t h := by rw [hw.seen]; exact hi.tokenKnown t (ht.subset h)
  tokenFresh t h := by rw [hw.actors]; exact hi.tokenFresh t (ht.subset h)
  tokenNodup := by
    obtain ⟨l, hl, hs⟩ := ht
    have hn := hi.tokenNodup.sublist (hs.map _)
    exact ((hl.map _).nodup_iff).mp hn
  snapshotOk t h info hinfo := (hi.snapshotOk t (ht.subset h) info hinfo).mono hw.extends

theorem Inv.addToken (hi : s.Inv) (hw : s.SameWork s')
    (ht : s'.tokens.Perm (t :: s.tokens)) (hknown : s.seen.lookup t.1.id = some t.1)
    (hfresh : t.1.id ∉ s.deploymentActors) (hnew : ∀ u ∈ s.tokens, u.1.id ≠ t.1.id)
    (hsnap : ∀ info ∈ t.2.conflicts, s.InfoOk info) : s'.Inv where
  runningId := by rw [hw.running]; exact hi.runningId
  runningOk id info h := (hi.runningOk id info (hw.running ▸ h)).mono hw.extends
  runningFresh := by rw [hw.running, hw.actors]; exact hi.runningFresh
  actorId := by rw [hw.actors]; exact hi.actorId
  actorKnown := by rw [hw.actors, hw.seen]; exact hi.actorKnown
  stopDone := by rw [hw.stops, hw.actors]; exact hi.stopDone
  tokenKnown u h := by
    rw [hw.seen]
    obtain rfl | hu := List.mem_cons.mp (ht.subset h)
    · exact hknown
    · exact hi.tokenKnown u hu
  tokenFresh u h := by
    rw [hw.actors]
    obtain rfl | hu := List.mem_cons.mp (ht.subset h)
    · exact hfresh
    · exact hi.tokenFresh u hu
  tokenNodup := by
    refine ((ht.map _).nodup_iff).mpr ?_
    rw [List.map_cons, List.nodup_cons]
    refine ⟨?_, hi.tokenNodup⟩
    intro hmem
    obtain ⟨u, hu, he⟩ := List.mem_map.mp hmem
    exact hnew u hu he
  snapshotOk u h info hinfo := by
    obtain rfl | hu := List.mem_cons.mp (ht.subset h)
    · exact (hsnap info hinfo).mono hw.extends
    · exact (hi.snapshotOk u hu info hinfo).mono hw.extends

/-! ## Cancelling -/

/-- A child with its plan and phase, forgetting whether `Cancel` has been sent. -/
def child (s : State) (id : String) : Option (Plan × ActorPhase) :=
  (s.deploymentActors.lookup id).map fun a => (a.plan, a.phase)

theorem mem_actors_iff_child : id ∈ s.deploymentActors ↔ ∃ c, s.child id = some c := by
  rw [← AList.lookup_isSome, Option.isSome_iff_exists]
  simp [child]

theorem child_eq_some {p : Plan} :
    s.child id = some (p, ph) ↔
      ∃ a, s.deploymentActors.lookup id = some a ∧ a.plan = p ∧ a.phase = ph := by
  simp [child]

/-- From `s` to `s'` entries are removed or turned to `canceling` with a new
`StopActor`; no plan is started, launched or carried further. -/
structure Cancels (s s' : State) : Prop where
  tokens : s'.tokens = s.tokens
  seen : s'.seen = s.seen
  child : ∀ id, s'.child id = s.child id
  stops : ∃ l, s'.stopActors = s.stopActors ++ l ∧ ∀ stop ∈ l, stop.promiseDone = false
  running : ∀ id info', s'.runningDeployments.lookup id = some info' →
    ∃ info, s.runningDeployments.lookup id = some info ∧
      (info' = info ∨ ∃ ref k, info.ref = some ref ∧ info'.ref = some ref ∧
        info'.plan = info.plan ∧ info'.status = .canceling ∧ info'.cancel = some k ∧
        s'.Stops k ref)

theorem Stops.append {l : List StopActor}
    (h : s.Stops k id) (hl : s'.stopActors = s.stopActors ++ l) : s'.Stops k id := by
  obtain ⟨stop, hk, hid⟩ := h
  have hlt : k < s.stopActors.length := (List.getElem?_eq_some_iff.mp hk).1
  exact ⟨stop, by rw [hl, List.getElem?_append_left hlt, hk], hid⟩

theorem Cancels.refl (s : State) : s.Cancels s where
  tokens := rfl
  seen := rfl
  child _ := rfl
  stops := ⟨[], by simp, by simp⟩
  running _ info' h := ⟨info', h, .inl rfl⟩

/-- Counters, replies, promises and repository operations do not matter. -/
theorem SameWork.cancels (h : s.SameWork s') (ht : s'.tokens = s.tokens) : s.Cancels s' where
  tokens := ht
  seen := h.seen
  child id := by simp only [State.child, h.actors]
  stops := ⟨[], by simp [h.stops], by simp⟩
  running id info' hl := ⟨info', h.running ▸ hl, .inl rfl⟩

theorem Cancels.trans {s'' : State} (h : s.Cancels s') (h' : s'.Cancels s'') : s.Cancels s'' where
  tokens := h'.tokens.trans h.tokens
  seen := h'.seen.trans h.seen
  child id := (h'.child id).trans (h.child id)
  stops := by
    obtain ⟨l, hl, hd⟩ := h.stops
    obtain ⟨l', hl', hd'⟩ := h'.stops
    refine ⟨l ++ l', by rw [hl', hl, List.append_assoc], ?_⟩
    intro stop hstop
    exact (List.mem_append.mp hstop).elim (hd stop) (hd' stop)
  running id info'' h2 := by
    obtain ⟨l', hl', -⟩ := h'.stops
    obtain ⟨info', h1, hcase'⟩ := h'.running id info'' h2
    obtain ⟨info, h0, hcase⟩ := h.running id info' h1
    refine ⟨info, h0, ?_⟩
    rcases hcase' with rfl | ⟨ref, k, href, href'', hp, hst, hk, hstop⟩
    · rcases hcase with rfl | ⟨ref, k, href, href', hp, hst, hk, hstop⟩
      · exact .inl rfl
      · exact .inr ⟨ref, k, href, href', hp, hst, hk, hstop.append hl'⟩
    · rcases hcase with rfl | ⟨ref', k', href0, href', hp', -, -, -⟩
      · exact .inr ⟨ref, k, href, href'', hp, hst, hk, hstop⟩
      · obtain rfl : ref = ref' := by simpa [href] using href'
        exact .inr ⟨ref, k, href0, href'', hp.trans hp', hst, hk, hstop⟩

theorem Cancels.extends (h : s.Cancels s') : s.Extends s' where
  seen id p hp := by rw [h.seen]; exact hp
  actors id hid := by
    rw [mem_actors_iff_child] at hid ⊢
    rw [h.child]
    exact hid
  stops k id hk := by
    obtain ⟨l, hl, -⟩ := h.stops
    exact hk.append hl

theorem Cancels.mem_actors (h : s.Cancels s') (id : String) :
    id ∈ s'.deploymentActors ↔ id ∈ s.deploymentActors := by
  rw [mem_actors_iff_child, mem_actors_iff_child, h.child]

/-- A status that is still `scheduled` was so before. -/
theorem Cancels.of_scheduled (h : s.Cancels s')
    {info' : DeploymentInfo} (hl : s'.runningDeployments.lookup id = some info')
    (hs : info'.status = .scheduled) : s.runningDeployments.lookup id = some info' := by
  obtain ⟨info, h0, rfl | ⟨_, _, _, _, _, hst, _, _⟩⟩ := h.running id info' hl
  · exact h0
  · rw [hst] at hs
    cases hs

theorem Inv.cancels (hi : s.Inv) (h : s.Cancels s') : s'.Inv where
  runningId id info' hl := by
    obtain ⟨info, h0, rfl | ⟨_, _, _, _, hp, _, _, _⟩⟩ := h.running id info' hl
    · exact hi.runningId id _ h0
    · rw [hp]
      exact hi.runningId id info h0
  runningOk id info' hl := by
    obtain ⟨info, h0, rfl | ⟨ref, k, href, href', hp, hst, hk, hstop⟩⟩ := h.running id info' hl
    · exact (hi.runningOk id _ h0).mono h.extends
    · have hok := hi.runningOk id info h0
      have hne : info.status ≠ .scheduled := by
        intro hsch
        rw [hok.scheduled hsch] at href
        cases href
      obtain ⟨hr, hmem⟩ := hok.launched hne
      obtain rfl : ref = info.plan.id := by simpa [href] using hr
      exact
        { known := by rw [hp]; exact h.extends.seen _ _ hok.known
          scheduled := by simp [hst]
          launched := fun _ => by rw [hp]; exact ⟨href', h.extends.actors _ hmem⟩
          canceled := fun _ => by rw [hp]; exact ⟨k, hk, hstop⟩ }
  runningFresh id info' hl hs := by
    rw [h.mem_actors]
    exact hi.runningFresh id info' (h.of_scheduled hl hs) hs
  actorId id a ha := by
    have hc : s.child id = some (a.plan, a.phase) := by
      rw [← h.child]
      exact child_eq_some.mpr ⟨a, ha, rfl, rfl⟩
    obtain ⟨b, hb, hp, -⟩ := child_eq_some.mp hc
    rw [← hp]
    exact hi.actorId id b hb
  actorKnown id a ha := by
    have hc : s.child id = some (a.plan, a.phase) := by
      rw [← h.child]
      exact child_eq_some.mpr ⟨a, ha, rfl, rfl⟩
    obtain ⟨b, hb, hp, -⟩ := child_eq_some.mp hc
    rw [← hp, h.seen]
    exact hi.actorKnown id b hb
  stopDone stop hstop hd := by
    obtain ⟨l, hl, hnd⟩ := h.stops
    rw [hl] at hstop
    rcases List.mem_append.mp hstop with hold | hnew
    · obtain ⟨a, ha, hph⟩ := hi.stopDone stop hold hd
      have hc : s'.child stop.toStop = some (a.plan, .terminated) := by
        rw [h.child]
        exact child_eq_some.mpr ⟨a, ha, rfl, hph⟩
      obtain ⟨b, hb, -, hbp⟩ := child_eq_some.mp hc
      exact ⟨b, hb, hbp⟩
    · rw [hnd stop hnew] at hd
      cases hd
  tokenKnown := by rw [h.tokens, h.seen]; exact hi.tokenKnown
  tokenFresh t ht := by
    rw [h.mem_actors]
    exact hi.tokenFresh t (h.tokens ▸ ht)
  tokenNodup := by rw [h.tokens]; exact hi.tokenNodup
  snapshotOk t ht info hinfo := (hi.snapshotOk t (h.tokens ▸ ht) info hinfo).mono h.extends

/-! ## The handlers that cancel -/

theorem complete_cancels {promise : ℕ}
    (h : s.complete promise r = some s') : s.Cancels s' ∧
      s'.runningDeployments = s.runningDeployments := by
  unfold complete at h
  split at h
  · cases h
    exact ⟨SameWork.cancels ⟨rfl, rfl, rfl, rfl⟩ rfl, rfl⟩
  · cases h

theorem erase_cancels (s : State) (id : String) :
    s.Cancels { s with runningDeployments := s.runningDeployments.erase id } where
  tokens := rfl
  seen := rfl
  child _ := rfl
  stops := ⟨[], by simp, by simp⟩
  running id' info' h := ⟨info', (Dict.lookup_erase_eq_some.mp h).2, .inl rfl⟩

theorem removeAndComplete_cancels (h : s.removeAndComplete id r = some s') :
    s.Cancels s' ∧ s'.runningDeployments.lookup id = none := by
  unfold removeAndComplete at h
  split at h
  · obtain ⟨hc, hr⟩ := complete_cancels h
    exact ⟨(erase_cancels s id).trans hc, by rw [hr]; exact AList.lookup_erase _ _⟩
  · rename_i hnone
    cases h
    exact ⟨.refl s, hnone⟩

theorem removeScheduled_cancels {g : ℤ}
    (h : { s with runningDeploymentsMetric := g }.removeAndComplete id r = some s') :
    s.Cancels s' ∧ s'.runningDeployments.lookup id = none := by
  obtain ⟨hc, hn⟩ := removeAndComplete_cancels h
  refine ⟨Cancels.trans ?_ hc, hn⟩
  exact SameWork.cancels ⟨rfl, rfl, rfl, rfl⟩ rfl

theorem stopActor_child (s : State) (ref id : String) :
    (s.stopActor ref).1.child id = s.child id := by
  unfold stopActor child
  cases ha : s.deploymentActors.lookup ref with
  | none => rfl
  | some a =>
    by_cases h : id = ref
    · subst h
      simp [ha]
    · rw [AList.lookup_insert_ne h]

theorem stopDeployment_eq_some (h : s.stopDeployment id = some s') :
    ∃ info ref, s.runningDeployments.lookup id = some info ∧ info.ref = some ref ∧
      s' = { (s.stopActor ref).1 with
        runningDeployments := s.runningDeployments.insert id
          { info with status := .canceling, cancel := some s.stopActors.length } } := by
  simp only [stopDeployment, Option.bind_eq_bind, Option.bind_eq_some_iff, Option.pure_def,
    Option.some.injEq] at h
  obtain ⟨info, hinfo, ref, href, rfl⟩ := h
  exact ⟨info, ref, hinfo, href, rfl⟩

theorem stopDeployment_cancels (h : s.stopDeployment id = some s') : s.Cancels s' := by
  obtain ⟨info, ref, hinfo, href, rfl⟩ := stopDeployment_eq_some h
  exact
    { tokens := rfl
      seen := rfl
      child := fun id' => stopActor_child s ref id'
      stops := ⟨[⟨ref, false⟩], rfl, by simp⟩
      running := by
        intro id' info' hl
        rcases Dict.lookup_insert_eq_some.mp hl with ⟨rfl, rfl⟩ | ⟨-, hl⟩
        · refine ⟨info, hinfo, .inr ⟨ref, _, href, href, rfl, rfl, rfl, ⟨ref, false⟩, ?_, rfl⟩⟩
          simp [stopActor]
        · exact ⟨info', hl, .inl rfl⟩ }

theorem cancelConflict_cancels (h : s.cancelConflict info = some s') : s.Cancels s' := by
  unfold cancelConflict at h
  split at h
  · exact (removeScheduled_cancels h).1
  · exact stopDeployment_cancels h
  · cases h
    exact .refl s

theorem foldlM_cancelConflict_cancels
    (h : known.foldlM cancelConflict s = some s') : s.Cancels s' := by
  induction known generalizing s with
  | nil =>
    obtain rfl : s = s' := by simpa using h
    exact .refl s
  | cons info rest ih =>
    simp only [List.foldlM_cons, Option.bind_eq_bind, Option.bind_eq_some_iff] at h
    obtain ⟨t, ht, hrest⟩ := h
    exact (cancelConflict_cancels ht).trans (ih hrest)

theorem Cancels.lookup_eq_none (h : s.Cancels s')
    (hn : s.runningDeployments.lookup id = none) : s'.runningDeployments.lookup id = none := by
  cases h' : s'.runningDeployments.lookup id with
  | none => rfl
  | some info' =>
    obtain ⟨info, h0, -⟩ := h.running id info' h'
    rw [hn] at h0
    cases h0

/-- Conflicts whose snapshot is `scheduled` are no longer running afterwards. -/
theorem foldlM_cancelConflict_removed
    (h : known.foldlM cancelConflict s = some s') (hmem : info ∈ known)
    (hs : info.status = .scheduled) : s'.runningDeployments.lookup info.plan.id = none := by
  induction known generalizing s with
  | nil => cases hmem
  | cons c rest ih =>
    simp only [List.foldlM_cons, Option.bind_eq_bind, Option.bind_eq_some_iff] at h
    obtain ⟨t, ht, hrest⟩ := h
    rcases List.mem_cons.mp hmem with rfl | hmem
    · rw [cancelConflict, hs] at ht
      exact (foldlM_cancelConflict_cancels hrest).lookup_eq_none (removeScheduled_cancels ht).2
    · exact ih hrest hmem

theorem cancelDeployment_cancels (h : s.cancelDeployment id = some s') : s.Cancels s' := by
  unfold cancelDeployment at h
  split at h
  · split at h
    · exact (removeScheduled_cancels h).1
    · exact stopDeployment_cancels h
    · cases h
      exact .refl s
    · cases h
      exact .refl s
  · cases h
    exact .refl s

theorem deploymentFinished_cancels (h : s.deploymentFinished plan r = some s') : s.Cancels s' := by
  unfold deploymentFinished at h
  dsimp only at h
  split at h
  · refine (erase_cancels s plan.id).trans (Cancels.trans ?_ (complete_cancels h).1)
    exact SameWork.cancels ⟨rfl, rfl, rfl, rfl⟩ rfl
  · cases h
    exact SameWork.cancels ⟨rfl, rfl, rfl, rfl⟩ rfl

/-! ## Child actors -/

/-- A child goes on to a later phase. -/
structure Advances (s s' : State) (id : String) (a : DeploymentActor) (ph : ActorPhase) :
    Prop where
  old : s.deploymentActors.lookup id = some a
  actors : s'.deploymentActors = s.deploymentActors.insert id { a with phase := ph }
  alive : a.phase ≠ .terminated
  running : s'.runningDeployments = s.runningDeployments
  stops : s'.stopActors = s.stopActors
  seen : s'.seen = s.seen
  tokens : s'.tokens = s.tokens

theorem Advances.mem_actors (h : s.Advances s' id a ph) (id' : String) :
    id' ∈ s'.deploymentActors ↔ id' ∈ s.deploymentActors := by
  rw [h.actors, AList.mem_insert]
  constructor
  · rintro (rfl | hm)
    · exact Dict.mem_of_lookup_eq_some h.old
    · exact hm
  · exact .inr

theorem Advances.extends (h : s.Advances s' id a ph) : s.Extends s' where
  seen id p hp := by rw [h.seen]; exact hp
  actors id' hid := (h.mem_actors id').mpr hid
  stops k id hk := by simpa only [Stops, h.stops] using hk

theorem Inv.advances (hi : s.Inv) (h : s.Advances s' id a ph) : s'.Inv where
  runningId := by rw [h.running]; exact hi.runningId
  runningOk id info hl := (hi.runningOk id info (h.running ▸ hl)).mono h.extends
  runningFresh id info hl hs := by
    rw [h.mem_actors]
    exact hi.runningFresh id info (h.running ▸ hl) hs
  actorId id' b hb := by
    rw [h.actors] at hb
    rcases Dict.lookup_insert_eq_some.mp hb with ⟨rfl, rfl⟩ | ⟨-, hb⟩
    · exact hi.actorId _ a h.old
    · exact hi.actorId id' b hb
  actorKnown id' b hb := by
    rw [h.actors] at hb
    rw [h.seen]
    rcases Dict.lookup_insert_eq_some.mp hb with ⟨rfl, rfl⟩ | ⟨-, hb⟩
    · exact hi.actorKnown _ a h.old
    · exact hi.actorKnown id' b hb
  stopDone stop hstop hd := by
    rw [h.stops] at hstop
    obtain ⟨b, hb, hph⟩ := hi.stopDone stop hstop hd
    have hne : stop.toStop ≠ id := by
      intro he
      rw [he, h.old] at hb
      cases hb
      exact h.alive hph
    exact ⟨b, by rw [h.actors, AList.lookup_insert_ne hne]; exact hb, hph⟩
  tokenKnown := by rw [h.tokens, h.seen]; exact hi.tokenKnown
  tokenFresh t ht := by
    rw [h.mem_actors]
    exact hi.tokenFresh t (h.tokens ▸ ht)
  tokenNodup := by rw [h.tokens]; exact hi.tokenNodup
  snapshotOk t ht info hinfo := (hi.snapshotOk t (h.tokens ▸ ht) info hinfo).mono h.extends

theorem stopDone_extends {stop : StopActor}
    (hk : s.stopActors[k]? = some stop) : s.Extends
      { s with stopActors := s.stopActors.set k { stop with promiseDone := true } } where
  seen _ _ h := h
  actors _ h := h
  stops := by
    rintro j id ⟨old, hj, hid⟩
    by_cases hkj : k = j
    · subst hkj
      obtain rfl : old = stop := by simpa [hk] using hj.symm
      have hlt := (List.getElem?_eq_some_iff.mp hk).1
      exact ⟨{ old with promiseDone := true }, by simp [hlt], hid⟩
    · exact ⟨old, by simp [hkj, hj], hid⟩

theorem Inv.stopDone_set (hi : s.Inv) {stop : StopActor}
    (hk : s.stopActors[k]? = some stop)
    (ha : s.deploymentActors.lookup stop.toStop = some a) (hph : a.phase = .terminated) :
    Inv { s with stopActors := s.stopActors.set k { stop with promiseDone := true } } where
  runningId := hi.runningId
  runningOk id info hl := (hi.runningOk id info hl).mono (stopDone_extends hk)
  runningFresh := hi.runningFresh
  actorId := hi.actorId
  actorKnown := hi.actorKnown
  stopDone st hst hd := by
    rcases List.mem_or_eq_of_mem_set hst with hold | rfl
    · exact hi.stopDone st hold hd
    · exact ⟨a, ha, hph⟩
  tokenKnown := hi.tokenKnown
  tokenFresh := hi.tokenFresh
  tokenNodup := hi.tokenNodup
  snapshotOk t ht info hinfo := (hi.snapshotOk t ht info hinfo).mono (stopDone_extends hk)

/-! ## Starting and launching -/

/-- The plan is new: it is marked as scheduled and gets a token. -/
structure Starts (s s' : State) (plan : Plan) (stage : Stage) : Prop where
  fresh : plan.id ∉ s.seen
  seen : s'.seen = s.seen.insert plan.id plan
  running : ∃ promise, s'.runningDeployments = s.runningDeployments.insert plan.id
    { ref := none, plan := plan, status := .scheduled, cancel := none, promise := promise }
  actors : s'.deploymentActors = s.deploymentActors
  stops : s'.stopActors = s.stopActors
  tokens : s'.tokens.Perm ((plan, stage) :: s.tokens)
  snapshot : stage.conflicts ⊆ s.runningDeployments.values

theorem Starts.extends (h : s.Starts s' plan stage) : s.Extends s' where
  seen id p hp := by
    rw [h.seen, AList.lookup_insert_ne]
    · exact hp
    · rintro rfl
      exact h.fresh (Dict.mem_of_lookup_eq_some hp)
  actors id hid := by rw [h.actors]; exact hid
  stops k id hk := by simpa only [Stops, h.stops] using hk

theorem Starts.seen_plan (h : s.Starts s' plan stage) : s'.seen.lookup plan.id = some plan := by
  rw [h.seen, AList.lookup_insert]

/-- Whatever is known in `s` is another plan. -/
theorem Starts.ne_of_known {q : Plan}
    (h : s.Starts s' plan stage) (hq : s.seen.lookup id = some q) : id ≠ plan.id := by
  rintro rfl
  exact h.fresh (Dict.mem_of_lookup_eq_some hq)

theorem Starts.not_mem_actors (hi : s.Inv)
    (h : s.Starts s' plan stage) : plan.id ∉ s.deploymentActors := by
  intro hmem
  obtain ⟨a, ha⟩ := Dict.lookup_ne_none_of_mem hmem
  exact h.ne_of_known (hi.actorKnown _ a ha) rfl

theorem Inv.starts (hi : s.Inv) (h : s.Starts s' plan stage) : s'.Inv := by
  obtain ⟨promise, hrun⟩ := h.running
  have hfresh : plan.id ∉ s'.deploymentActors := by
    rw [h.actors]
    exact Starts.not_mem_actors hi h
  exact
    { runningId := by
        intro id info hl
        rw [hrun] at hl
        rcases Dict.lookup_insert_eq_some.mp hl with ⟨rfl, rfl⟩ | ⟨-, hl⟩
        · rfl
        · exact hi.runningId id info hl
      runningOk := by
        intro id info hl
        rw [hrun] at hl
        rcases Dict.lookup_insert_eq_some.mp hl with ⟨rfl, rfl⟩ | ⟨-, hl⟩
        · exact
            { known := h.seen_plan
              scheduled := fun _ => rfl
              launched := by simp
              canceled := by simp }
        · exact (hi.runningOk id info hl).mono h.extends
      runningFresh := by
        intro id info hl hs
        rw [hrun] at hl
        rcases Dict.lookup_insert_eq_some.mp hl with ⟨rfl, rfl⟩ | ⟨-, hl⟩
        · exact hfresh
        · rw [h.actors]
          exact hi.runningFresh id info hl hs
      actorId := by rw [h.actors]; exact hi.actorId
      actorKnown := fun id a ha => h.extends.seen _ _ (hi.actorKnown id a (h.actors ▸ ha))
      stopDone := by rw [h.stops, h.actors]; exact hi.stopDone
      tokenKnown := by
        intro t ht
        obtain rfl | ht := List.mem_cons.mp (h.tokens.subset ht)
        · exact h.seen_plan
        · exact h.extends.seen _ _ (hi.tokenKnown t ht)
      tokenFresh := by
        intro t ht
        obtain rfl | ht := List.mem_cons.mp (h.tokens.subset ht)
        · exact hfresh
        · rw [h.actors]
          exact hi.tokenFresh t ht
      tokenNodup := by
        refine ((h.tokens.map _).nodup_iff).mpr ?_
        rw [List.map_cons, List.nodup_cons]
        refine ⟨?_, hi.tokenNodup⟩
        intro hmem
        obtain ⟨u, hu, he⟩ := List.mem_map.mp hmem
        exact h.ne_of_known (hi.tokenKnown u hu) he
      snapshotOk := by
        intro t ht info hinfo
        obtain rfl | ht := List.mem_cons.mp (h.tokens.subset ht)
        · obtain ⟨id, hl⟩ := Dict.mem_values.mp (h.snapshot hinfo)
          exact (hi.runningOk id info hl).mono h.extends
        · exact (hi.snapshotOk t ht info hinfo).mono h.extends }

/-- The plan, which has no token left, gets its child. -/
structure Launches (s s' : State) (plan : Plan) : Prop where
  known : s.seen.lookup plan.id = some plan
  fresh : plan.id ∉ s.deploymentActors
  noToken : ∀ t ∈ s.tokens, t.1.id ≠ plan.id
  seen : s'.seen = s.seen
  running : ∃ info, s.runningDeployments.lookup plan.id = some info ∧
    info.status = .scheduled ∧ s'.runningDeployments = s.runningDeployments.insert plan.id
      { info with ref := some plan.id, status := .deploying }
  actors : s'.deploymentActors = s.deploymentActors.insert plan.id
    { plan := plan, cancelRequested := false, phase := .running }
  stops : s'.stopActors = s.stopActors
  tokens : s'.tokens = s.tokens

theorem Launches.extends (h : s.Launches s' plan) : s.Extends s' where
  seen id p hp := by rw [h.seen]; exact hp
  actors id hid := by
    rw [h.actors, AList.mem_insert]
    exact .inr hid
  stops k id hk := by simpa only [Stops, h.stops] using hk

theorem Inv.launches (hi : s.Inv) (h : s.Launches s' plan) : s'.Inv := by
  obtain ⟨info, hinfo, hst, hrun⟩ := h.running
  have hplan : info.plan = plan := by
    have hk := (hi.runningOk _ _ hinfo).known
    rw [hi.runningId _ _ hinfo, h.known] at hk
    exact (Option.some.inj hk).symm
  exact
    { runningId := by
        intro id info' hl
        rw [hrun] at hl
        rcases Dict.lookup_insert_eq_some.mp hl with ⟨rfl, rfl⟩ | ⟨-, hl⟩
        · exact congrArg Plan.id hplan
        · exact hi.runningId id info' hl
      runningOk := by
        intro id info' hl
        rw [hrun] at hl
        rcases Dict.lookup_insert_eq_some.mp hl with ⟨rfl, rfl⟩ | ⟨-, hl⟩
        · exact
            { known := h.extends.seen _ _ (hi.runningOk _ _ hinfo).known
              scheduled := by simp
              launched := fun _ => by simp [hplan, h.actors]
              canceled := by simp }
        · exact (hi.runningOk id info' hl).mono h.extends
      runningFresh := by
        intro id info' hl hs
        rw [hrun] at hl
        rcases Dict.lookup_insert_eq_some.mp hl with ⟨rfl, rfl⟩ | ⟨hne, hl⟩
        · simp at hs
        · rw [h.actors, AList.mem_insert]
          rintro (he | hm)
          · exact hne he
          · exact hi.runningFresh id info' hl hs hm
      actorId := by
        intro id a ha
        rw [h.actors] at ha
        rcases Dict.lookup_insert_eq_some.mp ha with ⟨rfl, rfl⟩ | ⟨-, ha⟩
        · rfl
        · exact hi.actorId id a ha
      actorKnown := by
        intro id a ha
        rw [h.actors] at ha
        rw [h.seen]
        rcases Dict.lookup_insert_eq_some.mp ha with ⟨rfl, rfl⟩ | ⟨-, ha⟩
        · exact h.known
        · exact hi.actorKnown id a ha
      stopDone := by
        intro stop hstop hd
        rw [h.stops] at hstop
        obtain ⟨a, ha, hph⟩ := hi.stopDone stop hstop hd
        have hne : stop.toStop ≠ plan.id := by
          intro he
          exact h.fresh (he ▸ Dict.mem_of_lookup_eq_some ha)
        exact ⟨a, by rw [h.actors, AList.lookup_insert_ne hne]; exact ha, hph⟩
      tokenKnown := by rw [h.tokens, h.seen]; exact hi.tokenKnown
      tokenFresh := by
        intro t ht
        rw [h.tokens] at ht
        rw [h.actors, AList.mem_insert]
        rintro (he | hm)
        · exact h.noToken t ht he
        · exact hi.tokenFresh t ht hm
      tokenNodup := by rw [h.tokens]; exact hi.tokenNodup
      snapshotOk := fun t ht info hinfo =>
        (hi.snapshotOk t (h.tokens ▸ ht) info hinfo).mono h.extends }

/-! ## What a step can do -/

/-- How a token goes on without the help of `cancelDeletedConflicts`. -/
inductive Continues (s : State) (e : Event) (plan : Plan) : Stage → Stage → Prop
  | fails (st : Stage) : Continues s e plan st .failed
  | stays (st : Stage) : Continues s e plan st st
  | waited (fs : List ℕ) (h : ∀ k ∈ fs, s.stopFutureDone k) :
      Continues s e plan (.waiting fs) .launching
  | waits (k : ℕ) (conflicts : List DeploymentInfo) (he : e = .deliver k)
      (hk : s.mailbox[k]? = some (.waitForCanceledConflicts plan conflicts))
      (hs : s.isScheduledDeployment plan.id) :
      Continues s e plan (.storing conflicts) (.waiting
        ((conflicts.filter fun info => info.status = .canceling).filterMap (·.cancel)))

/-- Everything one step can do to the plans, the entries and the children. -/
inductive Effect (s : State) (e : Event) (s' : State) : Prop
  | cancels (s₀ : State) (hw : s.SameWork s₀) (ht : s₀.tokens.Subperm s.tokens)
      (hc : s₀.Cancels s')
  | advances (id : String) (a : DeploymentActor) (ph : ActorPhase) (h : s.Advances s' id a ph)
  | stopDone (k : ℕ) (stop : StopActor) (a : DeploymentActor)
      (hk : s.stopActors[k]? = some stop)
      (ha : s.deploymentActors.lookup stop.toStop = some a) (hph : a.phase = .terminated)
      (hs : s' = { s with stopActors := s.stopActors.set k { stop with promiseDone := true } })
  | starts (plan : Plan) (force : Bool) (stage : Stage) (he : e = .startDeployment plan force)
      (h : s.Starts s' plan stage)
      (hst : s.conflictingDeployments plan = [] ∧ stage = .launching ∨
        force = true ∧ stage = .deleting (s.conflictingDeployments plan))
  | carries (s₀ : State) (plan : Plan) (st st' : Stage) (hw : s.SameWork s₀)
      (ht : s.tokens.Perm ((plan, st) :: s₀.tokens)) (hw' : s₀.SameWork s')
      (ht' : s'.tokens.Perm ((plan, st') :: s₀.tokens)) (hc : Continues s e plan st st')
  | cancelsConflicts (s₀ s₁ : State) (k : ℕ) (plan : Plan) (conflicts : List DeploymentInfo)
      (he : e = .deliver k)
      (hk : s.mailbox[k]? = some (.cancelDeletedConflicts plan conflicts))
      (hs : s.isScheduledDeployment plan.id) (hw : s.SameWork s₀)
      (ht : s.tokens.Perm ((plan, .deleting conflicts) :: s₀.tokens))
      (hf : (conflicts.filter fun info => info.plan.id ∈ s₀.runningDeployments).foldlM
        cancelConflict s₀ = some s₁)
      (hw' : s₁.SameWork s') (ht' : s'.tokens.Perm ((plan, .storing conflicts) :: s₁.tokens))
  | launches (s₀ : State) (plan : Plan) (hw : s.SameWork s₀)
      (ht : s.tokens.Perm ((plan, .launching) :: s₀.tokens)) (h : s₀.Launches s' plan)

theorem Effect.of_sameWork (hw : s.SameWork s') (ht : s'.tokens.Subperm s.tokens) : Effect s e s' :=
  .cancels s' hw ht (.refl s')

theorem isScheduledDeployment_iff :
    s.isScheduledDeployment id = true ↔
      ∃ info, s.runningDeployments.lookup id = some info ∧ info.status = .scheduled := by
  unfold isScheduledDeployment
  cases s.runningDeployments.lookup id <;> simp

theorem deleteAll_sameWork (s : State) (infos : List DeploymentInfo) :
    s.SameWork (s.deleteAll infos).1 ∧ (s.deleteAll infos).1.tokens = s.tokens := by
  induction infos generalizing s with
  | nil => exact ⟨⟨rfl, rfl, rfl, rfl⟩, rfl⟩
  | cons info rest ih =>
    obtain ⟨hw, ht⟩ := ih (s.submit (.delete info.plan.id))
    exact ⟨⟨hw.running, hw.actors, hw.stops, hw.seen⟩, ht⟩

theorem conflictingDeployments_subset (s : State) (plan : Plan) :
    s.conflictingDeployments plan ⊆ s.runningDeployments.values := fun _ h =>
  (List.mem_filter.mp h).1

theorem start_effect {force : Bool} (hfresh : plan.id ∉ s.seen) :
    Effect s (.startDeployment plan force) (s.start plan force) := by
  unfold start
  dsimp only
  split_ifs with hc hf
  · refine .starts plan force .launching rfl ?_ (.inl ⟨hc, rfl⟩)
    exact
      { fresh := hfresh
        seen := rfl
        running := ⟨_, rfl⟩
        actors := rfl
        stops := rfl
        tokens := tokens_await _ _
        snapshot := by simp [Stage.conflicts] }
  · obtain ⟨hw, ht⟩ := deleteAll_sameWork (s.markScheduled plan) (s.conflictingDeployments plan)
    refine .starts plan force _ rfl ?_ (.inr ⟨hf, rfl⟩)
    exact
      { fresh := hfresh
        seen := hw.seen
        running := ⟨_, hw.running⟩
        actors := hw.actors
        stops := hw.stops
        tokens := (tokens_await _ _).trans (by rw [ht]; exact List.Perm.refl _)
        snapshot := conflictingDeployments_subset s plan }
  · exact .of_sameWork ⟨rfl, rfl, rfl, rfl⟩ (List.Subperm.refl _)

theorem startDeployment_eq_some (h : s.startDeployment info = some s') :
    ∃ current, s.runningDeployments.lookup info.plan.id = some current ∧ s' = { s with
      deploymentActors := s.deploymentActors.insert info.plan.id
        { plan := info.plan, cancelRequested := false, phase := .running }
      runningDeployments := s.runningDeployments.insert info.plan.id
        { current with ref := some info.plan.id, status := .deploying } } := by
  unfold startDeployment at h
  split at h
  · obtain ⟨current, hcur, rfl⟩ := Option.map_eq_some_iff.mp h
    exact ⟨current, hcur, rfl⟩
  · cases h

theorem receive_effect {m : Msg} (hi : s.Inv)
    (hk : s.mailbox[k]? = some m) (hs₀ : s₀ = { s with mailbox := s.mailbox.eraseIdx k })
    (h : s₀.receive m = some s') : Effect s (.deliver k) s' := by
  have hw : s.SameWork s₀ := by subst hs₀; exact ⟨rfl, rfl, rfl, rfl⟩
  have ht : s.tokens.Perm (m.token.toList ++ s₀.tokens) := by subst hs₀; exact tokens_deliver hk
  have hsub : s₀.tokens.Subperm s.tokens :=
    (List.sublist_append_right _ _).subperm.trans ht.symm.subperm
  have hsch : ∀ id, s₀.isScheduledDeployment id = s.isScheduledDeployment id := by
    intro id
    simp only [isScheduledDeployment, hw.running]
  cases m with
  | deploymentFinished plan result =>
    exact .cancels s₀ hw hsub (deploymentFinished_cancels h)
  | launchDeployment plan =>
    simp only [receive] at h
    split at h
    · rename_i hguard
      obtain ⟨info, hinfo, hstart⟩ := Option.bind_eq_some_iff.mp h
      obtain ⟨info', hinfo', hst⟩ := isScheduledDeployment_iff.mp hguard
      cases hinfo.symm.trans hinfo'
      have hmem : (plan, Stage.launching) ∈ s.tokens := ht.symm.subset (by simp [Msg.token])
      have hnodup := ((ht.map fun t => t.1.id).nodup_iff).mp hi.tokenNodup
      have hplan : info.plan = plan := by
        have hrun : s.runningDeployments.lookup plan.id = some info := hw.running ▸ hinfo
        have hknown := (hi.runningOk _ _ hrun).known
        rw [hi.runningId _ _ hrun, hi.tokenKnown _ hmem] at hknown
        exact (Option.some.inj hknown).symm
      obtain ⟨current, hcur, rfl⟩ := startDeployment_eq_some hstart
      rw [hplan] at hcur
      cases hinfo.symm.trans hcur
      refine .launches s₀ plan hw ht ?_
      exact
        { known := by rw [hw.seen]; exact hi.tokenKnown _ hmem
          fresh := by rw [hw.actors]; exact hi.tokenFresh _ hmem
          noToken := by
            intro t htok he
            simp only [Msg.token, Option.toList_some, List.cons_append, List.nil_append,
              List.map_cons, List.nodup_cons] at hnodup
            exact hnodup.1 (he ▸ List.mem_map_of_mem htok)
          seen := rfl
          running := ⟨info, hinfo, hst, by rw [hplan]⟩
          actors := by rw [hplan]
          stops := rfl
          tokens := rfl }
    · cases h
      exact .of_sameWork hw hsub
  | cancelDeletedConflicts plan conflicts =>
    simp only [receive] at h
    split at h
    · rename_i hguard
      simp only [cancelDeletedConflicts, Option.bind_eq_bind, Option.pure_def,
        Option.bind_eq_some_iff, Option.some.injEq] at h
      obtain ⟨s₁, hf, rfl⟩ := h
      exact .cancelsConflicts s₀ s₁ k plan conflicts rfl hk (by rw [← hsch]; exact hguard) hw ht
        hf ⟨rfl, rfl, rfl, rfl⟩ (tokens_await _ _)
    · cases h
      exact .of_sameWork hw hsub
  | waitForCanceledConflicts plan conflicts =>
    simp only [receive] at h
    split at h
    · rename_i hguard
      cases h
      exact .carries s₀ plan _ _ hw ht ⟨rfl, rfl, rfl, rfl⟩ (tokens_await _ _)
        (.waits k conflicts rfl hk (by rw [← hsch]; exact hguard))
    · cases h
      exact .of_sameWork hw hsub
  | failedRepositoryOperation plan =>
    simp only [receive] at h
    split at h
    · exact .cancels s₀ hw hsub (removeScheduled_cancels h).1
    · cases h
      exact .of_sameWork hw hsub

/-- The message an `async` block ends with carries its token on. -/
theorem continueAsync_token {a : Async} {rs : List Reply} {m : Msg}
    (h : s.continueAsync a = some (rs, m)) :
    ∃ st', m.token = some (a.token.1, st') ∧ Continues s e a.token.1 a.token.2 st' := by
  cases a with
  | startNonConflictingDeployment plan store =>
    simp only [continueAsync, Option.map_eq_some_iff] at h
    obtain ⟨ok, -, h⟩ := h
    cases ok <;> cases h
    · exact ⟨_, rfl, .fails _⟩
    · exact ⟨_, rfl, .stays _⟩
  | startConflictingDeployment plan conflicts deletes =>
    simp only [continueAsync, Option.map_eq_some_iff] at h
    obtain ⟨ok, -, h⟩ := h
    cases ok <;> cases h
    · exact ⟨_, rfl, .fails _⟩
    · exact ⟨_, rfl, .stays _⟩
  | cancelDeletedConflicts plan conflicts store =>
    simp only [continueAsync, Option.map_eq_some_iff] at h
    obtain ⟨ok, -, h⟩ := h
    cases ok <;> cases h
    · exact ⟨_, rfl, .fails _⟩
    · exact ⟨_, rfl, .stays _⟩
  | waitForCanceledConflicts plan cancellations =>
    simp only [continueAsync] at h
    split at h
    · rename_i hall
      cases h
      exact ⟨_, rfl, .waited _ (by simpa using hall)⟩
    · cases h

theorem step_effect (hi : s.Inv) (h : s.step e = some s') : Effect s e s' := by
  cases e with
  | startDeployment plan force =>
    simp only [step] at h
    split at h
    · cases h
    · rename_i hfresh
      cases h
      exact start_effect hfresh
  | cancelDeployment plan =>
    exact .cancels s ⟨rfl, rfl, rfl, rfl⟩ (List.Subperm.refl _) (cancelDeployment_cancels h)
  | deliver k =>
    simp only [step, Option.bind_eq_bind, Option.bind_eq_some_iff] at h
    obtain ⟨m, hk, hr⟩ := h
    exact receive_effect hi hk rfl hr
  | completeOp k ok =>
    simp only [step, Option.bind_eq_bind, Option.bind_eq_some_iff] at h
    obtain ⟨op, -, h⟩ := h
    split at h
    · cases h
    · cases h
      exact .of_sameWork ⟨rfl, rfl, rfl, rfl⟩ (List.Subperm.refl _)
  | resume k =>
    simp only [step, Option.bind_eq_bind, Option.bind_eq_some_iff, Option.pure_def,
      Option.some.injEq] at h
    obtain ⟨a, hk, ⟨rs, m⟩, hc, rfl⟩ := h
    obtain ⟨st', hm, hcont⟩ := continueAsync_token hc
    refine .carries { s with asyncs := s.asyncs.eraseIdx k } a.token.1 a.token.2 st'
      ⟨rfl, rfl, rfl, rfl⟩ (tokens_resume hk) ⟨rfl, rfl, rfl, rfl⟩ ?_ hcont
    have hsend := tokens_send { s with asyncs := s.asyncs.eraseIdx k } m
    rw [hm] at hsend
    exact (List.Perm.of_eq hsend).trans (List.perm_append_comm)
  | actorDone id result =>
    simp only [step, Option.bind_eq_bind, Option.bind_eq_some_iff] at h
    obtain ⟨a, ha, h⟩ := h
    split at h
    · rename_i hph
      cases h
      refine .advances id a .stopping ⟨ha, rfl, by simp [hph], rfl, rfl, rfl, ?_⟩
      rw [tokens_send, Msg.token, Option.toList_none, List.append_nil]
      rfl
    · cases h
  | actorCancelled id =>
    simp only [step, Option.bind_eq_bind, Option.bind_eq_some_iff] at h
    obtain ⟨a, ha, h⟩ := h
    split at h
    · rename_i hph
      cases h
      refine .advances id a .stopping ⟨ha, rfl, by simp [hph.1], rfl, rfl, rfl, ?_⟩
      rw [tokens_send, Msg.token, Option.toList_none, List.append_nil]
      rfl
    · cases h
  | actorCrashed id =>
    simp only [step, Option.bind_eq_bind, Option.bind_eq_some_iff] at h
    obtain ⟨a, ha, h⟩ := h
    split at h
    · rename_i hph
      cases h
      exact .advances id a .stopping ⟨ha, rfl, by simp [hph], rfl, rfl, rfl, rfl⟩
    · cases h
  | actorTerminated id =>
    simp only [step, Option.bind_eq_bind, Option.bind_eq_some_iff] at h
    obtain ⟨a, ha, h⟩ := h
    split at h
    · rename_i hph
      cases h
      exact .advances id a .terminated ⟨ha, rfl, by simp [hph], rfl, rfl, rfl, rfl⟩
    · cases h
  | stopActorTerminated k =>
    simp only [step, Option.bind_eq_bind, Option.bind_eq_some_iff] at h
    obtain ⟨stop, hk, a, ha, h⟩ := h
    split at h
    · rename_i hph
      cases h
      exact .stopDone k stop a hk ha hph rfl
    · cases h

/-! ## The invariant of every run -/

theorem inv_initial (repository : Dict String Plan) : (initial repository).Inv where
  runningId _ _ h := by simp [initial] at h
  runningOk _ _ h := by simp [initial] at h
  runningFresh _ _ h := by simp [initial] at h
  actorId _ _ h := by simp [initial] at h
  actorKnown _ _ h := by simp [initial] at h
  stopDone _ h := by simp [initial] at h
  tokenKnown _ h := by simp [initial, tokens] at h
  tokenFresh _ h := by simp [initial, tokens] at h
  tokenNodup := by simp [initial, tokens]
  snapshotOk _ h := by simp [initial, tokens] at h

theorem Inv.head_fresh (hi : s.Inv)
    (ht : s.tokens.Perm (t :: s₀.tokens)) : ∀ u ∈ s₀.tokens, u.1.id ≠ t.1.id := by
  intro u hu he
  have hn := ((ht.map fun t => t.1.id).nodup_iff).mp hi.tokenNodup
  rw [List.map_cons, List.nodup_cons] at hn
  exact hn.1 (he ▸ List.mem_map_of_mem hu)

theorem Inv.of_perm_cons (hi : s.Inv) (hw : s.SameWork s₀)
    (ht : s.tokens.Perm (t :: s₀.tokens)) : s₀.Inv :=
  hi.dropTokens hw ((List.sublist_cons_self _ _).subperm.trans ht.symm.subperm)

theorem Continues.conflicts_subset {st st' : Stage}
    (h : Continues s e plan st st') : st'.conflicts ⊆ st.conflicts := by
  cases h <;> simp [Stage.conflicts]

theorem inv_step (hi : s.Inv) (h : s.step e = some s') : s'.Inv := by
  cases step_effect hi h with
  | cancels s₀ hw ht hc => exact (hi.dropTokens hw ht).cancels hc
  | advances id a ph h => exact hi.advances h
  | stopDone k stop a hk ha hph hs =>
    subst hs
    exact hi.stopDone_set hk ha hph
  | starts plan force stage he h hst => exact hi.starts h
  | carries s₀ plan st st' hw ht hw' ht' hc =>
    have hmem : (plan, st) ∈ s.tokens := ht.symm.subset (List.mem_cons_self ..)
    have hknown : s.seen.lookup plan.id = some plan := hi.tokenKnown _ hmem
    have hfresh : plan.id ∉ s.deploymentActors := hi.tokenFresh _ hmem
    have hhead : ∀ u ∈ s₀.tokens, u.1.id ≠ plan.id := hi.head_fresh ht
    refine (hi.of_perm_cons hw ht).addToken hw' ht' (hw.seen ▸ hknown) (hw.actors ▸ hfresh)
      hhead ?_
    · intro info hinfo
      exact (hi.snapshotOk _ hmem info (hc.conflicts_subset hinfo)).mono hw.extends
  | cancelsConflicts s₀ s₁ k plan conflicts he hk hs hw ht hf hw' ht' =>
    have hmem : (plan, Stage.deleting conflicts) ∈ s.tokens :=
      ht.symm.subset (List.mem_cons_self ..)
    have hknown : s.seen.lookup plan.id = some plan := hi.tokenKnown _ hmem
    have hfresh : plan.id ∉ s.deploymentActors := hi.tokenFresh _ hmem
    have hhead : ∀ u ∈ s₀.tokens, u.1.id ≠ plan.id := hi.head_fresh ht
    have hcan := foldlM_cancelConflict_cancels hf
    refine ((hi.of_perm_cons hw ht).cancels hcan).addToken hw' ht' ?_ ?_ ?_ ?_
    · rw [hcan.seen, hw.seen]
      exact hknown
    · rw [hcan.mem_actors, hw.actors]
      exact hfresh
    · rw [hcan.tokens]
      exact hhead
    · intro info hinfo
      exact ((hi.snapshotOk _ hmem info hinfo).mono hw.extends).mono hcan.extends
  | launches s₀ plan hw ht h => exact (hi.of_perm_cons hw ht).launches h

end State

theorem inv_of_reachable (h : manager.Reachable s) : s.Inv :=
  h.invariant (I := State.Inv) (by rintro s ⟨repository, rfl⟩; exact State.inv_initial repository)
    fun _ _ _ hi _ hs => State.inv_step hi hs

end Marathon.Deployment
