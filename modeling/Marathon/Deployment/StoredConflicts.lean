import Marathon.Deployment.DeploymentExclusion
import Marathon.Deployment.RepositoryOps

/-!
# Conflicts in the repository

The plans in the repository have no run spec in common, as long as a plan is
started only when all the stored plans it conflicts with are still listed, and
stored only when no other forced plan has deleted it in the meantime.
-/

namespace Marathon.Deployment

open Marathon.Lib

/-- No two of the stored plans have a run spec in common. -/
def ConflictFree (repository : Dict String Plan) : Prop :=
  ∀ id₁ id₂ p₁ p₂, repository.lookup id₁ = some p₁ → repository.lookup id₂ = some p₂ →
    id₁ ≠ id₂ → ¬ p₁.Intersects p₂

/-- The plan that an operation stores, with the id under which it does. -/
def RepositoryOp.stores : RepositoryOp → Option (String × Plan)
  | .store plan => some (plan.id, plan)
  | .delete _ => none

/-- The conflicts that a plan is about to delete and cancel. -/
def Stage.deletes : Stage → List DeploymentInfo
  | .deleting conflicts => conflicts
  | _ => []

variable {s s' s₁ : State} {id id' : String} {ops : List RepositoryOp} {k n : ℕ}
  {action : RepositoryOp} {plan : Plan} {conflicts : List DeploymentInfo}

namespace State

/-- The plans in the repository and those whose `store` is pending. -/
def storedPlans (s : State) : List (String × Plan) :=
  s.repository.bindings ++ s.pendingOps.filterMap fun x => x.2.stores

/-- The condition on a new deployment: every plan that is stored or being stored and
conflicts with it is among the running conflicts. -/
def StoredListed (s : State) (plan : Plan) : Prop :=
  ∀ x ∈ s.storedPlans, x.1 ≠ plan.id → x.2.Intersects plan →
    ∃ info ∈ s.conflictingDeployments plan, info.plan.id = x.1

/-- The condition on a forced plan that is about to be stored: no other forced plan
that is still scheduled has deleted it. -/
def NotSuperseded (s : State) (plan : Plan) : Prop :=
  ∀ t ∈ s.tokens, s.isScheduledDeployment t.1.id → ∀ info ∈ t.2.deletes, info.plan.id ≠ plan.id

def StoresAlone (s : State) : Msg → Prop
  | .cancelDeletedConflicts plan _ => s.isScheduledDeployment plan.id → s.NotSuperseded plan
  | _ => True

/-- The steps that keep the stored plans apart. -/
def KeepsApart (s : State) : Event → Prop
  | .startDeployment plan force =>
    s.conflictingDeployments plan = [] ∨ force = true → s.StoredListed plan
  | .deliver k => ∀ m ∈ s.mailbox[k]?, s.StoresAlone m
  | _ => True

instance (s : State) (plan : Plan) : Decidable (s.StoredListed plan) :=
  inferInstanceAs (Decidable (∀ x ∈ s.storedPlans, x.1 ≠ plan.id → x.2.Intersects plan →
    ∃ info ∈ s.conflictingDeployments plan, info.plan.id = x.1))

instance (s : State) (plan : Plan) : Decidable (s.NotSuperseded plan) :=
  inferInstanceAs (Decidable (∀ t ∈ s.tokens, s.isScheduledDeployment t.1.id →
    ∀ info ∈ t.2.deletes, info.plan.id ≠ plan.id))

instance (s : State) : (m : Msg) → Decidable (s.StoresAlone m)
  | .cancelDeletedConflicts plan _ =>
    inferInstanceAs (Decidable (s.isScheduledDeployment plan.id → s.NotSuperseded plan))
  | .deploymentFinished _ _ | .launchDeployment _ | .failedRepositoryOperation _
  | .waitForCanceledConflicts _ _ => isTrue trivial

instance (s : State) : (e : Event) → Decidable (s.KeepsApart e)
  | .startDeployment plan force =>
    inferInstanceAs (Decidable (s.conflictingDeployments plan = [] ∨ force = true →
      s.StoredListed plan))
  | .deliver k => inferInstanceAs (Decidable (∀ m ∈ s.mailbox[k]?, s.StoresAlone m))
  | .cancelDeployment _ | .completeOp _ _ | .resume _ | .actorDone _ _ | .actorCancelled _
  | .actorCrashed _ | .actorTerminated _ | .stopActorTerminated _ => isTrue trivial

/-! ## What is stored after a step -/

theorem mem_storedPlans_of_lookup {p : Plan}
    (h : s.repository.lookup id = some p) : (id, p) ∈ s.storedPlans :=
  List.mem_append_left _ (Dict.mem_bindings.mpr h)

theorem Submits.storedPlans (h : s.Submits s' ops) :
    s'.storedPlans = s.storedPlans ++ ops.filterMap RepositoryOp.stores := by
  have hnew : ((ops.zipIdx s.nextOp).map fun x => (x.2, x.1)).filterMap
      (fun x : ℕ × RepositoryOp => x.2.stores) = ops.filterMap RepositoryOp.stores := by
    rw [List.filterMap_map, ← List.zipIdx_map_fst s.nextOp ops, List.filterMap_map,
      List.zipIdx_map_fst]
    rfl
  rw [State.storedPlans, h.repository, h.pendingOps, List.filterMap_append, hnew,
    ← List.append_assoc]
  rfl

theorem storedPlans_completed {ok : Bool} (hk : s.pendingOps[k]? = some (n, action)) :
    (s.completed k n action ok).storedPlans ⊆ s.storedPlans := by
  rintro ⟨id, p⟩ hmem
  rcases List.mem_append.mp hmem with hrep | hpend
  · have hl : (if ok then applyOp s.repository action else s.repository).lookup id = some p :=
      Dict.mem_bindings.mp hrep
    cases ok with
    | false => exact mem_storedPlans_of_lookup hl
    | true =>
      cases action with
      | store plan =>
        rcases Dict.lookup_insert_eq_some.mp hl with ⟨rfl, rfl⟩ | ⟨-, hl⟩
        · refine List.mem_append_right _ (List.mem_filterMap.mpr ?_)
          exact ⟨_, List.mem_of_getElem? hk, rfl⟩
        · exact mem_storedPlans_of_lookup hl
      | delete id' => exact mem_storedPlans_of_lookup (Dict.lookup_erase_eq_some.mp hl).2
  · obtain ⟨x, hx, hs⟩ := List.mem_filterMap.mp hpend
    exact List.mem_append_right _
      (List.mem_filterMap.mpr ⟨x, List.mem_of_mem_eraseIdx hx, hs⟩)

/-- Nothing is stored or being stored under the id. -/
def Cleared (s : State) (id : String) : Prop := ∀ x ∈ s.storedPlans, x.1 ≠ id

/-- The operation `n` is the deletion of `id`: it is pending with no later `store`, or
it has been successful, or it has failed. -/
def Clearing (s : State) (id : String) (n : ℕ) : Prop :=
  (∃ before after, s.pendingOps = before ++ (n, .delete id) :: after ∧
    ∀ x ∈ after, ∀ y ∈ x.2.stores, y.1 ≠ id) ∨
  (s.opResults.lookup n = some true ∧ s.Cleared id) ∨ s.opResults.lookup n = some false

theorem Cleared.submits (h : s.Cleared id) (hs : s.Submits s' ops)
    (hnew : ∀ op ∈ ops, ∀ y ∈ op.stores, y.1 ≠ id) : s'.Cleared id := by
  intro x hx
  rw [hs.storedPlans, List.mem_append] at hx
  rcases hx with hx | hx
  · exact h x hx
  · obtain ⟨op, hop, hst⟩ := List.mem_filterMap.mp hx
    exact hnew op hop x hst

theorem Clearing.submits (h : s.Clearing id n) (hs : s.Submits s' ops)
    (hnew : ∀ op ∈ ops, ∀ y ∈ op.stores, y.1 ≠ id) : s'.Clearing id n := by
  rcases h with ⟨before, after, hp, hafter⟩ | ⟨hr, hc⟩ | hr
  · refine .inl ⟨before, after ++ (ops.zipIdx s.nextOp).map fun x => (x.2, x.1), ?_, ?_⟩
    · rw [hs.pendingOps, hp, List.append_assoc, List.cons_append]
    · intro x hx
      rcases List.mem_append.mp hx with hx | hx
      · exact hafter x hx
      · obtain ⟨y, hy, rfl⟩ := List.mem_map.mp hx
        exact hnew y.1 (List.fst_mem_of_mem_zipIdx hy)
  · exact .inr (.inl ⟨hs.opResults ▸ hr, hc.submits hs hnew⟩)
  · exact .inr (.inr (hs.opResults ▸ hr))

theorem Clearing.completed {m : ℕ} {ok : Bool}
    (h : s.Clearing id m) (ho : s.OpsOk) (hk : s.pendingOps[k]? = some (n, action))
    (hfirst : ∀ op ∈ s.pendingOps.take k, op.2.key ≠ action.key) :
    (s.completed k n action ok).Clearing id m := by
  have hpend : n ∈ s.opNumbers :=
    List.mem_map_of_mem (f := Prod.fst) (List.mem_of_getElem? hk)
  have hother : m ≠ n → (s.opResults.insert n ok).lookup m = s.opResults.lookup m := fun hne =>
    AList.lookup_insert_ne hne
  have hresult : ∀ r, s.opResults.lookup m = some r → m ≠ n := by
    rintro r hr rfl
    rw [ho.noResult _ hpend] at hr
    cases hr
  rcases h with ⟨before, after, hp, hafter⟩ | ⟨hr, hc⟩ | hr
  · have hnum : s.opNumbers = before.map Prod.fst ++ m :: after.map Prod.fst := by
      rw [opNumbers, hp, List.map_append, List.map_cons]
    have hnodup := hnum ▸ ho.nodup
    rcases lt_trichotomy k before.length with hlt | rfl | hgt
    · -- an earlier operation is completed
      refine .inl ⟨before.eraseIdx k, after, ?_, hafter⟩
      show s.pendingOps.eraseIdx k = _
      rw [hp, List.eraseIdx_append_of_lt_length hlt]
    · -- the deletion itself is completed
      rw [hp, List.getElem?_append_right le_rfl, Nat.sub_self, List.getElem?_cons_zero] at hk
      obtain ⟨rfl, rfl⟩ := Prod.mk.inj (Option.some.inj hk)
      rw [hp, List.take_left'] at hfirst
      · cases ok with
        | false => exact .inr (.inr (AList.lookup_insert _))
        | true =>
          refine .inr (.inl ⟨AList.lookup_insert _, ?_⟩)
          rintro ⟨id', q⟩ hx rfl
          rcases List.mem_append.mp hx with hrep | hpnd
          · have hl : (s.repository.erase id').lookup id' = some q := Dict.mem_bindings.mp hrep
            rw [AList.lookup_erase] at hl
            cases hl
          · obtain ⟨x, hx, hst⟩ := List.mem_filterMap.mp hpnd
            have hx' : x ∈ before ++ after := by
              have herase : (s.completed before.length m (.delete id') true).pendingOps =
                  before ++ after := by
                show s.pendingOps.eraseIdx before.length = _
                rw [hp, List.eraseIdx_append_of_length_le le_rfl, Nat.sub_self,
                  List.eraseIdx_cons_zero]
              exact herase ▸ hx
            rcases List.mem_append.mp hx' with hb | ha
            · -- the repository completes the operations of one key in their order
              refine hfirst x hb ?_
              obtain ⟨j, op⟩ := x
              cases op with
              | store plan =>
                cases hst
                rfl
              | delete _ => cases hst
            · exact hafter x ha (id', q) hst rfl
      · rfl
    · -- a later operation is completed
      refine .inl ⟨before, after.eraseIdx (k - before.length - 1), ?_, fun x hx =>
        hafter x (List.mem_of_mem_eraseIdx hx)⟩
      show s.pendingOps.eraseIdx k = _
      obtain ⟨j, hj⟩ : ∃ j, k - before.length = j + 1 := ⟨k - before.length - 1, by omega⟩
      rw [hp, List.eraseIdx_append_of_length_le hgt.le, hj, List.eraseIdx_cons_succ,
        Nat.add_sub_cancel]
  · refine .inr (.inl ⟨(hother (hresult _ hr)).trans hr, ?_⟩)
    exact fun x hx => hc x (storedPlans_completed hk hx)
  · exact .inr (.inr ((hother (hresult _ hr)).trans hr))

/-! ## The invariant -/

/-- The plan is scheduled and about to delete and cancel these conflicts. -/
def Deleting (s : State) (plan : Plan) (conflicts : List DeploymentInfo) : Prop :=
  (plan, Stage.deleting conflicts) ∈ s.tokens ∧ s.isScheduledDeployment plan.id

structure Apart (s : State) : Prop where
  apart : ∀ x ∈ s.storedPlans, ∀ y ∈ s.storedPlans, x.1 ≠ y.1 → ¬ x.2.Intersects y.2
  /-- What conflicts with a plan and may be stored is among the conflicts it deletes. -/
  foreseen : ∀ plan conflicts, s.Deleting plan conflicts → ∀ x ∈ s.storedPlans,
    x.1 ≠ plan.id → x.2.Intersects plan → ∃ info ∈ conflicts, info.plan.id = x.1
  /-- Of two plans that conflict, one deletes the other. -/
  crossed : ∀ plan conflicts other others, s.Deleting plan conflicts → s.Deleting other others →
    plan.id ≠ other.id → plan.Intersects other →
    (∃ info ∈ conflicts, info.plan.id = other.id) ∨ ∃ info ∈ others, info.plan.id = plan.id
  clearing : ∀ plan conflicts deletes,
    .startConflictingDeployment plan conflicts deletes ∈ s.asyncs →
    s.isScheduledDeployment plan.id →
    List.Forall₂ (fun info n => s.Clearing info.plan.id n) conflicts deletes
  cleared : ∀ plan conflicts, .cancelDeletedConflicts plan conflicts ∈ s.mailbox →
    s.isScheduledDeployment plan.id → ∀ info ∈ conflicts, s.Cleared info.plan.id

theorem mem_tokens_deleting :
    (plan, Stage.deleting conflicts) ∈ s.tokens ↔
      (∃ deletes, .startConflictingDeployment plan conflicts deletes ∈ s.asyncs) ∨
        .cancelDeletedConflicts plan conflicts ∈ s.mailbox := by
  simp only [tokens, List.mem_append, List.mem_map, List.mem_filterMap]
  refine or_congr ⟨?_, ?_⟩ ⟨?_, ?_⟩
  · rintro ⟨a, ha, he⟩
    cases a <;> cases he
    exact ⟨_, ha⟩
  · rintro ⟨deletes, ha⟩
    exact ⟨_, ha, rfl⟩
  · rintro ⟨m, hm, he⟩
    cases m <;> cases he
    exact hm
  · intro hm
    exact ⟨_, hm, rfl⟩

/-- No scheduled plan gets conflicts to delete from `s` to `s'`. -/
structure Narrows (s s' : State) : Prop where
  asyncs : ∀ plan conflicts deletes,
    .startConflictingDeployment plan conflicts deletes ∈ s'.asyncs →
      s'.isScheduledDeployment plan.id →
      .startConflictingDeployment plan conflicts deletes ∈ s.asyncs ∧
        s.isScheduledDeployment plan.id
  messages : ∀ plan conflicts, .cancelDeletedConflicts plan conflicts ∈ s'.mailbox →
    s'.isScheduledDeployment plan.id →
    .cancelDeletedConflicts plan conflicts ∈ s.mailbox ∧ s.isScheduledDeployment plan.id

theorem Narrows.deleting (h : s.Narrows s') (hd : s'.Deleting plan conflicts) :
    s.Deleting plan conflicts := by
  rcases mem_tokens_deleting.mp hd.1 with ⟨deletes, ha⟩ | hm
  · obtain ⟨ha', hsch⟩ := h.asyncs _ _ _ ha hd.2
    exact ⟨mem_tokens_deleting.mpr (.inl ⟨deletes, ha'⟩), hsch⟩
  · obtain ⟨hm', hsch⟩ := h.messages _ _ hm hd.2
    exact ⟨mem_tokens_deleting.mpr (.inr hm'), hsch⟩

theorem Apart.narrows (h : s.Apart) (hn : s.Narrows s')
    (hs : s.Submits s' ops) (hops : ∀ op ∈ ops, op.stores = none) : s'.Apart := by
  have hnew : ∀ id, ∀ op ∈ ops, ∀ y ∈ op.stores, y.1 ≠ id := by
    intro id op hop y hy
    rw [hops op hop] at hy
    cases hy
  have hstored : s'.storedPlans = s.storedPlans := by
    rw [hs.storedPlans, List.filterMap_eq_nil_iff.mpr hops, List.append_nil]
  exact
    { apart := by rw [hstored]; exact h.apart
      foreseen := by
        intro plan conflicts hd
        rw [hstored]
        exact h.foreseen plan conflicts (hn.deleting hd)
      crossed := fun plan conflicts other others hd hd' =>
        h.crossed plan conflicts other others (hn.deleting hd) (hn.deleting hd')
      clearing := by
        intro plan conflicts deletes ha hsch
        obtain ⟨ha', hsch'⟩ := hn.asyncs _ _ _ ha hsch
        exact (h.clearing plan conflicts deletes ha' hsch').imp fun info n hc =>
          hc.submits hs (hnew _)
      cleared := by
        intro plan conflicts hm hsch info hinfo
        obtain ⟨hm', hsch'⟩ := hn.messages _ _ hm hsch
        exact (h.cleared plan conflicts hm' hsch' info hinfo).submits hs (hnew _) }

/-- One more plan is being stored. -/
theorem Apart.stores (h : s.Apart) (hn : s.Narrows s') (hs : s.Submits s' [.store plan])
    (hfree : ∀ x ∈ s.storedPlans, x.1 ≠ plan.id → ¬ x.2.Intersects plan)
    (hforeseen : ∀ other others, s'.Deleting other others → plan.id ≠ other.id →
      plan.Intersects other → ∃ info ∈ others, info.plan.id = plan.id)
    (hkept : ∀ other others, s'.Deleting other others → ∀ info ∈ others,
      info.plan.id ≠ plan.id) : s'.Apart := by
  have hstored : s'.storedPlans = s.storedPlans ++ [(plan.id, plan)] := hs.storedPlans
  have hnew : ∀ other others, s'.Deleting other others → ∀ info ∈ others,
      ∀ op ∈ [RepositoryOp.store plan], ∀ y ∈ op.stores, y.1 ≠ info.plan.id := by
    intro other others hd info hinfo op hop y hy
    obtain rfl := List.mem_singleton.mp hop
    cases hy
    exact (hkept other others hd info hinfo).symm
  exact
    { apart := by
        intro x hx y hy hne
        rw [hstored, List.mem_append, List.mem_singleton] at hx hy
        rcases hx with hx | rfl
        · rcases hy with hy | rfl
          · exact h.apart x hx y hy hne
          · exact hfree x hx hne
        · rcases hy with hy | rfl
          · exact fun hint => hfree y hy hne.symm hint.symm
          · exact absurd rfl hne
      foreseen := by
        intro other others hd x hx hne hint
        rw [hstored, List.mem_append, List.mem_singleton] at hx
        rcases hx with hx | rfl
        · exact h.foreseen other others (hn.deleting hd) x hx hne hint
        · exact hforeseen other others hd hne hint
      crossed := fun p ps q qs hd hd' => h.crossed p ps q qs (hn.deleting hd) (hn.deleting hd')
      clearing := by
        intro other others deletes ha hsch
        have hd : s'.Deleting other others := ⟨mem_tokens_deleting.mpr (.inl ⟨deletes, ha⟩), hsch⟩
        obtain ⟨ha', hsch'⟩ := hn.asyncs _ _ _ ha hsch
        have hold := h.clearing other others deletes ha' hsch'
        rw [List.forall₂_iff_zip] at hold ⊢
        refine ⟨hold.1, fun hz => ?_⟩
        exact (hold.2 hz).submits hs (hnew other others hd _ (List.of_mem_zip hz).1)
      cleared := by
        intro other others hm hsch info hinfo
        have hd : s'.Deleting other others := ⟨mem_tokens_deleting.mpr (.inr hm), hsch⟩
        obtain ⟨hm', hsch'⟩ := hn.messages _ _ hm hsch
        exact (h.cleared other others hm' hsch' info hinfo).submits hs
          (hnew other others hd info hinfo) }

/-- Where no plan becomes scheduled, no `async` block and no message is enough to add. -/
theorem Narrows.of_scheduled (hsch : ∀ id, s'.isScheduledDeployment id → s.isScheduledDeployment id)
    (ha : ∀ plan conflicts deletes,
      .startConflictingDeployment plan conflicts deletes ∈ s'.asyncs →
        .startConflictingDeployment plan conflicts deletes ∈ s.asyncs)
    (hm : ∀ plan conflicts, .cancelDeletedConflicts plan conflicts ∈ s'.mailbox →
      .cancelDeletedConflicts plan conflicts ∈ s.mailbox) : s.Narrows s' where
  asyncs _ _ _ h hs := ⟨ha _ _ _ h, hsch _ hs⟩
  messages _ _ h hs := ⟨hm _ _ h, hsch _ hs⟩

theorem isScheduledDeployment_of_erase (hr : s'.runningDeployments = s.runningDeployments.erase id)
    (h : s'.isScheduledDeployment id') : s.isScheduledDeployment id' := by
  obtain ⟨info, hl, hst⟩ := isScheduledDeployment_iff.mp h
  rw [hr] at hl
  exact isScheduledDeployment_iff.mpr ⟨info, (Dict.lookup_erase_eq_some.mp hl).2, hst⟩

theorem isScheduledDeployment_of_insert {info : DeploymentInfo}
    (hr : s'.runningDeployments = s.runningDeployments.insert id info)
    (hne : info.status ≠ .scheduled) (h : s'.isScheduledDeployment id') :
    s.isScheduledDeployment id' := by
  obtain ⟨info', hl, hst⟩ := isScheduledDeployment_iff.mp h
  rw [hr] at hl
  rcases Dict.lookup_insert_eq_some.mp hl with ⟨-, rfl⟩ | ⟨-, hl⟩
  · exact absurd hst hne
  · exact isScheduledDeployment_iff.mpr ⟨info', hl, hst⟩

/-- The steps that hand over no `store` and complete nothing. -/
inductive Harmless (s s' : State) : Prop
  | narrows (ops : List RepositoryOp) (hn : s.Narrows s') (hs : s.Submits s' ops)
      (hops : ∀ op ∈ ops, op.stores = none)

theorem Harmless.of_scheduled (hs : s.Submits s' [])
    (hsch : ∀ id, s'.isScheduledDeployment id → s.isScheduledDeployment id)
    (ha : s'.asyncs = s.asyncs) (hm : s'.mailbox ⊆ s.mailbox) : Harmless s s' := by
  refine .narrows [] (.of_scheduled hsch ?_ fun _ _ h => hm h) hs (by simp)
  intro plan conflicts deletes h
  rw [ha] at h
  exact h

theorem Apart.harmless (h : s.Apart) (hh : Harmless s s') : s'.Apart := by
  obtain ⟨ops, hn, hs, hops⟩ := hh
  exact h.narrows hn hs hops

/-! ## The steps that store -/

theorem Apart.starts (hi : s.Inv) (h : s.Apart)
    (hfresh : plan.id ∉ s.seen) (hc : s.conflictingDeployments plan = [])
    (hlisted : s.StoredListed plan) : (s.startNonConflictingDeployment plan).Apart := by
  have hknown : ∀ id p, s.seen.lookup id = some p → id ≠ plan.id := by
    rintro id p hl rfl
    exact hfresh (Dict.mem_of_lookup_eq_some hl)
  have hold : ∀ id, id ≠ plan.id → (s.startNonConflictingDeployment plan).isScheduledDeployment id →
      s.isScheduledDeployment id := by
    intro id hne hs
    obtain ⟨info, hl, hst⟩ := isScheduledDeployment_iff.mp hs
    refine isScheduledDeployment_iff.mpr ⟨info, ?_, hst⟩
    have hl' : (s.runningDeployments.insert plan.id _).lookup id = some info := hl
    rwa [AList.lookup_insert_ne hne] at hl'
  have htoken : ∀ t ∈ s.tokens, t.1.id ≠ plan.id := fun t ht => hknown _ _ (hi.tokenKnown t ht)
  have hn : s.Narrows (s.startNonConflictingDeployment plan) := by
    constructor
    · intro other others deletes ha hsch
      have ha' : .startConflictingDeployment other others deletes ∈ s.asyncs := by
        rcases List.mem_append.mp ha with ha | ha
        · exact ha
        · cases List.mem_singleton.mp ha
      exact ⟨ha', hold _ (htoken _ (mem_tokens_deleting.mpr (.inl ⟨deletes, ha'⟩))) hsch⟩
    · intro other others hm hsch
      exact ⟨hm, hold _ (htoken _ (mem_tokens_deleting.mpr (.inr hm))) hsch⟩
  refine h.stores hn ⟨rfl, rfl, rfl, rfl⟩ ?_ ?_ ?_
  · intro x hx hne hint
    obtain ⟨info, hinfo, -⟩ := hlisted x hx hne hint
    rw [hc] at hinfo
    cases hinfo
  · -- a scheduled plan that conflicts with the new one would be among the conflicts
    intro other others hd hne hint
    obtain ⟨htok, hsch⟩ := hn.deleting hd
    obtain ⟨info, hl, -⟩ := isScheduledDeployment_iff.mp hsch
    have hplan : info.plan = other := hi.plan_of_token htok hl
    have hmem : info ∈ s.conflictingDeployments plan :=
      List.mem_filter.mpr ⟨Dict.mem_values.mpr ⟨_, hl⟩, by simpa [hplan] using hint.symm⟩
    rw [hc] at hmem
    cases hmem
  · intro other others hd info hinfo
    have hok := hi.snapshotOk _ (hn.deleting hd).1 info hinfo
    exact hknown _ _ hok.known

theorem not_scheduled_of_cancelled {other : Plan} {stage : Stage}
    {info : DeploymentInfo} (hi : s.Inv)
    (hk : s.mailbox[k]? = some (.cancelDeletedConflicts plan conflicts))
    (hf : (conflicts.filter fun info => info.plan.id ∈ s.runningDeployments).foldlM
      cancelConflict (s.delivered k) = some s₁)
    (ht : (other, stage) ∈ s.tokens) (hinfo : info ∈ conflicts) (hid : info.plan.id = other.id) :
    ¬ s₁.isScheduledDeployment other.id := by
  intro hsch
  obtain ⟨cur, hcur, hst⟩ := isScheduledDeployment_iff.mp hsch
  have hold : s.runningDeployments.lookup other.id = some cur :=
    (foldlM_cancelConflict_cancels hf).of_scheduled hcur hst
  have hmine : (plan, Stage.deleting conflicts) ∈ s.tokens :=
    (tokens_deliver hk).symm.subset List.mem_cons_self
  have hsnap : info.status = .scheduled := by
    by_contra hne
    exact hi.tokenFresh _ ht (hid ▸ ((hi.snapshotOk _ hmine info hinfo).launched hne).2)
  have hknown : info ∈ conflicts.filter fun info => info.plan.id ∈ s.runningDeployments := by
    refine List.mem_filter.mpr ⟨hinfo, ?_⟩
    simpa [hid] using Dict.mem_of_lookup_eq_some hold
  have hgone := foldlM_cancelConflict_removed hf hknown hsnap
  rw [hid, hcur] at hgone
  cases hgone

theorem storing_submits
    (h : (s.delivered k).SameStore s₁) : s.Submits (s₁.storing plan conflicts) [.store plan] where
  pendingOps := by
    simp only [storing, await, submit, h.pendingOps, h.nextOp]
    rfl
  nextOp := by
    simp only [storing, await, submit, h.nextOp]
    rfl
  opResults := h.opResults
  repository := h.repository

theorem Apart.cancelsConflicts (hi : s.Inv) (h : s.Apart)
    (hk : s.mailbox[k]? = some (.cancelDeletedConflicts plan conflicts))
    (hsch : s.isScheduledDeployment plan.id)
    (hf : (conflicts.filter fun info => info.plan.id ∈ s.runningDeployments).foldlM
      cancelConflict (s.delivered k) = some s₁)
    (hok : s.NotSuperseded plan) : (s₁.storing plan conflicts).Apart := by
  have hsame := foldlM_cancelConflict_sameStore hf
  have hcan := foldlM_cancelConflict_cancels hf
  have hmine : (plan, Stage.deleting conflicts) ∈ s.tokens :=
    (tokens_deliver hk).symm.subset List.mem_cons_self
  have hn : s.Narrows (s₁.storing plan conflicts) := by
    refine .of_scheduled ?_ ?_ ?_
    · intro id hs
      obtain ⟨info, hl, hst⟩ := isScheduledDeployment_iff.mp hs
      exact isScheduledDeployment_iff.mpr ⟨info, hcan.of_scheduled hl hst, hst⟩
    · intro other others deletes ha
      rcases List.mem_append.mp ha with ha | ha
      · have ha' : .startConflictingDeployment other others deletes ∈ s₁.asyncs := ha
        rw [hsame.asyncs] at ha'
        exact ha'
      · cases List.mem_singleton.mp ha
    · intro other others hm
      have hm' : .cancelDeletedConflicts other others ∈ s₁.mailbox := hm
      rw [hsame.mailbox] at hm'
      exact List.mem_of_mem_eraseIdx hm'
  refine h.stores hn (storing_submits hsame) ?_ ?_ ?_
  · -- what conflicts has been deleted, and nothing is stored under its id any more
    intro x hx hne hint
    obtain ⟨info, hinfo, hid⟩ := h.foreseen plan conflicts ⟨hmine, hsch⟩ x hx hne hint
    exact h.cleared plan conflicts (List.mem_of_getElem? hk) hsch info hinfo x hx hid.symm
  · intro other others hd hne hint
    have hd' := hn.deleting hd
    rcases h.crossed plan conflicts other others ⟨hmine, hsch⟩ hd' hne hint with
      ⟨info, hinfo, hid⟩ | hdeleted
    · have hs₁ : s₁.isScheduledDeployment other.id := hd.2
      exact absurd hs₁ (not_scheduled_of_cancelled hi hk hf hd'.1 hinfo hid)
    · exact hdeleted
  · intro other others hd info hinfo
    have hd' := hn.deleting hd
    exact hok _ hd'.1 hd'.2 info hinfo

/-! ## The other steps -/

theorem clearing_deleteAll (infos : List DeploymentInfo) {before : List (ℕ × RepositoryOp)}
    (hp : s.pendingOps = before ++
      (infos.zipIdx n).map fun x => (x.2, RepositoryOp.delete x.1.plan.id)) :
    List.Forall₂ (fun info m => s.Clearing info.plan.id m) infos
      (List.range' n infos.length) := by
  induction infos generalizing n before with
  | nil => exact .nil
  | cons info rest ih =>
    rw [List.zipIdx_cons, List.map_cons] at hp
    rw [List.length_cons, List.range'_succ]
    have hrest : s.pendingOps = (before ++ [(n, .delete info.plan.id)]) ++
        (rest.zipIdx (n + 1)).map fun x => (x.2, RepositoryOp.delete x.1.plan.id) := by
      rw [hp, List.append_assoc, List.singleton_append]
    refine .cons (.inl ⟨before, _, hp, ?_⟩) (ih hrest)
    intro x hx y hy
    obtain ⟨z, -, rfl⟩ := List.mem_map.mp hx
    cases hy

theorem Apart.forces (hi : s.Inv) (h : s.Apart)
    (hfresh : plan.id ∉ s.seen) (hlisted : s.StoredListed plan) :
    (s.startConflictingDeployment plan (s.conflictingDeployments plan)).Apart := by
  have hsub := deleteAll_submits (s.markScheduled plan) (s.conflictingDeployments plan)
  have hpend := congrArg (fun r => r.1.pendingOps)
    (deleteAll_eq (s.markScheduled plan) (s.conflictingDeployments plan))
  set s' := s.startConflictingDeployment plan (s.conflictingDeployments plan) with hs'
  have hsubmits : s.Submits s' ((s.conflictingDeployments plan).map fun info =>
      .delete info.plan.id) :=
    ⟨hsub.pendingOps, hsub.nextOp, hsub.opResults, hsub.repository⟩
  have hnone : ∀ op ∈ (s.conflictingDeployments plan).map fun info =>
      RepositoryOp.delete info.plan.id, op.stores = none := by
    intro op hop
    obtain ⟨info, -, rfl⟩ := List.mem_map.mp hop
    rfl
  have hstored : s'.storedPlans = s.storedPlans := by
    rw [hsubmits.storedPlans, List.filterMap_eq_nil_iff.mpr hnone, List.append_nil]
  have hkeep : ∀ id, ∀ op ∈ (s.conflictingDeployments plan).map fun info =>
      RepositoryOp.delete info.plan.id, ∀ y ∈ op.stores, y.1 ≠ id := by
    intro id op hop y hy
    rw [hnone op hop] at hy
    cases hy
  have hasyncs : s'.asyncs = s.asyncs ++ [.startConflictingDeployment plan
      (s.conflictingDeployments plan)
      (List.range' s.nextOp (s.conflictingDeployments plan).length)] := by
    rw [hs', startConflictingDeployment, deleteAll_eq]
    rfl
  have hmail : s'.mailbox = s.mailbox := by
    rw [hs', startConflictingDeployment, deleteAll_eq]
    rfl
  have hrun : ∀ id, id ≠ plan.id →
      s'.runningDeployments.lookup id = s.runningDeployments.lookup id := by
    intro id hne
    have hr : s'.runningDeployments = (s.markScheduled plan).runningDeployments := by
      rw [hs', startConflictingDeployment, deleteAll_eq]
      rfl
    rw [hr]
    exact AList.lookup_insert_ne hne
  have hold : ∀ t ∈ s.tokens, s'.isScheduledDeployment t.1.id →
      s.isScheduledDeployment t.1.id := by
    intro t ht hs
    have hne : t.1.id ≠ plan.id := by
      intro he
      exact hfresh (he ▸ Dict.mem_of_lookup_eq_some (hi.tokenKnown t ht))
    simpa only [isScheduledDeployment, hrun _ hne] using hs
  have hdel : ∀ other others, s'.Deleting other others → s.Deleting other others ∨
      other = plan ∧ others = s.conflictingDeployments plan := by
    intro other others hd
    rcases mem_tokens_deleting.mp hd.1 with ⟨deletes, ha⟩ | hm
    · rw [hasyncs, List.mem_append, List.mem_singleton] at ha
      rcases ha with ha | ha
      · have htok := mem_tokens_deleting.mpr (.inl ⟨deletes, ha⟩)
        exact .inl ⟨htok, hold _ htok hd.2⟩
      · cases ha
        exact .inr ⟨rfl, rfl⟩
    · rw [hmail] at hm
      have htok := mem_tokens_deleting.mpr (.inr hm)
      exact .inl ⟨htok, hold _ htok hd.2⟩
  have hlist : ∀ other others, s.Deleting other others → other.Intersects plan →
      ∃ info ∈ s.conflictingDeployments plan, info.plan.id = other.id := by
    rintro other others ⟨htok, hsch⟩ hint
    obtain ⟨info, hl, -⟩ := isScheduledDeployment_iff.mp hsch
    have hplan : info.plan = other := hi.plan_of_token htok hl
    exact ⟨info, List.mem_filter.mpr ⟨Dict.mem_values.mpr ⟨_, hl⟩, by simpa [hplan] using hint⟩,
      by rw [hplan]⟩
  exact
    { apart := by rw [hstored]; exact h.apart
      foreseen := by
        intro other others hd
        rw [hstored]
        rcases hdel other others hd with hd | ⟨rfl, rfl⟩
        · exact h.foreseen other others hd
        · exact hlisted
      crossed := by
        intro p ps q qs hp hq hne hint
        rcases hdel p ps hp with hp' | ⟨ep, eps⟩
        · rcases hdel q qs hq with hq' | ⟨eq, eqs⟩
          · exact h.crossed p ps q qs hp' hq' hne hint
          · rw [eqs]
            exact .inr (hlist p ps hp' (eq ▸ hint))
        · rcases hdel q qs hq with hq' | ⟨eq, -⟩
          · rw [eps]
            exact .inl (hlist q qs hq' (ep ▸ hint.symm))
          · exact absurd (congrArg Plan.id (ep.trans eq.symm)) hne
      clearing := by
        intro other others deletes ha hsch
        rw [hasyncs, List.mem_append, List.mem_singleton] at ha
        rcases ha with ha | ha
        · have htok := mem_tokens_deleting.mpr (.inl ⟨deletes, ha⟩)
          exact (h.clearing other others deletes ha (hold _ htok hsch)).imp fun info n hc =>
            hc.submits hsubmits (hkeep _)
        · cases ha
          exact clearing_deleteAll _ hpend
      cleared := by
        intro other others hm hsch info hinfo
        rw [hmail] at hm
        have htok := mem_tokens_deleting.mpr (.inr hm)
        exact (h.cleared other others hm (hold _ htok hsch) info hinfo).submits hsubmits
          (hkeep _) }

theorem Apart.completes {ok : Bool}
    (ho : s.OpsOk) (h : s.Apart) (hk : s.pendingOps[k]? = some (n, action))
    (hfirst : ∀ op ∈ s.pendingOps.take k, op.2.key ≠ action.key) :
    (s.completed k n action ok).Apart where
  apart x hx y hy := h.apart x (storedPlans_completed hk hx) y (storedPlans_completed hk hy)
  foreseen plan conflicts hd x hx :=
    h.foreseen plan conflicts hd x (storedPlans_completed hk hx)
  crossed := h.crossed
  clearing plan conflicts deletes ha hsch :=
    (h.clearing plan conflicts deletes ha hsch).imp fun _ _ hc => hc.completed ho hk hfirst
  cleared plan conflicts hm hsch info hinfo x hx :=
    h.cleared plan conflicts hm hsch info hinfo x (storedPlans_completed hk hx)

theorem sequence_eq_true {l : List (Option Bool)} :
    sequence l = some true ↔ ∀ x ∈ l, x = some true := by
  induction l with
  | nil => simp [sequence]
  | cons x rest ih =>
    cases x with
    | none => simp [sequence]
    | some b => cases b <;> simp [sequence, ih]

theorem continueAsync_cancelDeletedConflicts {a : Async} {rs : List Reply}
    (h : s.continueAsync a = some (rs, .cancelDeletedConflicts plan conflicts)) :
    ∃ deletes, a = .startConflictingDeployment plan conflicts deletes ∧
      ∀ n ∈ deletes, s.opResults.lookup n = some true := by
  cases a with
  | startNonConflictingDeployment p store =>
    obtain ⟨ok, -, he⟩ := Option.map_eq_some_iff.mp h
    cases ok <;> cases he
  | cancelDeletedConflicts p cs store =>
    obtain ⟨ok, -, he⟩ := Option.map_eq_some_iff.mp h
    cases ok <;> cases he
  | waitForCanceledConflicts p cs =>
    simp only [continueAsync] at h
    split at h <;> cases h
  | startConflictingDeployment p cs deletes =>
    obtain ⟨ok, hok, he⟩ := Option.map_eq_some_iff.mp h
    cases ok <;> cases he
    refine ⟨deletes, rfl, fun n hn => ?_⟩
    exact sequence_eq_true.mp hok _ (List.mem_map_of_mem hn)

theorem Apart.resumes {a : Async} {rs : List Reply} {m : Msg}
    (h : s.Apart) (ho : s.OpsOk) (hk : s.asyncs[k]? = some a)
    (hc : s.continueAsync a = some (rs, m)) : (s.resumed k rs m).Apart := by
  have hdel : ∀ plan conflicts, (s.resumed k rs m).Deleting plan conflicts →
      s.Deleting plan conflicts := by
    rintro plan conflicts ⟨htok, hsch⟩
    refine ⟨mem_tokens_deleting.mpr ?_, hsch⟩
    rcases mem_tokens_deleting.mp htok with ⟨deletes, ha⟩ | hm
    · exact .inl ⟨deletes, List.mem_of_mem_eraseIdx ha⟩
    · rcases List.mem_append.mp hm with hm | hm
      · exact .inr hm
      · obtain rfl := List.mem_singleton.mp hm
        obtain ⟨deletes, rfl, -⟩ := continueAsync_cancelDeletedConflicts hc
        exact .inl ⟨deletes, List.mem_of_getElem? hk⟩
  exact
    { apart := h.apart
      foreseen := fun plan conflicts hd => h.foreseen plan conflicts (hdel _ _ hd)
      crossed := fun p ps q qs hp hq => h.crossed p ps q qs (hdel _ _ hp) (hdel _ _ hq)
      clearing := fun plan conflicts deletes ha hsch =>
        h.clearing plan conflicts deletes (List.mem_of_mem_eraseIdx ha) hsch
      cleared := by
        intro plan conflicts hm hsch info hinfo
        rcases List.mem_append.mp hm with hm | hm
        · exact h.cleared plan conflicts hm hsch info hinfo
        · obtain rfl := List.mem_singleton.mp hm
          obtain ⟨deletes, rfl, hall⟩ := continueAsync_cancelDeletedConflicts hc
          have hclear := h.clearing plan conflicts deletes (List.mem_of_getElem? hk) hsch
          obtain ⟨j, hj, rfl⟩ := List.mem_iff_getElem.mp hinfo
          have hj' : j < deletes.length := hclear.length_eq ▸ hj
          have hres := hall _ (List.getElem_mem hj')
          rcases hclear.get hj hj' with ⟨before, after, hp, -⟩ | ⟨-, hcleared⟩ | hfalse
          · -- a pending operation has no result
            have hpend : deletes[j] ∈ s.opNumbers := by
              rw [opNumbers, hp]
              simp
            rw [ho.noResult _ hpend] at hres
            cases hres
          · exact hcleared
          · have hfalse' : s.opResults.lookup deletes[j] = some false := hfalse
            rw [hres] at hfalse'
            cases hfalse' }

theorem apart_step {e : Event} (hi : s.Inv) (ho : s.OpsOk) (h : s.Apart)
    (hok : s.KeepsApart e) (ha : Act s e s') : s'.Apart := by
  have hempty : ∀ t : State, t.pendingOps = s.pendingOps → t.nextOp = s.nextOp →
      t.opResults = s.opResults → t.repository = s.repository → s.Submits t [] := by
    intro t hp hn hr hrep
    exact ⟨by simpa using hp, by simpa using hn, hr, hrep⟩
  cases ha with
  | starts plan force hfresh hc => exact h.starts hi hfresh hc (hok (.inl hc))
  | forces plan hfresh => exact h.forces hi hfresh (hok (.inr rfl))
  | givesUp plan =>
    exact h.harmless (.of_scheduled (hempty _ rfl rfl rfl rfl) (fun _ hs => hs) rfl (fun _ hm => hm))
  | cancelsScheduled plan info r hl hst =>
    exact h.harmless (.of_scheduled (hempty _ rfl rfl rfl rfl)
      (fun _ hs => isScheduledDeployment_of_erase rfl hs) rfl (fun _ hm => hm))
  | cancelsDeploying plan info ref hl hr =>
    exact h.harmless (.of_scheduled (hempty _ rfl rfl rfl rfl)
      (fun _ hs => isScheduledDeployment_of_insert rfl (by simp) hs) rfl (fun _ hm => hm))
  | ignores plan => exact h
  | unhandled k m t hk hm hsch =>
    exact h.harmless (.of_scheduled (hempty _ rfl rfl rfl rfl) (fun _ hs => hs) rfl
      (List.eraseIdx_subset))
  | fails k plan info r hk hl hst =>
    exact h.harmless (.of_scheduled (hempty _ rfl rfl rfl rfl)
      (fun _ hs => isScheduledDeployment_of_erase rfl hs) rfl List.eraseIdx_subset)
  | cancelsConflicts k plan conflicts s₁ hk hsch hf =>
    exact h.cancelsConflicts hi hk hsch hf (hok _ hk hsch)
  | waits k plan conflicts hk =>
    refine h.harmless (.narrows [] (.of_scheduled (fun _ hs => hs) ?_
      fun _ _ hm => List.mem_of_mem_eraseIdx hm) (hempty _ rfl rfl rfl rfl) (by simp))
    intro other others deletes ha
    rcases List.mem_append.mp ha with ha | ha
    · exact ha
    · cases List.mem_singleton.mp ha
  | launches k plan info hk hl hst hplan hfresh =>
    exact h.harmless (.of_scheduled (hempty _ rfl rfl rfl rfl)
      (fun _ hs => isScheduledDeployment_of_insert rfl (by simp) hs) rfl List.eraseIdx_subset)
  | finishes k plan r info hk hl =>
    refine h.harmless (.narrows [.delete plan.id] (.of_scheduled
      (fun _ hs => isScheduledDeployment_of_erase rfl hs) (fun _ _ _ ha => ha)
      fun _ _ hm => List.mem_of_mem_eraseIdx hm) ⟨rfl, rfl, rfl, rfl⟩ ?_)
    intro op hop
    obtain rfl := List.mem_singleton.mp hop
    rfl
  | finishesGone k plan r hk hl =>
    exact h.harmless (.of_scheduled (hempty _ rfl rfl rfl rfl) (fun _ hs => hs) rfl
      List.eraseIdx_subset)
  | completes k n action ok hk hfirst => exact h.completes ho hk hfirst
  | resumes k a replies m hk hc => exact h.resumes ho hk hc
  | reports _ id a r ha hp =>
    refine h.harmless (.narrows [] (.of_scheduled (fun _ hs => hs) (fun _ _ _ ha => ha) ?_)
      (hempty _ rfl rfl rfl rfl) (by simp))
    intro other others hm
    rcases List.mem_append.mp hm with hm | hm
    · exact hm
    · cases List.mem_singleton.mp hm
  | crashes id a ha hp =>
    exact h.harmless (.of_scheduled (hempty _ rfl rfl rfl rfl) (fun _ hs => hs) rfl (fun _ hm => hm))
  | terminates id a ha hp =>
    exact h.harmless (.of_scheduled (hempty _ rfl rfl rfl rfl) (fun _ hs => hs) rfl (fun _ hm => hm))
  | stopDone k stop hk =>
    exact h.harmless (.of_scheduled (hempty _ rfl rfl rfl rfl) (fun _ hs => hs) rfl (fun _ hm => hm))

theorem apart_initial {repository : Dict String Plan} (h : ConflictFree repository) :
    (initial repository).Apart where
  apart x hx y hy hne := by
    simp only [storedPlans, initial, List.filterMap_nil, List.append_nil] at hx hy
    exact h _ _ _ _ (Dict.mem_bindings.mp hx) (Dict.mem_bindings.mp hy) hne
  foreseen _ _ hd := by simp [initial, tokens, Deleting] at hd
  crossed _ _ _ _ hd := by simp [initial, tokens, Deleting] at hd
  clearing _ _ _ ha := by simp [initial] at ha
  cleared _ _ hm := by simp [initial] at hm

end State

/-- The manager as leader after another one that has left `repository`. -/
def managerFrom (repository : Dict String Plan) : Machine State Event :=
  manager.startingAt (State.initial repository)

/-- In every run whose steps keep the stored plans apart, no conflicting plans are ever in
the repository. -/
theorem conflictFree_of_keepsApart {repository : Dict String Plan} {s : State}
    (hrep : ConflictFree repository)
    (h : (managerFrom repository).ReachableIf State.KeepsApart s) : ConflictFree s.repository := by
  have hreach : ∀ s, (managerFrom repository).ReachableIf State.KeepsApart s →
      manager.Reachable s := fun s hr => (hr.of_startingAt ⟨repository, rfl⟩).reachable
  have hapart : s.Apart := h.invariant_of (I := fun s => s.Inv ∧ s.OpsOk) (J := State.Apart)
    (fun s hr => ⟨inv_of_reachable (hreach s hr), opsOk_of_reachable (hreach s hr)⟩)
    (by rintro s rfl; exact State.apart_initial hrep)
    fun _ _ _ hi hj hok hs => State.apart_step hi.1 hi.2 hj hok (State.step_act hi.1 hs)
  intro id₁ id₂ p₁ p₂ h₁ h₂ hne
  exact hapart.apart _ (State.mem_storedPlans_of_lookup h₁) _ (State.mem_storedPlans_of_lookup h₂)
    hne

/-- The overtaken plan is stored and being stopped; the forced one deletes it, waits for
its child and is stored. -/
theorem awaitingRun_conflictFree :
    ∃ s, (managerFrom ∅).run (State.initial ∅) awaitingRun = some s ∧
      s.repository.lookup "forced" = some forcedPlan ∧ ConflictFree s.repository := by
  have hif : (((managerFrom ∅).runIf State.KeepsApart (State.initial ∅) awaitingRun).map fun s =>
      s.repository.lookup "forced") = some (some forcedPlan) := by
    decide
  obtain ⟨s, hrun, hl⟩ := Option.map_eq_some_iff.mp hif
  have hempty : ConflictFree (∅ : Dict String Plan) := by
    intro _ _ _ _ h
    simp at h
  exact ⟨s, Machine.run_of_runIf hrun, hl,
    conflictFree_of_keepsApart hempty (Machine.reachableIf_of_runIf _ (.init rfl) hrun)⟩

/-! ## A run that stores a conflict -/

/-- The first plan is cancelled while its `store` is pending, which nothing takes back;
the second plan finds no conflict. -/
def conflictingRun : List Event :=
  [.startDeployment overtakenPlan false, .cancelDeployment overtakenPlan,
    .startDeployment forcedPlan false, .completeOp 0 true, .completeOp 0 true]

theorem conflictingRun_stored :
    ((managerFrom ∅).run (State.initial ∅) conflictingRun).map (fun s =>
      (s.repository.lookup "overtaken", s.repository.lookup "forced", s.pendingOps)) =
    some (some overtakenPlan, some forcedPlan, []) := by
  decide

theorem not_forall_reachable_conflictFree :
    ¬ ∀ s, (managerFrom ∅).Reachable s → ConflictFree s.repository := by
  intro h
  obtain ⟨s, hrun, hs⟩ := Option.map_eq_some_iff.mp conflictingRun_stored
  have hr : (managerFrom ∅).Reachable s := Machine.reachableIf_of_runIf _ (.init rfl) hrun
  obtain ⟨h₁, hrest⟩ := Prod.mk.inj hs
  exact h s hr "overtaken" "forced" _ _ h₁ (Prod.mk.inj hrest).1 (by decide) (by decide)

end Marathon.Deployment
