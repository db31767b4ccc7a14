import Marathon.Deployment.ManagerHandlers

/-!
# Repository operations under way

A plan that is in the repository or whose `store` has been handed over may be
stored at any later moment. Which plans these are changes only when an operation
is handed over or completed.
-/

namespace Marathon.Deployment

open Marathon.Lib

/-- The operations whose results an `async` block waits for. -/
def Async.ops : Async → List ℕ
  | .startNonConflictingDeployment _ store => [store]
  | .startConflictingDeployment _ _ deletes => deletes
  | .cancelDeletedConflicts _ _ store => [store]
  | .waitForCanceledConflicts _ _ => []

variable {s s' : State}

namespace State

/-- The numbers of the pending operations. -/
def opNumbers (s : State) : List ℕ := s.pendingOps.map Prod.fst

/-- The mailbox, the futures and the repository are the same. -/
structure SameStore (s s' : State) : Prop where
  mailbox : s'.mailbox = s.mailbox
  asyncs : s'.asyncs = s.asyncs
  repository : s'.repository = s.repository
  pendingOps : s'.pendingOps = s.pendingOps
  opResults : s'.opResults = s.opResults
  nextOp : s'.nextOp = s.nextOp

theorem SameStore.refl (s : State) : s.SameStore s := ⟨rfl, rfl, rfl, rfl, rfl, rfl⟩

theorem SameStore.trans {s'' : State} (h : s.SameStore s') (h' : s'.SameStore s'') :
    s.SameStore s'' where
  mailbox := h'.mailbox.trans h.mailbox
  asyncs := h'.asyncs.trans h.asyncs
  repository := h'.repository.trans h.repository
  pendingOps := h'.pendingOps.trans h.pendingOps
  opResults := h'.opResults.trans h.opResults
  nextOp := h'.nextOp.trans h.nextOp

theorem dropped_sameStore (s : State) (id : String) (info : DeploymentInfo) (r : PromiseResult) :
    s.SameStore (s.dropped id info r) := ⟨rfl, rfl, rfl, rfl, rfl, rfl⟩

theorem stopped_sameStore (s : State) (id : String) (info : DeploymentInfo) (ref : String) :
    s.SameStore (s.stopped id info ref) := ⟨rfl, rfl, rfl, rfl, rfl, rfl⟩

theorem cancelConflict_sameStore {info : DeploymentInfo}
    (h : s.cancelConflict info = some s') : s.SameStore s' := by
  unfold cancelConflict at h
  split at h
  · rcases removeScheduled_eq_some.mp h with ⟨cur, -, -, rfl⟩ | ⟨-, rfl⟩
    · exact dropped_sameStore s _ cur _
    · exact ⟨rfl, rfl, rfl, rfl, rfl, rfl⟩
  · obtain ⟨cur, ref, -, -, rfl⟩ := stopDeployment_eq_stopped.mp h
    exact stopped_sameStore s _ cur ref
  · cases h
    exact .refl s

theorem foldlM_cancelConflict_sameStore {known : List DeploymentInfo}
    (h : known.foldlM cancelConflict s = some s') : s.SameStore s' := by
  induction known generalizing s with
  | nil =>
    obtain rfl : s = s' := by simpa using h
    exact .refl s
  | cons info rest ih =>
    simp only [List.foldlM_cons, Option.bind_eq_bind, Option.bind_eq_some_iff] at h
    obtain ⟨t, ht, hrest⟩ := h
    exact (cancelConflict_sameStore ht).trans (ih hrest)

/-! ## Handing over operations -/

/-- From `s` to `s'` the operations `ops` are handed to the repository. -/
structure Submits (s s' : State) (ops : List RepositoryOp) : Prop where
  pendingOps : s'.pendingOps = s.pendingOps ++ (ops.zipIdx s.nextOp).map fun x => (x.2, x.1)
  nextOp : s'.nextOp = s.nextOp + ops.length
  opResults : s'.opResults = s.opResults
  repository : s'.repository = s.repository

theorem SameStore.submits (h : s.SameStore s') : s.Submits s' [] where
  pendingOps := by simpa using h.pendingOps
  nextOp := by simpa using h.nextOp
  opResults := h.opResults
  repository := h.repository

theorem deleteAll_submits (s : State) (infos : List DeploymentInfo) :
    s.Submits (s.deleteAll infos).1 (infos.map fun info => .delete info.plan.id) := by
  rw [deleteAll_eq]
  exact
    { pendingOps := by simp only [List.zipIdx_map, List.map_map]; rfl
      nextOp := by simp only [List.length_map]
      opResults := rfl
      repository := rfl }

theorem Submits.opNumbers {ops : List RepositoryOp} (h : s.Submits s' ops) :
    s'.opNumbers = s.opNumbers ++ List.range' s.nextOp ops.length := by
  simp only [State.opNumbers, h.pendingOps, List.map_append, List.map_map]
  congr 1
  exact List.zipIdx_map_snd s.nextOp ops

/-! ## The operations of a run -/

/-- Every awaited operation is pending or has its result, and no number is used twice. -/
structure OpsOk (s : State) : Prop where
  nodup : s.opNumbers.Nodup
  noResult : ∀ n ∈ s.opNumbers, s.opResults.lookup n = none
  pendingLt : ∀ n ∈ s.opNumbers, n < s.nextOp
  resultLt : ∀ n r, s.opResults.lookup n = some r → n < s.nextOp
  awaited : ∀ a ∈ s.asyncs, ∀ n ∈ a.ops, n ∈ s.opNumbers ∨ ∃ r, s.opResults.lookup n = some r

theorem OpsOk.submits {ops : List RepositoryOp} (h : s.OpsOk)
    (hs : s.Submits s' ops)
    (ha : ∀ a ∈ s'.asyncs, a ∈ s.asyncs ∨
      ∀ n ∈ a.ops, n ∈ List.range' s.nextOp ops.length) : s'.OpsOk where
  nodup := by
    rw [hs.opNumbers, List.nodup_append]
    refine ⟨h.nodup, List.nodup_range', ?_⟩
    intro n hn m hm he
    have hlt := h.pendingLt n hn
    have hge := (List.mem_range'_1.mp hm).1
    omega
  noResult n hn := by
    rw [hs.opResults]
    rw [hs.opNumbers, List.mem_append] at hn
    rcases hn with hn | hn
    · exact h.noResult n hn
    · -- the results so far have smaller numbers
      cases hr : s.opResults.lookup n with
      | none => rfl
      | some r =>
        have hlt := h.resultLt n r hr
        have hge := (List.mem_range'_1.mp hn).1
        omega
  pendingLt n hn := by
    rw [hs.nextOp]
    rw [hs.opNumbers, List.mem_append] at hn
    rcases hn with hn | hn
    · have hlt := h.pendingLt n hn
      omega
    · exact (List.mem_range'_1.mp hn).2
  resultLt n r hr := by
    rw [hs.opResults] at hr
    rw [hs.nextOp]
    have hlt := h.resultLt n r hr
    omega
  awaited a hmem n hn := by
    rw [hs.opResults, hs.opNumbers, List.mem_append]
    rcases ha a hmem with hold | hnew
    · exact (h.awaited a hold n hn).imp Or.inl id
    · exact .inl (.inr (hnew n hn))

theorem opNumbers_completed {k n : ℕ} {action : RepositoryOp} {ok : Bool} :
    (s.completed k n action ok).opNumbers = s.opNumbers.eraseIdx k := by
  simp only [opNumbers, completed, List.eraseIdx_map]

theorem OpsOk.completed {k n : ℕ} {action : RepositoryOp} {ok : Bool} (h : s.OpsOk)
    (hk : s.pendingOps[k]? = some (n, action)) : (s.completed k n action ok).OpsOk := by
  have hnum : s.opNumbers[k]? = some n := by
    rw [opNumbers, List.getElem?_map, hk]
    rfl
  have hmem : n ∈ s.opNumbers := List.mem_of_getElem? hnum
  obtain ⟨hlt, hget⟩ := List.getElem?_eq_some_iff.mp hnum
  have hperm : s.opNumbers.Perm (n :: s.opNumbers.eraseIdx k) := by
    rw [← hget]
    exact (List.getElem_cons_eraseIdx_perm hlt).symm
  have hnodup := (hperm.nodup_iff).mp h.nodup
  rw [List.nodup_cons] at hnodup
  have hsub : ∀ m ∈ s.opNumbers.eraseIdx k, m ∈ s.opNumbers ∧ m ≠ n := fun m hm =>
    ⟨List.mem_of_mem_eraseIdx hm, fun he => hnodup.1 (he ▸ hm)⟩
  exact
    { nodup := by
        rw [opNumbers_completed]
        exact hnodup.2
      noResult := by
        intro m hm
        rw [opNumbers_completed] at hm
        show (s.opResults.insert n ok).lookup m = none
        rw [AList.lookup_insert_ne (hsub m hm).2]
        exact h.noResult m (hsub m hm).1
      pendingLt := by
        intro m hm
        rw [opNumbers_completed] at hm
        exact h.pendingLt m (hsub m hm).1
      resultLt := by
        intro m r hr
        rcases Dict.lookup_insert_eq_some.mp hr with ⟨rfl, -⟩ | ⟨-, hr⟩
        · exact h.pendingLt m hmem
        · exact h.resultLt m r hr
      awaited := by
        intro a ha m hm
        rw [opNumbers_completed]
        show m ∈ s.opNumbers.eraseIdx k ∨ ∃ r, (s.opResults.insert n ok).lookup m = some r
        by_cases he : m = n
        · subst he
          exact .inr ⟨ok, AList.lookup_insert _⟩
        · rw [AList.lookup_insert_ne he]
          refine (h.awaited a ha m hm).imp (fun hmn => ?_) id
          exact (List.mem_cons.mp (hperm.subset hmn)).resolve_left he }

/-- What a step does to the operations. -/
inductive OpsStep (s : State) (s' : State) : Prop
  | submits (ops : List RepositoryOp) (h : s.Submits s' ops)
      (ha : ∀ a ∈ s'.asyncs, a ∈ s.asyncs ∨ ∀ n ∈ a.ops, n ∈ List.range' s.nextOp ops.length)
  | completes (k n : ℕ) (action : RepositoryOp) (ok : Bool)
      (hk : s.pendingOps[k]? = some (n, action)) (h : s' = s.completed k n action ok)

theorem OpsStep.of_sameStore (h : s.SameStore s') : OpsStep s s' :=
  .submits [] h.submits fun _ ha => .inl (h.asyncs ▸ ha)

theorem Act.ops {e : Event} (h : Act s e s') : OpsStep s s' := by
  cases h with
  | starts plan force hfresh hc =>
    refine .submits [.store plan] ⟨rfl, rfl, rfl, rfl⟩ ?_
    intro a ha
    rcases List.mem_append.mp ha with ha | ha
    · exact .inl ha
    · obtain rfl := List.mem_singleton.mp ha
      exact .inr fun n hn => by simpa [Async.ops] using hn
  | forces plan hfresh =>
    have hsub := deleteAll_submits (s.markScheduled plan) (s.conflictingDeployments plan)
    have hasyncs : ((s.markScheduled plan).deleteAll (s.conflictingDeployments plan)).1.asyncs =
        s.asyncs := by
      rw [deleteAll_eq]
      rfl
    refine .submits _ ⟨hsub.pendingOps, hsub.nextOp, hsub.opResults, hsub.repository⟩ ?_
    intro a ha
    rcases List.mem_append.mp ha with ha | ha
    · exact .inl (hasyncs ▸ ha)
    · obtain rfl := List.mem_singleton.mp ha
      refine .inr fun n hn => ?_
      rw [Async.ops, deleteAll_eq] at hn
      rw [List.length_map]
      exact hn
  | givesUp plan => exact .of_sameStore ⟨rfl, rfl, rfl, rfl, rfl, rfl⟩
  | cancelsScheduled plan info r hl hst => exact .of_sameStore (dropped_sameStore s _ _ _)
  | cancelsDeploying plan info ref hl hr => exact .of_sameStore (stopped_sameStore s _ _ _)
  | ignores plan => exact .of_sameStore (.refl s)
  | unhandled k m t hk hm hsch => exact .submits [] ⟨by simp [delivered], rfl, rfl, rfl⟩ fun _ => .inl
  | fails k plan info r hk hl hst =>
    exact .submits [] ⟨by simp [delivered, dropped], rfl, rfl, rfl⟩ fun _ => .inl
  | cancelsConflicts k plan conflicts s₁ hk hsch hf =>
    have hsame := foldlM_cancelConflict_sameStore hf
    refine .submits [.store plan] ⟨?_, ?_, hsame.opResults, hsame.repository⟩ ?_
    · simp only [storing, await, submit, hsame.pendingOps, hsame.nextOp]
      rfl
    · simp only [storing, await, submit, hsame.nextOp]
      rfl
    · intro a ha
      rcases List.mem_append.mp ha with ha | ha
      · refine .inl ?_
        have hmem : a ∈ s₁.asyncs := ha
        rw [hsame.asyncs] at hmem
        exact hmem
      · obtain rfl := List.mem_singleton.mp ha
        refine .inr fun n hn => ?_
        simpa [Async.ops, hsame.nextOp, delivered] using hn
  | waits k plan conflicts hk =>
    refine .submits [] ⟨by simp [delivered, waitForCanceledConflicts, await], rfl, rfl, rfl⟩ ?_
    intro a ha
    rcases List.mem_append.mp ha with ha | ha
    · exact .inl ha
    · obtain rfl := List.mem_singleton.mp ha
      exact .inr fun n hn => by simp [Async.ops] at hn
  | launches k plan info hk hl hst hplan hfresh =>
    exact .submits [] ⟨by simp [delivered, launched], rfl, rfl, rfl⟩ fun _ => .inl
  | finishes k plan r info hk hl =>
    exact .submits [.delete plan.id] ⟨rfl, rfl, rfl, rfl⟩ fun _ => .inl
  | finishesGone k plan r hk hl =>
    exact .submits [] ⟨by simp [delivered], rfl, rfl, rfl⟩ fun _ => .inl
  | completes k n action ok hk hfirst => exact .completes k n action ok hk rfl
  | resumes k a replies m hk hc =>
    exact .submits [] ⟨by simp [resumed], rfl, rfl, rfl⟩ fun _ ha =>
      .inl (List.mem_of_mem_eraseIdx ha)
  | reports _ id a r ha hp =>
    exact .submits [] ⟨by simp [send, advanced], rfl, rfl, rfl⟩ fun _ => .inl
  | crashes id a ha hp => exact .of_sameStore ⟨rfl, rfl, rfl, rfl, rfl, rfl⟩
  | terminates id a ha hp => exact .of_sameStore ⟨rfl, rfl, rfl, rfl, rfl, rfl⟩
  | stopDone k stop hk => exact .of_sameStore ⟨rfl, rfl, rfl, rfl, rfl, rfl⟩

theorem opsOk_step {e : Event} (h : s.OpsOk) (ha : Act s e s') : s'.OpsOk := by
  cases ha.ops with
  | submits ops hs hnew => exact h.submits hs hnew
  | completes k n action ok hk hs' =>
    subst hs'
    exact h.completed hk

theorem opsOk_initial (repository : Dict String Plan) : (initial repository).OpsOk where
  nodup := List.nodup_nil
  noResult _ h := by simp [initial, opNumbers] at h
  pendingLt _ h := by simp [initial, opNumbers] at h
  resultLt _ _ h := by simp [initial] at h
  awaited _ h := by simp [initial] at h

end State

theorem opsOk_of_reachable (h : manager.Reachable s) : s.OpsOk :=
  h.invariant_of (I := State.Inv) (J := State.OpsOk) (fun _ hr => inv_of_reachable hr)
    (by rintro s ⟨repository, rfl⟩; exact State.opsOk_initial repository)
    fun _ _ _ hi hj _ hs => State.opsOk_step hj (State.step_act hi hs)

end Marathon.Deployment
