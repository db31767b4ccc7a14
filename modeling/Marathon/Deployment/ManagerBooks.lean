import Marathon.Deployment.DeploymentExclusion
import Marathon.Deployment.ManagerHandlers

/-!
# The books of the deployment manager

What the manager keeps beside its children: the gauge of active deployments, one
promise for each deployment and the entry by which it can find the child again.
The promises are right in every run. The gauge and the entries are right as long
as no conflict that was snapshotted as `scheduled` has been launched since.
-/

namespace Marathon.Deployment

open Marathon.Lib

variable {s s' : State} {id : String} {info : DeploymentInfo} {m : Msg} {e : Event}

namespace State

/-! ## Promises -/

/-- The promises that are still open are those of the entries, one for each. -/
structure PromisesOpen (s : State) : Prop where
  pending : ∀ id info, s.runningDeployments.lookup id = some info →
    s.promises[info.promise]? = some none
  distinct : ∀ id₁ id₂ info₁ info₂, s.runningDeployments.lookup id₁ = some info₁ →
    s.runningDeployments.lookup id₂ = some info₂ → info₁.promise = info₂.promise → id₁ = id₂
  held : ∀ p : ℕ, s.promises[p]? = some none →
    ∃ id info, s.runningDeployments.lookup id = some info ∧ info.promise = p

/-- From `s` to `s'` a promise is completed if its entry is removed, only then, and
never again. -/
structure Settles (s s' : State) : Prop where
  entries : ∀ id info, s.runningDeployments.lookup id = some info →
    (∃ info', s'.runningDeployments.lookup id = some info' ∧ info'.promise = info.promise ∧
      s'.promises[info.promise]? = some none) ∨
    (s'.runningDeployments.lookup id = none ∧
      ∃ r, s'.promises[info.promise]? = some (some r))
  completed : ∀ (p : ℕ) r, s.promises[p]? = some (some r) → s'.promises[p]? = some (some r)

/-- Nothing happens to the entries and the promises. -/
theorem PromisesOpen.same (h : s.PromisesOpen)
    (hr : s'.runningDeployments = s.runningDeployments) (hp : s'.promises = s.promises) :
    s'.PromisesOpen ∧ s.Settles s' := by
  refine ⟨⟨?_, ?_, ?_⟩, ⟨?_, ?_⟩⟩
  · rw [hr, hp]
    exact h.pending
  · rw [hr]
    exact h.distinct
  · rw [hr, hp]
    exact h.held
  · intro id info hl
    exact .inl ⟨info, by rw [hr]; exact hl, rfl, by rw [hp]; exact h.pending id info hl⟩
  · intro p r hpr
    rw [hp]
    exact hpr

theorem PromisesOpen.replaced {info' : DeploymentInfo}
    (h : s.PromisesOpen) (hl : s.runningDeployments.lookup id = some info)
    (hpr : info'.promise = info.promise)
    (hr : s'.runningDeployments = s.runningDeployments.insert id info')
    (hp : s'.promises = s.promises) : s'.PromisesOpen ∧ s.Settles s' := by
  have hlook : ∀ id₁ info₁, s'.runningDeployments.lookup id₁ = some info₁ →
      ∃ info₀, s.runningDeployments.lookup id₁ = some info₀ ∧ info₀.promise = info₁.promise := by
    intro id₁ info₁ h₁
    rw [hr] at h₁
    rcases Dict.lookup_insert_eq_some.mp h₁ with ⟨rfl, rfl⟩ | ⟨-, h₁⟩
    · exact ⟨info, hl, hpr.symm⟩
    · exact ⟨info₁, h₁, rfl⟩
  have hback : ∀ id₁ info₁, s.runningDeployments.lookup id₁ = some info₁ →
      ∃ info₂, s'.runningDeployments.lookup id₁ = some info₂ ∧ info₂.promise = info₁.promise := by
    intro id₁ info₁ h₁
    rw [hr]
    by_cases he : id₁ = id
    · subst he
      cases hl.symm.trans h₁
      exact ⟨info', AList.lookup_insert _, hpr⟩
    · exact ⟨info₁, by rw [AList.lookup_insert_ne he]; exact h₁, rfl⟩
  refine ⟨⟨?_, ?_, ?_⟩, ⟨?_, ?_⟩⟩
  · intro id₁ info₁ h₁
    obtain ⟨info₀, h₀, he⟩ := hlook _ _ h₁
    rw [hp, ← he]
    exact h.pending _ _ h₀
  · intro id₁ id₂ info₁ info₂ h₁ h₂ he
    obtain ⟨a, ha, hea⟩ := hlook _ _ h₁
    obtain ⟨b, hb, heb⟩ := hlook _ _ h₂
    exact h.distinct _ _ _ _ ha hb (by rw [hea, heb, he])
  · intro p hpn
    rw [hp] at hpn
    obtain ⟨id₁, info₁, h₁, rfl⟩ := h.held p hpn
    obtain ⟨info₂, h₂, he⟩ := hback _ _ h₁
    exact ⟨id₁, info₂, h₂, he⟩
  · intro id₁ info₁ h₁
    obtain ⟨info₂, h₂, he⟩ := hback _ _ h₁
    exact .inl ⟨info₂, h₂, he, by rw [hp]; exact h.pending _ _ h₁⟩
  · intro p r hpr'
    rw [hp]
    exact hpr'

/-- An entry is removed and its promise completed. -/
theorem PromisesOpen.removed
    {r : PromiseResult} (h : s.PromisesOpen) (hl : s.runningDeployments.lookup id = some info)
    (hr : s'.runningDeployments = s.runningDeployments.erase id)
    (hp : s'.promises = s.promises.set info.promise (some r)) : s'.PromisesOpen ∧ s.Settles s' := by
  have hlt : info.promise < s.promises.length :=
    (List.getElem?_eq_some_iff.mp (h.pending id info hl)).1
  have hother : ∀ id₁ info₁, id₁ ≠ id → s.runningDeployments.lookup id₁ = some info₁ →
      s'.promises[info₁.promise]? = some none := by
    intro id₁ info₁ hne h₁
    have hpne : info.promise ≠ info₁.promise := fun he => hne (h.distinct _ _ _ _ h₁ hl he.symm)
    rw [hp, List.getElem?_set_ne hpne]
    exact h.pending _ _ h₁
  refine ⟨⟨?_, ?_, ?_⟩, ⟨?_, ?_⟩⟩
  · intro id₁ info₁ h₁
    rw [hr] at h₁
    obtain ⟨hne, h₁⟩ := Dict.lookup_erase_eq_some.mp h₁
    exact hother _ _ hne h₁
  · intro id₁ id₂ info₁ info₂ h₁ h₂ he
    rw [hr] at h₁ h₂
    exact h.distinct _ _ _ _ (Dict.lookup_erase_eq_some.mp h₁).2
      (Dict.lookup_erase_eq_some.mp h₂).2 he
  · intro p hpn
    have hne : info.promise ≠ p := by
      rintro rfl
      simp [hp, hlt] at hpn
    rw [hp, List.getElem?_set_ne hne] at hpn
    obtain ⟨id₁, info₁, h₁, rfl⟩ := h.held p hpn
    refine ⟨id₁, info₁, ?_, rfl⟩
    rw [hr]
    refine Dict.lookup_erase_eq_some.mpr ⟨?_, h₁⟩
    rintro rfl
    cases hl.symm.trans h₁
    exact hne rfl
  · intro id₁ info₁ h₁
    by_cases he : id₁ = id
    · subst he
      cases hl.symm.trans h₁
      exact .inr ⟨by rw [hr]; exact AList.lookup_erase _ _, r, by simp [hp, hlt]⟩
    · exact .inl ⟨info₁, by rw [hr]; exact Dict.lookup_erase_eq_some.mpr ⟨he, h₁⟩, rfl,
        hother _ _ he h₁⟩
  · intro p q hpq
    have hne : info.promise ≠ p := by
      rintro rfl
      rw [h.pending id info hl] at hpq
      cases hpq
    rw [hp, List.getElem?_set_ne hne]
    exact hpq

/-- A new entry with a new promise. -/
theorem PromisesOpen.added (h : s.PromisesOpen) (hnew : s.runningDeployments.lookup id = none)
    (hpr : info.promise = s.promises.length)
    (hr : s'.runningDeployments = s.runningDeployments.insert id info)
    (hp : s'.promises = s.promises ++ [none]) : s'.PromisesOpen ∧ s.Settles s' := by
  have hlt : ∀ id₁ info₁, s.runningDeployments.lookup id₁ = some info₁ →
      info₁.promise < s.promises.length := fun id₁ info₁ h₁ =>
    (List.getElem?_eq_some_iff.mp (h.pending id₁ info₁ h₁)).1
  have hold : ∀ (p : ℕ) x, s.promises[p]? = some x → s'.promises[p]? = some x := by
    intro p x hpx
    rw [hp, List.getElem?_append_left (List.getElem?_eq_some_iff.mp hpx).1]
    exact hpx
  have hkeep : ∀ id₁ info₁, s.runningDeployments.lookup id₁ = some info₁ →
      s'.runningDeployments.lookup id₁ = some info₁ := by
    intro id₁ info₁ h₁
    rw [hr, AList.lookup_insert_ne]
    · exact h₁
    · rintro rfl
      rw [hnew] at h₁
      cases h₁
  refine ⟨⟨?_, ?_, ?_⟩, ⟨?_, fun p r => hold p (some r)⟩⟩
  · intro id₁ info₁ h₁
    rw [hr] at h₁
    rcases Dict.lookup_insert_eq_some.mp h₁ with ⟨rfl, rfl⟩ | ⟨-, h₁⟩
    · simp [hp, hpr]
    · exact hold _ _ (h.pending _ _ h₁)
  · intro id₁ id₂ info₁ info₂ h₁ h₂ he
    rw [hr] at h₁ h₂
    rcases Dict.lookup_insert_eq_some.mp h₁ with ⟨he₁, e₁⟩ | ⟨-, h₁⟩
    · rcases Dict.lookup_insert_eq_some.mp h₂ with ⟨he₂, -⟩ | ⟨-, h₂⟩
      · rw [he₁, he₂]
      · have hp₂ := hlt _ _ h₂
        rw [← he, ← e₁] at hp₂
        omega
    · rcases Dict.lookup_insert_eq_some.mp h₂ with ⟨-, e₂⟩ | ⟨-, h₂⟩
      · have hp₁ := hlt _ _ h₁
        rw [he, ← e₂] at hp₁
        omega
      · exact h.distinct _ _ _ _ h₁ h₂ he
  · intro p hpn
    by_cases he : p < s.promises.length
    · rw [hp, List.getElem?_append_left he] at hpn
      obtain ⟨id₁, info₁, h₁, rfl⟩ := h.held p hpn
      exact ⟨id₁, info₁, hkeep _ _ h₁, rfl⟩
    · have hlen : p < (s.promises ++ [none]).length := by
        rw [hp] at hpn
        exact (List.getElem?_eq_some_iff.mp hpn).1
      rw [List.length_append, List.length_singleton] at hlen
      refine ⟨id, info, by rw [hr]; exact AList.lookup_insert _, ?_⟩
      omega
  · intro id₁ info₁ h₁
    exact .inl ⟨info₁, hkeep _ _ h₁, rfl, hold _ _ (h.pending _ _ h₁)⟩

theorem Settles.trans {s'' : State} (h : s.Settles s') (h' : s'.Settles s'')
    (hgone : ∀ id, s'.runningDeployments.lookup id = none →
      s''.runningDeployments.lookup id = none) : s.Settles s'' where
  entries id info hl := by
    rcases h.entries id info hl with ⟨info', hl', hp, -⟩ | ⟨hn, r, hr⟩
    · rw [← hp]
      rcases h'.entries id info' hl' with ⟨info'', hl'', hp', hpen⟩ | hdone
      · exact .inl ⟨info'', hl'', hp', hpen⟩
      · exact .inr hdone
    · exact .inr ⟨hgone id hn, r, h'.completed _ _ hr⟩
  completed p r hr := h'.completed p r (h.completed p r hr)

theorem CancelsOne.promises (h : s.PromisesOpen)
    (hc : s.CancelsOne id s') : s'.PromisesOpen ∧ s.Settles s' := by
  cases hc with
  | keeps => exact h.same rfl rfl
  | drops info r hl hp => exact h.removed hl rfl rfl
  | stops info ref hl hr =>
    have hpr : DeploymentInfo.promise { info with
        status := .canceling, cancel := some s.stopActors.length } = info.promise := rfl
    exact h.replaced hl hpr rfl rfl

/-! ## What a step does to the books -/

/-- The entries, the promises, the children and their reports are the same. -/
structure SameBooks (s s' : State) : Prop where
  running : s'.runningDeployments = s.runningDeployments
  metric : s'.runningDeploymentsMetric = s.runningDeploymentsMetric
  promises : s'.promises = s.promises
  actors : s'.deploymentActors = s.deploymentActors
  stops : s'.stopActors = s.stopActors
  reports : s'.reports = s.reports

theorem SameBooks.refl (s : State) : s.SameBooks s := ⟨rfl, rfl, rfl, rfl, rfl, rfl⟩

/-- Everything one step can do to the books. -/
inductive BookStep (s : State) (e : Event) (s' : State) : Prop
  | idle (h : s.SameBooks s')
  | marks (plan : Plan) (hfresh : plan.id ∉ s.seen) (h : (s.markScheduled plan).SameBooks s')
  | drops (s₀ : State) (id : String) (info : DeploymentInfo) (r : PromiseResult)
      (hw : s.SameBooks s₀) (hl : s.runningDeployments.lookup id = some info)
      (hst : info.status = .scheduled) (h : s' = s₀.dropped id info r)
  | stops (id : String) (info : DeploymentInfo) (ref : String)
      (hl : s.runningDeployments.lookup id = some info) (hr : info.ref = some ref)
      (h : s' = s.stopped id info ref)
  | cancelsConflicts (s₀ s₁ : State) (k : ℕ) (plan : Plan) (conflicts : List DeploymentInfo)
      (he : e = .deliver k)
      (hk : s.mailbox[k]? = some (.cancelDeletedConflicts plan conflicts))
      (hsch : s.isScheduledDeployment plan.id)
      (hs₀ : s₀ = { s with mailbox := s.mailbox.eraseIdx k }) (hw : s.SameBooks s₀)
      (hf : (conflicts.filter fun info => info.plan.id ∈ s₀.runningDeployments).foldlM
        cancelConflict s₀ = some s₁)
      (h : s₁.SameBooks s')
  | finishes (s₀ : State) (k : ℕ) (plan : Plan) (r : PromiseResult) (info : DeploymentInfo)
      (he : e = .deliver k) (hk : s.mailbox[k]? = some (.deploymentFinished plan r))
      (hs₀ : s₀ = { s with mailbox := s.mailbox.eraseIdx k })
      (hl : s.runningDeployments.lookup plan.id = some info)
      (h : s' = (s₀.dropped plan.id info r).submit (.delete plan.id))
  | finishesGone (s₀ : State) (k : ℕ) (plan : Plan) (r : PromiseResult)
      (he : e = .deliver k) (hk : s.mailbox[k]? = some (.deploymentFinished plan r))
      (hs₀ : s₀ = { s with mailbox := s.mailbox.eraseIdx k })
      (hl : s.runningDeployments.lookup plan.id = none)
      (h : s' = { s₀ with runningDeploymentsMetric := s.runningDeploymentsMetric - 1 })
  | launches (s₀ : State) (plan : Plan) (info : DeploymentInfo) (hw : s.SameBooks s₀)
      (hl : s.runningDeployments.lookup plan.id = some info) (hplan : info.plan = plan)
      (hfresh : plan.id ∉ s.deploymentActors) (h : s' = s₀.launched plan info)
  | finished (id : String) (a : DeploymentActor) (r : PromiseResult)
      (ha : s.deploymentActors.lookup id = some a) (hp : a.phase = .running)
      (h : s' = (s.advanced id a .stopping).send (.deploymentFinished a.plan r))
  | advances (id : String) (a : DeploymentActor) (ph : ActorPhase)
      (ha : s.deploymentActors.lookup id = some a) (hp : a.phase ≠ .terminated)
      (hph : ph ≠ .running) (he : e = .actorCrashed id ∨ a.phase ≠ .running)
      (h : s' = s.advanced id a ph)
  | stopDone (k : ℕ) (stop : StopActor) (hk : s.stopActors[k]? = some stop)
      (h : s' = { s with stopActors := s.stopActors.set k { stop with promiseDone := true } })

theorem sameBooks_deliver {k : ℕ} (hk : s.mailbox[k]? = some m)
    (hm : m.report = none) : s.SameBooks { s with mailbox := s.mailbox.eraseIdx k } where
  running := rfl
  metric := rfl
  promises := rfl
  actors := rfl
  stops := rfl
  reports := by
    obtain ⟨hlt, rfl⟩ := List.getElem?_eq_some_iff.mp hk
    simp only [reports, List.eraseIdx_eq_take_drop_succ, List.filterMap_append]
    conv_rhs => rw [← List.take_append_drop k s.mailbox, List.drop_eq_getElem_cons hlt]
    rw [List.filterMap_append, List.filterMap_cons, hm]

theorem deleteAll_sameBooks (s : State) (infos : List DeploymentInfo) :
    s.SameBooks (s.deleteAll infos).1 := by
  rw [deleteAll_eq]
  exact ⟨rfl, rfl, rfl, rfl, rfl, rfl⟩

theorem continueAsync_report {a : Async} {rs : List Reply}
    (h : s.continueAsync a = some (rs, m)) : m.report = none := by
  obtain ⟨st', hm, -⟩ := continueAsync_token (e := .resume 0) h
  cases m <;> first | rfl | cases hm

theorem report_of_token {t : Token} (h : m.token = some t) : m.report = none := by
  cases m <;> first | rfl | cases h

theorem Act.books (h : Act s e s') : BookStep s e s' := by
  cases h with
  | starts plan force hfresh hc => exact .marks plan hfresh ⟨rfl, rfl, rfl, rfl, rfl, rfl⟩
  | forces plan hfresh =>
    have hd := deleteAll_sameBooks (s.markScheduled plan) (s.conflictingDeployments plan)
    exact .marks plan hfresh ⟨hd.running, hd.metric, hd.promises, hd.actors, hd.stops, hd.reports⟩
  | givesUp plan => exact .idle ⟨rfl, rfl, rfl, rfl, rfl, rfl⟩
  | cancelsScheduled plan info r hl hst => exact .drops s plan.id info r (.refl s) hl hst rfl
  | cancelsDeploying plan info ref hl hr => exact .stops plan.id info ref hl hr rfl
  | ignores plan => exact .idle (.refl s)
  | unhandled k m t hk hm hsch => exact .idle (sameBooks_deliver hk (report_of_token hm))
  | fails k plan info r hk hl hst =>
    exact .drops _ plan.id info r (sameBooks_deliver hk rfl) hl hst rfl
  | cancelsConflicts k plan conflicts s₁ hk hsch hf =>
    exact .cancelsConflicts _ s₁ k plan conflicts rfl hk hsch rfl (sameBooks_deliver hk rfl) hf
      ⟨rfl, rfl, rfl, rfl, rfl, rfl⟩
  | waits k plan conflicts hk =>
    have hw := sameBooks_deliver hk rfl
    exact .idle ⟨hw.running, hw.metric, hw.promises, hw.actors, hw.stops, hw.reports⟩
  | launches k plan info hk hl hst hplan hfresh =>
    exact .launches _ plan info (sameBooks_deliver hk rfl) hl hplan hfresh rfl
  | finishes k plan r info hk hl => exact .finishes _ k plan r info rfl hk rfl hl rfl
  | finishesGone k plan r hk hl => exact .finishesGone _ k plan r rfl hk rfl hl rfl
  | completes k n action ok hk hfirst => exact .idle ⟨rfl, rfl, rfl, rfl, rfl, rfl⟩
  | resumes k a replies m hk hc =>
    refine .idle ⟨rfl, rfl, rfl, rfl, rfl, ?_⟩
    simp only [State.reports, resumed, List.filterMap_append, List.filterMap_cons,
      continueAsync_report hc, List.filterMap_nil, List.append_nil]
  | reports e id a r ha hp => exact .finished id a r ha hp rfl
  | crashes id a ha hp => exact .advances id a .stopping ha (by simp [hp]) (by simp) (.inl rfl) rfl
  | terminates id a ha hp =>
    exact .advances id a .terminated ha (by simp [hp]) (by simp) (.inr (by simp [hp])) rfl
  | stopDone k stop hk => exact .stopDone k stop hk rfl

theorem step_books (hi : s.Inv) (h : s.step e = some s') : BookStep s e s' :=
  (step_act hi h).books

/-! ## The promises in every run -/

theorem SameBooks.promisesOpen (h : s.SameBooks s') (hp : s.PromisesOpen) :
    s'.PromisesOpen ∧ s.Settles s' :=
  hp.same h.running h.promises

/-- What is known of the conflicts that `cancelDeletedConflicts` goes through. -/
theorem known_conflicts {t : Token} (hs : s.SnapshotsOk) (ht : t ∈ s.tokens)
    {d : Dict String DeploymentInfo} :
    ((t.2.conflicts.filter fun info => info.plan.id ∈ d).map fun info => info.plan.id).Nodup ∧
      ∀ info ∈ t.2.conflicts.filter fun info => info.plan.id ∈ d, info.plan.id ∈ d :=
  ⟨(List.filter_sublist.map _).nodup (hs.distinct t ht), fun info hinfo => by
    simpa using (List.mem_filter.mp hinfo).2⟩

theorem cancelsConflicts_promises {conflicts : List DeploymentInfo}
    (h : s.PromisesOpen)
    (hknown : ((conflicts.filter fun info => info.plan.id ∈ s.runningDeployments).map
      fun info => info.plan.id).Nodup)
    (hf : (conflicts.filter fun info => info.plan.id ∈ s.runningDeployments).foldlM
      cancelConflict s = some s') : s'.PromisesOpen ∧ s.Settles s' := by
  have hmem : ∀ info ∈ conflicts.filter fun info => info.plan.id ∈ s.runningDeployments,
      info.plan.id ∈ s.runningDeployments := fun info hinfo => by
    simpa using (List.mem_filter.mp hinfo).2
  refine foldlM_cancelConflict_induction (P := fun t => t.PromisesOpen ∧ s.Settles t) hf hknown
    hmem (fun _ _ => rfl) ?_ (h.same rfl rfl)
  rintro info hinfo t t' ⟨ht, hset⟩ hl hc
  have hin : info.plan.id ∈ t.runningDeployments := by
    rw [← AList.lookup_isSome, hl, AList.lookup_isSome]
    exact hmem info hinfo
  obtain ⟨ht', hset'⟩ := CancelsOne.promises ht (cancelConflict_cancelsOne hc hin)
  exact ⟨ht', hset.trans hset' fun id hn => (cancelConflict_cancels hc).lookup_eq_none hn⟩

theorem promisesOpen_step (hi : s.Inv) (hsnap : s.SnapshotsOk)
    (h : s.PromisesOpen) (hs : s.step e = some s') : s'.PromisesOpen ∧ s.Settles s' := by
  cases step_books hi hs with
  | idle hw => exact hw.promisesOpen h
  | marks plan hfresh hw =>
    have hnone : s.runningDeployments.lookup plan.id = none := by
      cases hl : s.runningDeployments.lookup plan.id with
      | none => rfl
      | some info =>
        have hknown := (hi.runningOk _ _ hl).known
        rw [hi.runningId _ _ hl] at hknown
        exact absurd (Dict.mem_of_lookup_eq_some hknown) hfresh
    exact h.added hnone rfl hw.running hw.promises
  | drops s₀ id info r hw hl hst hs' =>
    subst hs'
    exact h.removed hl (by rw [← hw.running]; rfl) (by rw [← hw.promises]; rfl)
  | stops id info ref hl hr hs' =>
    subst hs'
    exact CancelsOne.promises h (.stops info ref hl hr)
  | cancelsConflicts s₀ s₁ k plan conflicts he hk hsch hs₀ hw hf hw' =>
    have htok : (plan, Stage.deleting conflicts) ∈ s.tokens :=
      (tokens_deliver hk).symm.subset List.mem_cons_self
    obtain ⟨h₀, hset₀⟩ := hw.promisesOpen h
    obtain ⟨h₁, hset₁⟩ := cancelsConflicts_promises h₀
      (known_conflicts hsnap htok).1 hf
    obtain ⟨h', hset'⟩ := hw'.promisesOpen h₁
    refine ⟨h', (hset₀.trans hset₁ ?_).trans hset' ?_⟩
    · exact fun id hn => (foldlM_cancelConflict_cancels hf).lookup_eq_none hn
    · intro id hn
      rw [hw'.running]
      exact hn
  | finishes s₀ k plan r info he hk hs₀ hl hs' =>
    subst hs' hs₀
    exact h.removed hl rfl rfl
  | finishesGone s₀ k plan r he hk hs₀ hl hs' =>
    subst hs' hs₀
    exact h.same rfl rfl
  | launches s₀ plan info hw hl hplan hfresh hs' =>
    subst hs'
    have hpr : DeploymentInfo.promise { info with ref := some plan.id, status := .deploying } =
        info.promise := rfl
    exact h.replaced hl hpr (by rw [← hw.running]; rfl) hw.promises
  | finished id a r ha hp hs' =>
    subst hs'
    exact h.same rfl rfl
  | advances id a ph ha hp hph hev hs' =>
    subst hs'
    exact h.same rfl rfl
  | stopDone k stop hk hs' =>
    subst hs'
    exact h.same rfl rfl

theorem promisesOpen_initial (repository : Dict String Plan) :
    (initial repository).PromisesOpen where
  pending _ _ h := by simp [initial] at h
  distinct _ _ _ _ h := by simp [initial] at h
  held _ h := by simp [initial] at h

end State

theorem promisesOpen_of_reachable (h : manager.Reachable s) : s.PromisesOpen :=
  h.invariant_of (I := fun s => s.Inv ∧ s.SnapshotsOk) (J := State.PromisesOpen)
    (fun _ hr => ⟨inv_of_reachable hr, snapshotsOk_of_reachable hr⟩)
    (by rintro s ⟨repository, rfl⟩; exact State.promisesOpen_initial repository)
    fun _ _ _ hi hj _ hs => (State.promisesOpen_step hi.1 hi.2 hj hs).1

/-- In every run each step settles exactly the promises of the entries it removes. -/
theorem settles_of_reachable (h : manager.Reachable s) (hs : s.step e = some s') : s.Settles s' :=
  (State.promisesOpen_step (inv_of_reachable h) (snapshotsOk_of_reachable h)
    (promisesOpen_of_reachable h) hs).2

namespace State

/-! ## No handler throws -/

theorem cancelConflict_ne_none (hi : s.Inv)
    (hp : s.PromisesOpen) (hok : s.InfoOk info) (hmem : info.plan.id ∈ s.runningDeployments) :
    ∃ s', s.cancelConflict info = some s' := by
  obtain ⟨cur, hl⟩ := Dict.lookup_ne_none_of_mem hmem
  unfold cancelConflict
  cases hst : info.status with
  | scheduled =>
    exact ⟨_, removeScheduled_eq_some.mpr (.inl ⟨cur, hl, hp.pending _ _ hl, rfl⟩)⟩
  | deploying =>
    -- the snapshot shows a child, so the entry is launched as well
    have hne : cur.status ≠ .scheduled := fun hcur =>
      hi.runningFresh _ _ hl hcur (hok.launched (by simp [hst])).2
    exact ⟨_, stopDeployment_eq_stopped.mpr
      ⟨cur, _, hl, ((hi.runningOk _ _ hl).launched hne).1, rfl⟩⟩
  | canceling => exact ⟨s, rfl⟩

theorem foldlM_cancelConflict_ne_none {known : List DeploymentInfo} (hi : s.Inv)
    (hp : s.PromisesOpen) (hok : ∀ info ∈ known, s.InfoOk info)
    (hnodup : (known.map fun info => info.plan.id).Nodup)
    (hmem : ∀ info ∈ known, info.plan.id ∈ s.runningDeployments) :
    ∃ s', known.foldlM cancelConflict s = some s' := by
  induction known generalizing s with
  | nil => exact ⟨s, rfl⟩
  | cons info rest ih =>
    have hin := hmem info List.mem_cons_self
    obtain ⟨t, ht⟩ := cancelConflict_ne_none hi hp (hok info List.mem_cons_self) hin
    have hcan := cancelConflict_cancels ht
    have hone := cancelConflict_cancelsOne ht hin
    rw [List.map_cons, List.nodup_cons] at hnodup
    obtain ⟨s', hs'⟩ := ih (hi.cancels hcan) (hone.promises hp).1
      (fun i hmi => (hok i (List.mem_cons_of_mem _ hmi)).mono hcan.extends) hnodup.2 (by
        intro i hmi
        have hne : i.plan.id ≠ info.plan.id := fun he =>
          hnodup.1 (he ▸ List.mem_map_of_mem hmi)
        rw [← AList.lookup_isSome, hone.lookup_ne hne, AList.lookup_isSome]
        exact hmem i (List.mem_cons_of_mem _ hmi))
    exact ⟨s', by simp only [List.foldlM_cons, ht, Option.bind_eq_bind, Option.bind_some, hs']⟩

theorem startDeployment_ne_none {cur : DeploymentInfo}
    (hfresh : info.plan.id ∉ s.deploymentActors)
    (hl : s.runningDeployments.lookup info.plan.id = some cur) :
    ∃ s', s.startDeployment info = some s' := by
  have hfree : s.childNameFree info.plan.id = true := by
    rw [childNameFree, AList.lookup_eq_none.mpr hfresh]
  rw [startDeployment, if_pos hfree, hl]
  exact ⟨_, rfl⟩

theorem receive_ne_none {s₀ : State} {k : ℕ} (hi : s.Inv) (hsnap : s.SnapshotsOk)
    (hp : s.PromisesOpen) (hk : s.mailbox[k]? = some m)
    (hs₀ : s₀ = { s with mailbox := s.mailbox.eraseIdx k }) : ∃ s', s₀.receive m = some s' := by
  have hw : s.SameWork s₀ := by subst hs₀; exact ⟨rfl, rfl, rfl, rfl⟩
  have ht : s.tokens.Perm (m.token.toList ++ s₀.tokens) := by
    subst hs₀
    exact tokens_deliver hk
  have hi₀ : s₀.Inv :=
    hi.dropTokens hw ((List.sublist_append_right _ _).subperm.trans ht.symm.subperm)
  have hp₀ : s₀.PromisesOpen := (hp.same hw.running (by subst hs₀; rfl)).1
  cases m with
  | deploymentFinished plan r =>
    cases hl : s₀.runningDeployments.lookup plan.id with
    | none => exact ⟨_, deploymentFinished_eq_some.mpr (.inr ⟨hl, rfl⟩)⟩
    | some info =>
      exact ⟨_, deploymentFinished_eq_some.mpr (.inl ⟨info, hl, hp₀.pending _ _ hl, rfl⟩)⟩
  | launchDeployment plan =>
    have htok : (plan, Stage.launching) ∈ s.tokens := ht.symm.subset List.mem_cons_self
    simp only [receive]
    split
    · rename_i hguard
      obtain ⟨info, hl, -⟩ := isScheduledDeployment_iff.mp hguard
      have hid : info.plan.id = plan.id := hi₀.runningId _ _ hl
      have hfresh : info.plan.id ∉ s₀.deploymentActors := by
        rw [hid, hw.actors]
        exact hi.tokenFresh _ htok
      rw [hl, Option.bind_some]
      exact startDeployment_ne_none hfresh (hid.symm ▸ hl)
    · exact ⟨s₀, rfl⟩
  | cancelDeletedConflicts plan conflicts =>
    have htok : (plan, Stage.deleting conflicts) ∈ s.tokens := ht.symm.subset List.mem_cons_self
    simp only [receive]
    split
    · obtain ⟨hnodup, hmem⟩ := known_conflicts (d := s₀.runningDeployments) hsnap htok
      have hok : ∀ info ∈ conflicts.filter fun info => info.plan.id ∈ s₀.runningDeployments,
          s₀.InfoOk info := fun info hinfo =>
        (hi.snapshotOk _ htok info (List.mem_filter.mp hinfo).1).mono hw.extends
      obtain ⟨s₁, hs₁⟩ := foldlM_cancelConflict_ne_none hi₀ hp₀ hok hnodup hmem
      refine ⟨(s₁.submit (.store plan)).await (.cancelDeletedConflicts plan conflicts s₁.nextOp),
        ?_⟩
      simp only [cancelDeletedConflicts, Option.bind_eq_bind, hs₁, Option.bind_some,
        Option.pure_def]
    · exact ⟨s₀, rfl⟩
  | waitForCanceledConflicts plan conflicts =>
    simp only [receive]
    split
    · exact ⟨_, rfl⟩
    · exact ⟨s₀, rfl⟩
  | failedRepositoryOperation plan =>
    simp only [receive]
    split
    · rename_i hguard
      obtain ⟨info, hl, -⟩ := isScheduledDeployment_iff.mp hguard
      exact ⟨_, removeScheduled_eq_some.mpr (.inl ⟨info, hl, hp₀.pending _ _ hl, rfl⟩)⟩
    · exact ⟨s₀, rfl⟩

end State

/-- In every run every message is handled without an exception; in particular no promise
is completed twice. -/
theorem deliver_ne_none_of_reachable (h : manager.Reachable s) {k : ℕ}
    (hk : k < s.mailbox.length) : s.step (.deliver k) ≠ none := by
  have hget : s.mailbox[k]? = some s.mailbox[k] := List.getElem?_eq_getElem hk
  obtain ⟨s', hs'⟩ := State.receive_ne_none (inv_of_reachable h) (snapshotsOk_of_reachable h)
    (promisesOpen_of_reachable h) hget rfl
  simp only [State.step, Option.bind_eq_bind, hget, Option.bind_some, hs']
  exact Option.some_ne_none s'

end Marathon.Deployment
