import Marathon.Storage.GcInvariant

/-!
# What every step of the collector keeps

The invariant is kept by completing a promise, by each transition of the actor, by the
writes, the reads and the deletions, and from these by every step that keeps track.
-/

namespace Marathon.Storage.GcActor

open Lib

/-! ## Completing promises -/

theorem ReadsCurrent.mono {reads : Reads} {store : Store} {since since' : List StoredGroup}
    (h : ReadsCurrent reads store since) (hsub : since ⊆ since') :
    ReadsCurrent reads store since' where
  root := fun c hc => (h.root c hc).imp_right fun hmem => hsub hmem
  plans := fun plans hplans plan hplan => (h.plans plans hplans plan hplan).imp_right
    fun hsince version hversion => by
      obtain ⟨root, hroot, hv, hfound⟩ := hsince version hversion
      exact ⟨root, hsub hroot, hv, fun found hf => (hfound found hf).imp_left fun hmem => hsub hmem⟩
  roots := fun i version result hread found hf =>
    (h.roots i version result hread found hf).imp_right fun hmem => hsub hmem

namespace Request

variable {since since' : List StoredGroup} {request : Request} {position : ℕ} {part : Part}

theorem Sound.mono (h : request.Sound since) (hsub : since ⊆ since') : request.Sound since' where
  roots := h.roots
  approved := h.approved
  since := fun hwritten part hpart happroved root hroot =>
    hsub (h.since hwritten part hpart happroved root hroot)

theorem roots_approvePart (h : request.parts[position]? = some part) :
    (request.approvePart position part).roots = request.roots := by
  have hmap : (request.parts.set position { part with approved := true }).map Part.roots =
      request.parts.map Part.roots := by
    apply List.ext_getElem?
    intro i
    rw [List.getElem?_map, List.getElem?_map, List.getElem?_set]
    by_cases hi : position = i
    · subst hi
      obtain ⟨hlt, _⟩ := List.getElem?_eq_some_iff.mp h
      rw [if_pos rfl, if_pos hlt, h]
      rfl
    · rw [if_neg hi]
  rw [roots, approvePart, roots, List.flatMap, List.flatMap, hmap]

theorem mem_parts_approvePart {p : Part} (h : p ∈ (request.approvePart position part).parts) :
    p ∈ request.parts ∨ p = { part with approved := true } :=
  List.mem_or_eq_of_mem_set h

theorem mem_roots {root : StoredGroup} :
    root ∈ request.roots ↔ ∃ part ∈ request.parts, root ∈ part.roots :=
  List.mem_flatMap

theorem approved_of_mem {p : Part} (h : request.approved) (hp : p ∈ request.parts) : p.approved :=
  List.all_eq_true.mp h p hp

theorem Sound.not_written (h : request.Sound since) (hpart : part ∈ request.parts)
    (happroved : ¬part.approved) : ¬request.written :=
  fun hwritten => happroved (approved_of_mem (h.approved hwritten) hpart)

theorem Sound.approvePart (h : request.Sound since) (hpart : request.parts[position]? = some part)
    (happroved : ¬part.approved) (hsub : since ⊆ since') (hroots : part.roots ⊆ since') :
    (request.approvePart position part).Sound since' where
  roots := (roots_approvePart hpart).trans h.roots
  approved := fun hwritten =>
    absurd hwritten (h.not_written (List.mem_of_getElem? hpart) happroved)
  since := by
    intro hwritten p hp happroved root hroot
    rcases mem_parts_approvePart hp with hp | rfl
    · exact hsub (h.since hwritten p hp happroved root hroot)
    · exact hroots hroot

theorem sound_make (entity : Entity) (since : List StoredGroup) : (make entity).Sound since where
  roots := by simp [make, Request.roots]
  approved := fun h => absurd h Bool.false_ne_true
  since := by
    intro _ part hpart happroved
    obtain rfl : part = ⟨entity.roots, false⟩ := List.mem_singleton.mp hpart
    exact absurd happroved Bool.false_ne_true

/-- The roots of an approved request count as approved since the scan began, until it is
written. -/
theorem Sound.roots_subset (h : request.Sound since) (happroved : request.approved)
    (hwritten : ¬request.written) : request.entity.roots ⊆ since := by
  rw [← h.roots]
  intro root hroot
  obtain ⟨part, hpart, hmem⟩ := mem_roots.mp hroot
  exact h.since hwritten part hpart (approved_of_mem happroved hpart) root hmem

end Request

namespace State

variable {s : State} {promise : Promise}

/-- Completing a promise changes nothing, or approves one part of one request. -/
theorem completePromise_cases (s : State) (promise : Promise) :
    s.completePromise promise = s ∨ ∃ request part,
      s.requests[promise.request]? = some request ∧ request.parts[promise.part]? = some part ∧
        ¬part.approved ∧
        s.completePromise promise =
          { s with
            requests := s.requests.set promise.request (request.approvePart promise.part part)
            approvedSince := s.approvedSince ++ part.roots ++
              if (request.approvePart promise.part part).approved then
                (request.approvePart promise.part part).roots
              else [] } := by
  cases hrequest : s.requests[promise.request]? with
  | none =>
    left
    simp only [completePromise, hrequest]
  | some request =>
    cases hpart : request.parts[promise.part]? with
    | none =>
      left
      simp only [completePromise, hrequest, hpart]
    | some part =>
      by_cases happroved : part.approved
      · left
        simp only [completePromise, hrequest, hpart, if_pos happroved]
      · right
        refine ⟨request, part, rfl, hpart, happroved, ?_⟩
        simp only [completePromise, hrequest, hpart, if_neg happroved]

@[simp]
theorem data_completePromise : (s.completePromise promise).data = s.data := by
  rcases completePromise_cases s promise with h | ⟨_, _, _, _, _, h⟩ <;> rw [h]

@[simp]
theorem remaining_completePromise (s : State) (promise : Promise) :
    (s.completePromise promise).remaining = s.remaining := by
  rcases completePromise_cases s promise with h | ⟨_, _, _, _, _, h⟩ <;> rw [h]

theorem completePromise_frame (data : Data) (remaining : Finset Deletion) :
    completePromise { s with data := data, remaining := remaining } promise =
      { s.completePromise promise with data := data, remaining := remaining } := by
  unfold completePromise
  dsimp only
  split
  · rfl
  · split
    · rfl
    · split <;> rfl

theorem completePromise_withData (data : Data) :
    completePromise { s with data := data } promise =
      { s.completePromise promise with data := data } := by
  calc completePromise { s with data := data } promise
      = { s.completePromise promise with data := data, remaining := s.remaining } :=
        completePromise_frame data s.remaining
    _ = { s.completePromise promise with data := data } := by
        rw [← remaining_completePromise s promise]

theorem partRoots_completePromise (other : Promise) :
    (s.completePromise promise).partRoots other = s.partRoots other := by
  rcases completePromise_cases s promise with h | ⟨request, part, hrequest, hpart, _, h⟩
  · rw [h]
  rw [h]
  simp only [partRoots, List.getElem?_set]
  by_cases hsame : promise.request = other.request
  · obtain ⟨hlt, _⟩ := List.getElem?_eq_some_iff.mp hrequest
    rw [if_pos hsame, if_pos hlt, ← hsame, hrequest, Option.bind_some, Option.bind_some,
      Request.approvePart, List.getElem?_set]
    by_cases hpos : promise.part = other.part
    · obtain ⟨hlt', _⟩ := List.getElem?_eq_some_iff.mp hpart
      rw [if_pos hpos, if_pos hlt', ← hpos, hpart]
      rfl
    · rw [if_neg hpos]
  · rw [if_neg hsame]

theorem approvedSince_subset_completePromise (s : State) (promise : Promise) :
    s.approvedSince ⊆ (s.completePromise promise).approvedSince := by
  rcases completePromise_cases s promise with h | ⟨_, _, _, _, _, h⟩
  · rw [h]
    exact List.Subset.refl _
  · rw [h]
    intro root hroot
    exact List.mem_append_left _ (List.mem_append_left _ hroot)

theorem Inv.completePromise (hinv : s.Inv)
    (hpart : ∀ roots, s.partRoots promise = some roots → ∀ root ∈ roots, s.data.Protects root) :
    (s.completePromise promise).Inv := by
  rcases completePromise_cases s promise with h | ⟨request, part, hrequest, hat, happroved, h⟩
  · rwa [h]
  have hsub := approvedSince_subset_completePromise s promise
  have hsound : request.Sound s.approvedSince :=
    hinv.requests request (List.mem_of_getElem? hrequest)
  have hroots : ∀ root ∈ part.roots, s.data.Protects root := by
    apply hpart
    rw [partRoots, hrequest, Option.bind_some, hat, Option.map_some]
  have hwritten := hsound.not_written (List.mem_of_getElem? hat) happroved
  refine ⟨?_, ?_, ?_, ?_, ?_, ?_⟩
  · intro message hmessage
    have hsame : (s.completePromise promise).selfInbox = s.selfInbox := by rw [h]
    rw [hsame] at hmessage
    obtain ⟨root, other, rfl, hother⟩ := hinv.inbox message hmessage
    exact ⟨root, other, rfl, (partRoots_completePromise other).trans hother⟩
  · intro r hr
    have hset : (s.completePromise promise).requests =
        s.requests.set promise.request (request.approvePart promise.part part) := by rw [h]
    rw [hset] at hr
    rcases List.mem_or_eq_of_mem_set hr with hr | rfl
    · exact (hinv.requests r hr).mono hsub
    · apply hsound.approvePart hat happroved hsub
      rw [h]
      intro root hroot
      exact List.mem_append_left _ (List.mem_append_right _ hroot)
  · intro root hroot
    rw [data_completePromise]
    rw [h] at hroot
    rcases List.mem_append.mp hroot with hroot | hroot
    · rcases List.mem_append.mp hroot with hroot | hroot
      · exact hinv.protects root hroot
      · exact hroots root hroot
    split at hroot
    · rename_i hall
      obtain ⟨p, hp, hmem⟩ := Request.mem_roots.mp hroot
      rcases Request.mem_parts_approvePart hp with hp' | rfl
      · exact hinv.protects root
          (hsound.since hwritten p hp' (Request.approved_of_mem hall hp) root hmem)
      · exact hroots root hmem
    · cases hroot
  · rw [data_completePromise, h]
    exact hinv.remaining
  · intro updates hdata
    rw [data_completePromise] at hdata
    have hcurrent := (hinv.scanning updates hdata).mono hsub
    rw [h] at hcurrent ⊢
    exact hcurrent
  · rw [data_completePromise, h]
    exact hinv.compacting

theorem Inv.withData (hinv : s.Inv) {data : Data}
    (hprotects : ∀ root ∈ s.approvedSince, data.Protects root)
    (hremaining : ∀ d ∈ s.remaining, ∃ blocked, data = .compacting blocked ∧ d ∈ blocked.deletions)
    (hscanning : ∀ updates, data = .scanning updates →
      ReadsCurrent s.reads s.store s.approvedSince)
    (hcompacting : ∀ blocked, data = .compacting blocked → Kept blocked s.store) :
    Inv { s with data := data } where
  inbox := hinv.inbox
  requests := hinv.requests
  protects := hprotects
  remaining := hremaining
  scanning := hscanning
  compacting := hcompacting

theorem completePromises_frame (data : Data) (remaining : Finset Deletion)
    (promises : List Promise) :
    completePromises { s with data := data, remaining := remaining } promises =
      { s.completePromises promises with data := data, remaining := remaining } := by
  induction promises generalizing s with
  | nil => rfl
  | cons promise promises ih =>
    calc completePromises { s with data := data, remaining := remaining } (promise :: promises)
        = completePromises
            (completePromise { s with data := data, remaining := remaining } promise) promises := rfl
      _ = completePromises
            { s.completePromise promise with data := data, remaining := remaining } promises := by
          rw [completePromise_frame]
      _ = { s.completePromises (promise :: promises) with
            data := data, remaining := remaining } := ih

theorem Inv.completePromises (hinv : s.Inv) (hprotects : ∀ root, s.data.Protects root)
    (promises : List Promise) : (s.completePromises promises).Inv := by
  induction promises generalizing s with
  | nil => exact hinv
  | cons promise promises ih =>
    apply ih (hinv.completePromise fun _ _ root _ => hprotects root)
    rw [data_completePromise]
    exact hprotects

theorem Inv.remaining_eq_empty (hinv : s.Inv) (h : ∀ blocked, s.data ≠ .compacting blocked) :
    s.remaining = ∅ := by
  apply Finset.eq_empty_of_forall_notMem
  intro d hd
  obtain ⟨blocked, hdata, _⟩ := hinv.remaining d hd
  exact h blocked hdata

/-! ## The transitions of the actor -/

/-- A scan begins with nothing approved since: what has been approved is written. -/
theorem Inv.startScan (hinv : s.Inv) (hremaining : s.remaining = ∅)
    (hwritten : ∀ request ∈ s.requests,
      request.entity.isRunSpec ∨ request.written ∨ ∀ part ∈ request.parts, ¬part.approved) :
    s.startScan.Inv where
  inbox := hinv.inbox
  requests := by
    intro request hrequest
    have hsound := hinv.requests request hrequest
    refine ⟨hsound.roots, hsound.approved, ?_⟩
    intro hnot part hpart happroved root hroot
    rcases hwritten request hrequest with hspec | hdone | hnone
    · -- a run spec has no roots
      have hroots : request.roots = [] := by
        rw [hsound.roots]
        cases hentity : request.entity with
        | runSpec => rfl
        | root => simp [hentity, Entity.isRunSpec] at hspec
        | plan => simp [hentity, Entity.isRunSpec] at hspec
      have hmem : root ∈ request.roots := Request.mem_roots.mpr ⟨part, hpart, hroot⟩
      rw [hroots] at hmem
      cases hmem
    · exact absurd hdone hnot
    · exact absurd happroved (hnone part hpart)
  protects := fun root hroot => absurd hroot List.not_mem_nil
  remaining := by
    intro d hd
    have hempty : d ∈ (∅ : Finset Deletion) := hremaining ▸ hd
    exact absurd hempty (Finset.notMem_empty d)
  scanning := by
    intro updates _
    refine ⟨?_, ?_, ?_⟩
    · intro currentRoot hread
      cases hread
    · intro storedPlans hread
      cases hread
    · intro position version result hread
      cases hread
  compacting := by
    intro blocked hdata
    cases hdata

theorem Inv.withRest (hinv : s.Inv) (hremaining : s.remaining = ∅) {data : Data}
    (hdata : data = .resting ∨ data = .readyForGc) : Inv { s with data := data } := by
  apply hinv.withData
  · intro root _
    rcases hdata with rfl | rfl <;> exact trivial
  · intro d hd
    rw [hremaining] at hd
    exact absurd hd (Finset.notMem_empty d)
  · rintro updates rfl
    rcases hdata with h | h <;> cases h
  · rintro blocked rfl
    rcases hdata with h | h <;> cases h

theorem Inv.goToRest (hinv : s.Inv) (config : Config) (hremaining : s.remaining = ∅) :
    (s.goToRest config).Inv := by
  apply hinv.withRest hremaining
  by_cases hinterval : config.cleaningInterval ≤ 0
  · exact .inr (if_pos hinterval)
  · exact .inl (if_neg hinterval)

/-- While scanning, the roots of a promise are recorded as it is completed. -/
theorem Inv.record (hinv : s.Inv) {updates updates' : UpdatedEntities}
    (hdata : s.data = .scanning updates) (hextends : updates'.Extends updates)
    (hpart : ∀ roots, s.partRoots promise = some roots → ∀ root ∈ roots,
      (Data.scanning updates').Protects root) :
    Inv { s.completePromise promise with data := .scanning updates' } := by
  rw [← completePromise_withData]
  have hstate : Inv { s with data := .scanning updates' } := by
    apply hinv.withData
    · intro root hroot
      have hprotects := hinv.protects root hroot
      rw [hdata] at hprotects
      exact hextends.protects hprotects
    · intro d hd
      obtain ⟨blocked, hcompacting, _⟩ := hinv.remaining d hd
      rw [hdata] at hcompacting
      cases hcompacting
    · exact fun _ _ => hinv.scanning updates hdata
    · intro blocked hcompacting
      cases hcompacting
  exact hstate.completePromise hpart

theorem Inv.withBlocked (hinv : s.Inv) {blocked blocked' : BlockedEntities}
    (hdata : s.data = .compacting blocked)
    (hprotects : ∀ root, (Data.compacting blocked).Protects root →
      (Data.compacting blocked').Protects root)
    (hdeletions : blocked'.deletions = blocked.deletions)
    (hkept : Kept blocked s.store → Kept blocked' s.store) :
    Inv { s with data := .compacting blocked' } := by
  apply hinv.withData
  · intro root hroot
    apply hprotects
    rw [← hdata]
    exact hinv.protects root hroot
  · intro d hd
    obtain ⟨before, hcompacting, hmem⟩ := hinv.remaining d hd
    rw [hdata] at hcompacting
    cases hcompacting
    exact ⟨blocked', rfl, hdeletions ▸ hmem⟩
  · intro updates hscanning
    cases hscanning
  · intro after hafter
    cases hafter
    exact hkept (hinv.compacting blocked hdata)

theorem Inv.block (hinv : s.Inv) {blocked : BlockedEntities} (hdata : s.data = .compacting blocked)
    (promise : Promise) : Inv { s with data := .compacting (blocked.block promise) } :=
  hinv.withBlocked hdata (fun _ h => h) rfl fun h => ⟨h.1, h.2, h.3, h.4⟩

/-- The promise of the message is one of a request for what the message names. -/
def MessageFits (s : State) : Message → Prop
  | .storeApp _ _ promise | .storePod _ _ promise => s.partRoots promise = some []
  | .storeRoot root promise => s.partRoots promise = some [root]
  | .storePlan plan promise =>
    s.requests[promise.request]? = some (.make (.plan plan)) ∧ promise.part = 0
  | .runGC | .wakeUp => True
  | .scanDone _ | .compactDone => False

theorem MessageFits.partRoots_storePlan {plan : DeploymentPlan}
    (h : s.MessageFits (.storePlan plan promise)) :
    s.partRoots promise = some (Entity.plan plan).roots := by
  obtain ⟨hrequest, hpart⟩ := h
  rw [partRoots, hrequest, hpart]
  rfl

section Receive

variable {config : Config} {message : Message}

theorem Inv.completePromise_of_rest (hinv : s.Inv) (hdata : s.data = .resting ∨ s.data = .readyForGc)
    (promise : Promise) : (s.completePromise promise).Inv := by
  apply hinv.completePromise
  intro roots _ root _
  rcases hdata with h | h <;> rw [h] <;> exact trivial

theorem Inv.receiveResting (hinv : s.Inv) (hdata : s.data = .resting)
    (hfits : s.MessageFits message) : (s.receiveResting message).Inv := by
  have hremaining : s.remaining = ∅ := by
    apply hinv.remaining_eq_empty
    intro blocked hcompacting
    rw [hdata] at hcompacting
    cases hcompacting
  cases message with
  | wakeUp => exact hinv.withRest hremaining (.inr rfl)
  | storeApp id version promise => exact hinv.completePromise_of_rest (.inl hdata) promise
  | storePod id version promise => exact hinv.completePromise_of_rest (.inl hdata) promise
  | storeRoot root promise => exact hinv.completePromise_of_rest (.inl hdata) promise
  | storePlan plan promise => exact hinv.completePromise_of_rest (.inl hdata) promise
  | runGC => exact hinv
  | scanDone done => exact hfits.elim
  | compactDone => exact hfits.elim

theorem Inv.receiveReadyForGc (hinv : s.Inv) (hdata : s.data = .readyForGc)
    (hfits : s.MessageFits message)
    (hwritten : message = .runGC → ∀ request ∈ s.requests,
      request.entity.isRunSpec ∨ request.written ∨ ∀ part ∈ request.parts, ¬part.approved) :
    (s.receiveReadyForGc message).Inv := by
  have hremaining : s.remaining = ∅ := by
    apply hinv.remaining_eq_empty
    intro blocked hcompacting
    rw [hdata] at hcompacting
    cases hcompacting
  cases message with
  | runGC => exact hinv.startScan hremaining (hwritten rfl)
  | storeApp id version promise => exact hinv.completePromise_of_rest (.inr hdata) promise
  | storePod id version promise => exact hinv.completePromise_of_rest (.inr hdata) promise
  | storeRoot root promise => exact hinv.completePromise_of_rest (.inr hdata) promise
  | storePlan plan promise => exact hinv.completePromise_of_rest (.inr hdata) promise
  | wakeUp => exact hinv
  | scanDone done => exact hfits.elim
  | compactDone => exact hfits.elim

/-- While scanning every store message is recorded. -/
theorem Inv.receiveScanning (hinv : s.Inv) {updates : UpdatedEntities}
    (hdata : s.data = .scanning updates) (hfits : s.MessageFits message) :
    (s.receiveScanning config updates message).Inv := by
  cases message with
  | runGC =>
    have hsame : Inv { s with data := .scanning { updates with gcRequested := true } } := by
      apply hinv.withData
      · intro root hroot
        have hprotects := hinv.protects root hroot
        rw [hdata] at hprotects
        exact hprotects
      · intro d hd
        obtain ⟨blocked, hcompacting, _⟩ := hinv.remaining d hd
        rw [hdata] at hcompacting
        cases hcompacting
      · exact fun _ _ => hinv.scanning updates hdata
      · intro blocked hcompacting
        cases hcompacting
    exact hsame
  | storeApp id version promise =>
    apply hinv.record hdata (extends_addApp updates id version)
    intro roots hroots root hroot
    cases hfits.symm.trans hroots
    cases hroot
  | storePod id version promise =>
    apply hinv.record hdata (extends_addPod updates id version)
    intro roots hroots root hroot
    cases hfits.symm.trans hroots
    cases hroot
  | storeRoot root promise =>
    apply hinv.record hdata (extends_addRoot updates root)
    intro roots hroots other hother
    cases hfits.symm.trans hroots
    obtain rfl := List.mem_singleton.mp hother
    exact protects_addRoot updates other
  | storePlan plan promise =>
    apply hinv.record hdata (extends_addPlan updates plan)
    intro roots hroots root hroot
    cases hfits.partRoots_storePlan.symm.trans hroots
    exact protects_addPlan updates plan hroot
  | wakeUp => exact hinv
  | scanDone done => exact hfits.elim
  | compactDone => exact hfits.elim

/-- The two root messages that stand for a plan have a promise each. -/
theorem Inv.completeWith (hinv : s.Inv) {plan : DeploymentPlan}
    (hrequest : s.requests[promise.request]? = some (.make (.plan plan))) :
    Inv { s.completeWith promise plan with
      selfInbox := s.selfInbox ++
        [.storeRoot (StoredGroup.ofGroup plan.original) ⟨promise.request, 0⟩,
          .storeRoot (StoredGroup.ofGroup plan.target) ⟨promise.request, 1⟩] } := by
  obtain ⟨hlt, _⟩ := List.getElem?_eq_some_iff.mp hrequest
  have hat : (s.completeWith promise plan).requests[promise.request]? =
      some { Request.make (.plan plan) with
        parts := [⟨[StoredGroup.ofGroup plan.original], false⟩,
          ⟨[StoredGroup.ofGroup plan.target], false⟩] } := by
    rw [State.completeWith, List.getElem?_modify_eq, hrequest]
    rfl
  have hother : ∀ other : Promise, other.request ≠ promise.request →
      (s.completeWith promise plan).partRoots other = s.partRoots other := by
    intro other hne
    rw [partRoots, partRoots, State.completeWith, List.getElem?_modify_ne _ _ hne.symm]
  refine ⟨?_, ?_, hinv.protects, hinv.remaining, hinv.scanning, hinv.compacting⟩
  · intro message hmessage
    rcases List.mem_append.mp hmessage with hold | hnew
    · obtain ⟨root, other, rfl, hparts⟩ := hinv.inbox message hold
      refine ⟨root, other, rfl, ?_⟩
      by_cases hsame : other.request = promise.request
      · -- the only part of the request was about two roots
        rw [partRoots, hsame, hrequest, Option.bind_some] at hparts
        cases hpart : other.part with
        | zero => simp [Request.make, Entity.roots, hpart] at hparts
        | succ n => simp [Request.make, hpart] at hparts
      · exact (hother other hsame).trans hparts
    · rcases List.mem_pair.mp hnew with rfl | rfl
      · refine ⟨_, _, rfl, ?_⟩
        show (s.completeWith promise plan).partRoots ⟨promise.request, 0⟩ = _
        rw [partRoots, hat]
        rfl
      · refine ⟨_, _, rfl, ?_⟩
        show (s.completeWith promise plan).partRoots ⟨promise.request, 1⟩ = _
        rw [partRoots, hat]
        rfl
  · intro request hmem
    obtain ⟨i, hi⟩ := List.getElem?_of_mem hmem
    by_cases hsame : i = promise.request
    · subst hsame
      cases hat.symm.trans hi
      refine ⟨rfl, ?_, ?_⟩
      · intro hwritten
        cases hwritten
      · intro _ part hpart happroved
        rcases List.mem_pair.mp hpart with rfl | rfl <;> cases happroved
    · have hget : s.requests[i]? = some request := by
        rw [← List.getElem?_modify_ne _ _ (Ne.symm hsame)]
        exact hi
      exact hinv.requests request (List.mem_of_getElem? hget)

/-- While compacting a store message waits, or is approved when nothing it is about is
being deleted. -/
theorem Inv.receiveCompacting (hinv : s.Inv) {blocked : BlockedEntities}
    (hdata : s.data = .compacting blocked) (hfits : s.MessageFits message)
    (hchecked : ∀ root promise, message = .storeRoot root promise → ¬blocked.blocksRoot root →
      (Data.compacting blocked).Protects root) :
    (s.receiveCompacting config blocked message).Inv := by
  have hspec : ∀ promise, s.partRoots promise = some [] → (s.completePromise promise).Inv := by
    intro promise hparts
    apply hinv.completePromise
    intro roots hroots root hroot
    cases hparts.symm.trans hroots
    cases hroot
  cases message with
  | runGC => exact hinv.withBlocked hdata (fun _ h => h) rfl fun h => ⟨h.1, h.2, h.3, h.4⟩
  | storeApp id version promise =>
    rw [State.receiveCompacting]
    split
    · exact hinv.block hdata promise
    · exact hspec promise hfits
  | storePod id version promise =>
    rw [State.receiveCompacting]
    split
    · exact hinv.block hdata promise
    · exact hspec promise hfits
  | storeRoot root promise =>
    rw [State.receiveCompacting]
    split
    · exact hinv.block hdata promise
    · rename_i hblocks
      apply hinv.completePromise
      intro roots hroots other hother
      cases hfits.symm.trans hroots
      obtain rfl := List.mem_singleton.mp hother
      rw [hdata]
      exact hchecked other promise rfl hblocks
  | storePlan plan promise => exact hinv.completeWith hfits.1
  | wakeUp => exact hinv
  | scanDone done => exact hfits.elim
  | compactDone => exact hfits.elim

/-- A store message, `RunGC` or `WakeUp` keeps the invariant in every state of the actor. -/
theorem Inv.receive (hinv : s.Inv) (hfits : s.MessageFits message)
    (hwritten : s.data = .readyForGc → message = .runGC → ∀ request ∈ s.requests,
      request.entity.isRunSpec ∨ request.written ∨ ∀ part ∈ request.parts, ¬part.approved)
    (hchecked : ∀ blocked root promise, s.data = .compacting blocked →
      message = .storeRoot root promise → ¬blocked.blocksRoot root →
        (Data.compacting blocked).Protects root) :
    (s.receive config message).Inv := by
  cases hdata : s.data with
  | resting =>
    rw [State.receive, hdata]
    exact hinv.receiveResting hdata hfits
  | readyForGc =>
    rw [State.receive, hdata]
    exact hinv.receiveReadyForGc hdata hfits (hwritten hdata)
  | scanning updates =>
    rw [State.receive, hdata]
    exact hinv.receiveScanning hdata hfits
  | compacting blocked =>
    rw [State.receive, hdata]
    exact hinv.receiveCompacting hdata hfits fun root promise => hchecked blocked root promise hdata

/-- The end of a compaction completes the promises that have waited for it. -/
theorem Inv.receive_compactDone (hinv : s.Inv) {blocked : BlockedEntities}
    (hdata : s.data = .compacting blocked)
    (hwritten : blocked.gcRequested → ∀ request ∈ (s.completePromises blocked.promises).requests,
      request.entity.isRunSpec ∨ request.written ∨ ∀ part ∈ request.parts, ¬part.approved) :
    (State.receive config { s with remaining := ∅ } .compactDone).Inv := by
  have hrest : Inv { s with data := .resting, remaining := ∅ } := by
    refine ⟨hinv.inbox, hinv.requests, fun _ _ => trivial, ?_, ?_, ?_⟩
    · intro d hd
      exact absurd hd (Finset.notMem_empty d)
    · intro updates h
      cases h
    · intro blocked h
      cases h
  have hcompleted : Inv { s.completePromises blocked.promises with data := .resting, remaining := ∅ } := by
    rw [← completePromises_frame]
    exact hrest.completePromises (fun _ => trivial) blocked.promises
  have hreceive : State.receive config { s with remaining := ∅ } .compactDone =
      if blocked.gcRequested then
        State.startScan
          { s.completePromises blocked.promises with data := .compacting blocked, remaining := ∅ }
      else State.goToRest config
        { s.completePromises blocked.promises with data := .compacting blocked, remaining := ∅ } := by
    rw [← completePromises_frame]
    simp only [State.receive, hdata, State.receiveCompacting]
  rw [hreceive]
  split
  · rename_i hrequested
    exact hcompleted.startScan rfl (hwritten hrequested)
  · exact hcompleted.goToRest config rfl

end Receive

end State

end Marathon.Storage.GcActor
