import Marathon.Matcher.OfferMatcherManagerActor

/-!
# Conserved offers

Every offer is unprocessed, in a queue or completed, and every operation that a matcher answers
with ends up in the result of its offer or is rejected. Operations are accepted for launch tokens.
-/

namespace Marathon.OfferMatcherManagerActor

open Lib

section General

variable {Resource Key Source : Type} {util : ResourceUtil Resource Key}
  {config : Config} {event : Event Resource Source} {s s' s'' : State Resource Source}
  {effects effects' : List (Effect Resource Source)}

/-! ## Where offers and operations are -/

/-- The offers that are unprocessed or in a queue, with their promises. -/
def State.live (s : State Resource Source) : List (OfferID × ℕ) :=
  s.unprocessedOffers.map (fun unprocessed => (unprocessed.offer.id, unprocessed.promise)) ++
    s.offerQueues.values.map fun data => (data.offer.id, data.promise)

/-- The operations that are in a queue, with the ids of their offers. -/
def State.matched (s : State Resource Source) : List (OfferID × InstanceOpWithSource Source) :=
  s.offerQueues.values.flatMap fun data => data.ops.map fun op => (data.offer.id, op)

def Effect.completion? : Effect Resource Source → Option (OfferID × ℕ)
  | complete promise result => some (result.offerId, promise)
  | _ => none

def Effect.resultOps : Effect Resource Source → List (OfferID × InstanceOpWithSource Source)
  | complete _ result => result.opsWithSource.map fun op => (result.offerId, op)
  | _ => []

def Effect.rejection? : Effect Resource Source → Option (OfferID × InstanceOpWithSource Source)
  | reject offerId op _ => some (offerId, op)
  | _ => none

/-- The offers whose promises are completed. -/
def completions (effects : List (Effect Resource Source)) : List (OfferID × ℕ) :=
  effects.filterMap Effect.completion?

/-- The operations in the results of offers. -/
def results (effects : List (Effect Resource Source)) :
    List (OfferID × InstanceOpWithSource Source) :=
  effects.flatMap Effect.resultOps

def rejections (effects : List (Effect Resource Source)) :
    List (OfferID × InstanceOpWithSource Source) :=
  effects.filterMap Effect.rejection?

/-- The offer that is received with a message. -/
def Message.received : Message Resource Source → List (OfferID × ℕ)
  | matchOffer offer promise => [(offer.id, promise)]
  | _ => []

/-- The operations that a matcher answers with. -/
def Message.returned : Message Resource Source → List (OfferID × InstanceOpWithSource Source)
  | matchedInstanceOps answer => answer.opsWithSource.map fun op => (answer.offerId, op)
  | _ => []

/-- The tokens that a message grants, less those that it takes back. -/
def Message.granted (s : State Resource Source) : Message Resource Source → ℤ
  | setInstanceLaunchTokens tokens => tokens - s.launchTokens
  | addInstanceLaunchTokens tokens => tokens
  | _ => 0

theorem completions_append (effects effects' : List (Effect Resource Source)) :
    completions (effects ++ effects') = completions effects ++ completions effects' :=
  List.filterMap_append

theorem results_append (effects effects' : List (Effect Resource Source)) :
    results (effects ++ effects') = results effects ++ results effects' :=
  List.flatMap_append

theorem rejections_append (effects effects' : List (Effect Resource Source)) :
    rejections (effects ++ effects') = rejections effects ++ rejections effects' :=
  List.filterMap_append

/-! ## Moves -/

/-- Not more operations than are allowed on an offer. -/
def Config.Allows (config : Config) (ops : List (InstanceOpWithSource Source)) : Prop :=
  (ops.length : ℤ) ≤ max 0 config.maxInstancesPerOffer

/-- The offers have different ids, and none of them has too many operations. -/
structure Sound (config : Config) (s : State Resource Source) : Prop where
  nodup : (s.live.map Prod.fst).Nodup
  allows : ∀ data ∈ s.offerQueues.values, config.Allows data.ops

/-- The results of offers do not have too many operations. -/
def SoundResults (config : Config) (effects : List (Effect Resource Source)) : Prop :=
  ∀ promise result, .complete promise result ∈ effects → config.Allows result.opsWithSource

/-- Offers are moved and completed, with the operations that they have. -/
structure Moves (config : Config) (s : State Resource Source)
    (effects : List (Effect Resource Source)) (s' : State Resource Source) : Prop where
  offers : s.live.Perm (s'.live ++ completions effects)
  ops : s.matched.Perm (s'.matched ++ results effects)
  rejections : rejections effects = []
  tokens : s'.launchTokens = s.launchTokens
  sound : Sound config s → Sound config s' ∧ SoundResults config effects

theorem Moves.trans (h : Moves config s effects s') (h' : Moves config s' effects' s'') :
    Moves config s (effects ++ effects') s'' where
  offers := by
    rw [completions_append]
    refine h.offers.trans ((h'.offers.append_right _).trans ?_)
    rw [List.append_assoc]
    exact List.perm_append_comm.append_left _
  ops := by
    rw [results_append]
    refine h.ops.trans ((h'.ops.append_right _).trans ?_)
    rw [List.append_assoc]
    exact List.perm_append_comm.append_left _
  rejections := by rw [rejections_append, h.rejections, h'.rejections, List.append_nil]
  tokens := h'.tokens.trans h.tokens
  sound hs := by
    obtain ⟨hs', hresults⟩ := h.sound hs
    obtain ⟨hs'', hresults'⟩ := h'.sound hs'
    refine ⟨hs'', fun promise result hmem => ?_⟩
    rcases List.mem_append.mp hmem with hmem | hmem
    · exact hresults promise result hmem
    · exact hresults' promise result hmem

theorem moves_refl (config : Config) (s : State Resource Source)
    (hcompletions : completions effects = []) (hresults : results effects = [])
    (hrejections : OfferMatcherManagerActor.rejections effects = []) :
    Moves config s effects s where
  offers := by rw [hcompletions, List.append_nil]
  ops := by rw [hresults, List.append_nil]
  rejections := hrejections
  tokens := rfl
  sound hs := by
    refine ⟨hs, fun promise result hmem => ?_⟩
    have hcompletion : (result.offerId, promise) ∈ completions effects :=
      List.mem_filterMap.mpr ⟨_, hmem, rfl⟩
    rw [hcompletions] at hcompletion
    cases hcompletion

theorem sound_of_perm {rest : List (OfferID × ℕ)} (h : Sound config s)
    (hperm : s.live.Perm (s'.live ++ rest))
    (hallows : ∀ data ∈ s'.offerQueues.values, config.Allows data.ops) : Sound config s' where
  nodup := by
    have hnodup := (hperm.map Prod.fst).nodup_iff.mp h.nodup
    rw [List.map_append] at hnodup
    exact (List.nodup_append.mp hnodup).1
  allows := hallows

variable {data : MatchOfferData Resource Source}

theorem moves_completeWithMatchResult (h : s.offerQueues.lookup data.offer.id = some data)
    (resendThisOffer : Bool) :
    Moves config s (completeWithMatchResult s data resendThisOffer).1
      (completeWithMatchResult s data resendThisOffer).2 := by
  have hperm := Keyed.values_perm_cons_erase h
  have hoffers : s.live.Perm ((completeWithMatchResult s data resendThisOffer).2.live ++
      [(data.offer.id, data.promise)]) := by
    refine ((hperm.map _).append_left _).trans ?_
    rw [List.map_cons]
    exact List.perm_middle.trans (List.perm_append_singleton _ _).symm
  refine ⟨hoffers, ?_, rfl, rfl, fun hs => ⟨sound_of_perm hs hoffers fun other hother => ?_, ?_⟩⟩
  · refine (hperm.flatMap_right _).trans ?_
    rw [List.flatMap_cons]
    refine List.perm_append_comm.trans (List.Perm.append_left _ (List.Perm.of_eq ?_))
    exact (List.append_nil _).symm
  · exact hs.allows other (hperm.mem_iff.mpr (List.mem_cons_of_mem _ hother))
  · intro promise result hmem
    cases List.mem_singleton.mp hmem
    exact hs.allows data (hperm.mem_iff.mpr List.mem_cons_self)

theorem moves_completeAll {stuck : List (MatchOfferData Resource Source)}
    (hnodup : (stuck.map fun data => data.offer.id).Nodup)
    (hlookup : ∀ data ∈ stuck, s.offerQueues.lookup data.offer.id = some data) :
    Moves config s (completeAll s stuck).1 (completeAll s stuck).2 := by
  induction stuck generalizing s with
  | nil => exact moves_refl config s rfl rfl rfl
  | cons data rest ih =>
    obtain ⟨hnotMem, hnodup⟩ := List.nodup_cons.mp hnodup
    obtain ⟨hdata, hrest⟩ := List.forall_mem_cons.mp hlookup
    refine (moves_completeWithMatchResult hdata true).trans (ih hnodup fun other hother => ?_)
    have hne : other.offer.id ≠ data.offer.id := fun heq =>
      hnotMem (List.mem_map.mpr ⟨other, hother, heq⟩)
    show (s.offerQueues.erase data.offer.id).lookup other.offer.id = some other
    rw [Keyed.lookup_erase, if_neg hne]
    exact hrest other hother

theorem moves_declined {valid overdue : List (UnprocessedOffer Resource)}
    (h : s.unprocessedOffers = valid ++ overdue) :
    Moves config s
      (overdue.map fun unprocessed =>
        completeWithNoMatch unprocessed.offer unprocessed.promise true)
      { s with unprocessedOffers := valid } := by
  have hcompletions : completions (overdue.map fun unprocessed =>
      (completeWithNoMatch unprocessed.offer unprocessed.promise true :
        Effect Resource Source)) =
      overdue.map fun unprocessed => (unprocessed.offer.id, unprocessed.promise) := by
    rw [completions, List.filterMap_map]
    exact congrFun List.filterMap_eq_map overdue
  have hoffers : s.live.Perm (State.live { s with unprocessedOffers := valid } ++
      overdue.map fun unprocessed => (unprocessed.offer.id, unprocessed.promise)) := by
    rw [State.live, h, List.map_append, State.live, List.append_assoc, List.append_assoc]
    exact List.perm_append_comm.append_left _
  refine ⟨by rw [hcompletions]; exact hoffers, ?_, ?_, rfl,
    fun hs => ⟨sound_of_perm hs hoffers hs.allows, ?_⟩⟩
  · have hresults : results (overdue.map fun unprocessed =>
        (completeWithNoMatch unprocessed.offer unprocessed.promise true :
          Effect Resource Source)) = [] := by
      rw [results, List.flatMap_map]
      exact List.flatMap_eq_nil_iff.mpr fun _ _ => rfl
    rw [hresults, List.append_nil]
    exact List.Perm.refl _
  · rw [rejections, List.filterMap_map]
    exact List.filterMap_eq_nil_iff.mpr fun _ _ => rfl
  · intro promise result hmem
    obtain ⟨unprocessed, -, heq⟩ := List.mem_map.mp hmem
    cases heq
    exact le_max_left _ _

theorem moves_rejectElapsedOffers (config : Config) (event : Event Resource Source)
    (s : State Resource Source) :
    Moves config s (rejectElapsedOffers config event s).1
      (rejectElapsedOffers config event s).2 := by
  have hspan : s.unprocessedOffers =
      (s.unprocessedOffers.span fun unprocessed => !unprocessed.isOverdue event.now).1 ++
        (s.unprocessedOffers.span fun unprocessed => !unprocessed.isOverdue event.now).2 := by
    rw [List.span_eq_takeWhile_dropWhile]
    exact List.takeWhile_append_dropWhile.symm
  refine (moves_declined hspan).trans (moves_completeAll ?_ ?_)
  · have hvalues : (s.offerQueues.values.map fun data => data.offer.id).Nodup :=
      s.offerQueues.nodup_map_values
    exact hvalues.sublist (List.filter_sublist.map _)
  · intro data hdata
    exact Keyed.mem_values.mp (List.mem_filter.mp hdata).1

/-! ## Starting and scheduling -/

theorem lookup_insert_self (s : State Resource Source) (data : MatchOfferData Resource Source) :
    (s.offerQueues.insert data).lookup data.offer.id = some data := by
  rw [Keyed.lookup_insert]
  exact if_pos rfl

section Schedule

variable {startNext : State Resource Source → List (Effect Resource Source) × State Resource Source}

theorem moves_scheduleNextMatcherOr (hs : Sound config s)
    (hdata : s.offerQueues.lookup data.offer.id = some data)
    (hnext : ∀ s', Sound config s' → s'.unprocessedOffers = s.unprocessedOffers →
      Moves config s' (startNext s').1 (startNext s').2) :
    Moves config s (scheduleNextMatcherOr config event startNext s data).1
      (scheduleNextMatcherOr config event startNext s data).2 := by
  rw [scheduleNextMatcherOr]
  split
  · exact moves_refl config s rfl rfl rfl
  · have hcomplete : Moves config s (completeWithMatchResult s data data.resendThisOffer).1
        (completeWithMatchResult s data data.resendThisOffer).2 :=
      moves_completeWithMatchResult hdata data.resendThisOffer
    dsimp only
    split_ifs
    · exact hcomplete.trans (hnext _ (hcomplete.sound hs).1 rfl)
    · exact hcomplete

theorem moves_startProcessOfferOr {head : UnprocessedOffer Resource}
    {tail : List (UnprocessedOffer Resource)} (hs : Sound config s)
    (hhead : s.unprocessedOffers = head :: tail)
    (hnext : ∀ s', Sound config s' → s'.unprocessedOffers = tail →
      Moves config s' (startNext s').1 (startNext s').2) (deadline : Timestamp) :
    let r := startProcessOfferOr util config event startNext { s with unprocessedOffers := tail }
      head.offer deadline head.promise
    Moves config s r.1 r.2 := by
  intro r
  let data : MatchOfferData Resource Source :=
    ⟨head.offer, deadline, head.promise,
      offerMatchers util event { s with unprocessedOffers := tail } head.offer, [], 0, false⟩
  let queued : State Resource Source :=
    { s with unprocessedOffers := tail, offerQueues := s.offerQueues.insert data }
  -- the id of the offer is not in a queue
  have hnone : s.offerQueues.lookup head.offer.id = none := by
    rw [← Option.not_isSome_iff_eq_none]
    intro hsome
    obtain ⟨other, hother⟩ := Option.isSome_iff_exists.mp hsome
    have hnodup := hs.nodup
    rw [State.live, hhead, List.map_cons, List.cons_append, List.map_cons, List.nodup_cons,
      List.map_append, List.map_map] at hnodup
    have hkey : other.id = head.offer.id := Keyed.key_of_lookup hother
    have hvalue : s.offerQueues.lookup other.id = some other := hkey ▸ hother
    refine hnodup.1 (List.mem_append_right _ (List.mem_map.mpr ⟨_, List.mem_map_of_mem
      (Keyed.mem_values.mpr hvalue), hkey⟩))
  have hvalues : queued.offerQueues.values = data :: s.offerQueues.values := by
    have herase : s.offerQueues.erase data.id = s.offerQueues := Keyed.erase_of_none hnone
    show (s.offerQueues.insert data).values = _
    rw [Keyed.values_insert, herase]
  have hoffers : s.live.Perm (queued.live ++ []) := by
    rw [State.live, hhead, State.live, hvalues, List.append_nil, List.map_cons, List.map_cons]
    exact List.perm_middle.symm
  have hmoves : Moves config s [] queued := by
    refine ⟨hoffers, ?_, rfl, rfl, fun hs => ⟨sound_of_perm hs hoffers ?_, fun _ _ hmem => ?_⟩⟩
    · rw [State.matched, State.matched, hvalues]
      exact List.Perm.of_eq (List.append_nil _).symm
    · intro other hother
      rw [hvalues] at hother
      rcases List.mem_cons.mp hother with rfl | hother
      · exact le_max_left _ _
      · exact hs.allows other hother
    · cases hmem
  exact hmoves.trans
    (moves_scheduleNextMatcherOr (hmoves.sound hs).1 (lookup_insert_self _ data) hnext)

end Schedule

theorem moves_startNextOf {unprocessed : List (UnprocessedOffer Resource)} (hs : Sound config s)
    (h : s.unprocessedOffers = unprocessed) :
    Moves config s (startNextOf util config event unprocessed s).1
      (startNextOf util config event unprocessed s).2 := by
  induction unprocessed generalizing s with
  | nil => exact moves_refl config s rfl rfl rfl
  | cons head tail ih =>
    rw [startNextOf]
    split_ifs
    · exact moves_rejectElapsedOffers config event s
    · exact moves_startProcessOfferOr hs h (fun _ => ih) _
    · exact moves_refl config s rfl rfl rfl

theorem moves_scheduleNextMatcherOrFinish (hs : Sound config s)
    (hdata : s.offerQueues.lookup data.offer.id = some data) :
    Moves config s (scheduleNextMatcherOrFinish util config event s data).1
      (scheduleNextMatcherOrFinish util config event s data).2 :=
  moves_scheduleNextMatcherOr hs hdata fun _ hs' _ => moves_startNextOf hs' rfl

theorem scheduleNextMatcherOrFinish_insert (h : data.nextMatcherOpt = none) :
    scheduleNextMatcherOrFinish util config event
        { s with offerQueues := s.offerQueues.insert data } data =
      scheduleNextMatcherOrFinish util config event s data := by
  have hnone : ∀ s' : State Resource Source, nextMatcherOf config event s' data = none := by
    intro s'
    rw [nextMatcherOf, h]
    split_ifs <;> rfl
  have hcomplete : completeWithMatchResult
      { s with offerQueues := s.offerQueues.insert data } data data.resendThisOffer =
        completeWithMatchResult s data data.resendThisOffer := by
    have herase : (s.offerQueues.insert data).erase data.offer.id =
        s.offerQueues.erase data.offer.id := Keyed.erase_insert _ _
    rw [completeWithMatchResult, completeWithMatchResult, herase]
  rw [scheduleNextMatcherOrFinish, scheduleNextMatcherOrFinish, scheduleNextMatcherOr,
    scheduleNextMatcherOr, hnone, hnone, hcomplete]

/-! ## Answers -/

section Answers

variable [DecidableEq Key]

theorem id_addInstances (util : ResourceUtil Resource Key) (data : MatchOfferData Resource Source)
    (added : List (InstanceOpWithSource Source)) :
    (data.addInstances util added).offer.id = data.offer.id := by
  have hfold : ∀ (ops : List (InstanceOpWithSource Source)) (offer : Offer Resource),
      (ops.foldl (fun offer nextOp => applyToOffer util nextOp.op offer) offer).id = offer.id := by
    intro ops
    induction ops with
    | nil => exact fun _ => rfl
    | cons op ops ih => exact fun offer => ih _
  exact hfold added data.offer

/-- The state after some of the operations of an answer are accepted for an offer. -/
def State.accept (s : State Resource Source) (count : ℕ) (data : MatchOfferData Resource Source) :
    State Resource Source :=
  { s with
    launchTokens := toInt32 (s.launchTokens - count)
    offerQueues := s.offerQueues.insert data }

/-- The data of an offer with the operations that are accepted from an answer. -/
structure Accepts (data : MatchOfferData Resource Source)
    (accepted : List (InstanceOpWithSource Source)) (nextData : MatchOfferData Resource Source) :
    Prop where
  id : nextData.offer.id = data.offer.id
  promise : nextData.promise = data.promise
  ops : nextData.ops = accepted ++ data.ops

theorem accepts_addInstances (util : ResourceUtil Resource Key)
    (data : MatchOfferData Resource Source) (added : List (InstanceOpWithSource Source)) :
    Accepts data added (data.addInstances util added) :=
  ⟨id_addInstances util data added, rfl, rfl⟩

/-- The data of an offer after an answer: the matcher that answered leaves the queue, or is put at
its end if it answered with operations. -/
structure Rotates (data : MatchOfferData Resource Source)
    (addedOps : List (InstanceOpWithSource Source)) (nextData : MatchOfferData Resource Source) :
    Prop where
  deadline : nextData.deadline = data.deadline
  matcherQueue : nextData.matcherQueue =
    data.matcherQueue.tail ++ if addedOps.isEmpty then [] else data.matcherQueue.head?.toList

theorem rotates_processAddedInstances (util : ResourceUtil Resource Key) (config : Config)
    (s : State Resource Source) (data : MatchOfferData Resource Source)
    (addedOps : List (InstanceOpWithSource Source)) :
    Rotates data addedOps (processAddedInstances util config s data addedOps).2.2 := by
  simp only [processAddedInstances, MatchOfferData.nextMatcherOpt, MatchOfferData.addInstances]
  cases hqueue : data.matcherQueue with
  | nil => exact ⟨rfl, by simp [hqueue]⟩
  | cons matcher queue =>
    refine ⟨?_, ?_⟩
    all_goals
      split_ifs with hempty
      all_goals simp [hqueue, MatchOfferData.addMatcher]

/-- As many operations as possible are accepted for the offer and the others are rejected; when
there is no other matcher then the offer is not stored with them. -/
theorem processAddedInstances_cases (util : ResourceUtil Resource Key) (config : Config)
    (s : State Resource Source) (data : MatchOfferData Resource Source)
    (addedOps : List (InstanceOpWithSource Source)) :
    let accepted := addedOps.take (acceptedCount config s data addedOps)
    let rejected := (addedOps.drop (acceptedCount config s data addedOps)).map fun op =>
      .reject data.offer.id op notAccepted
    ∃ nextData, Accepts data accepted nextData ∧
      (processAddedInstances util config s data addedOps =
          (rejected, s.accept accepted.length nextData, nextData) ∨
        nextData.nextMatcherOpt = none ∧ processAddedInstances util config s data addedOps =
          (rejected, { s with launchTokens := toInt32 (s.launchTokens - accepted.length) },
            nextData)) := by
  intro accepted rejected
  have hnew := accepts_addInstances util data accepted
  cases hnext : (data.addInstances util accepted).nextMatcherOpt with
  | none =>
    refine ⟨_, hnew, .inr ⟨hnext, ?_⟩⟩
    simp only [processAddedInstances, List.splitAt_eq]
    rw [hnext]
  | some next =>
    obtain ⟨matcher, contData⟩ := next
    have hcont : Accepts data accepted contData := by
      rw [MatchOfferData.nextMatcherOpt] at hnext
      split at hnext
      · cases hnext
      · cases Option.some.inj hnext
        exact ⟨hnew.id, rfl, rfl⟩
    refine ⟨if addedOps.isEmpty then contData else contData.addMatcher matcher, ?_, .inl ?_⟩
    · split_ifs
      · exact hcont
      · exact ⟨hcont.id, hcont.promise, hcont.ops⟩
    · simp only [processAddedInstances, List.splitAt_eq]
      rw [hnext]
      rfl

/-- An answer for an offer that is in a queue: what is accepted is stored with the offer, and the
offer is scheduled. -/
theorem matchedInstanceOps_eq (util : ResourceUtil Resource Key) (config : Config)
    (event : Event Resource Source) {answer : MatchedInstanceOps Source}
    (h : s.offerQueues.lookup answer.offerId = some data) :
    let accepted := answer.opsWithSource.take (acceptedCount config s data answer.opsWithSource)
    let rejected := answer.opsWithSource.drop (acceptedCount config s data answer.opsWithSource)
    ∃ nextData, Accepts data accepted nextData ∧ Rotates data answer.opsWithSource nextData ∧
      let scheduled := scheduleNextMatcherOrFinish util config event
        (s.accept accepted.length nextData) nextData
      matchedInstanceOps util config event s answer =
        (rejected.map (.reject data.offer.id · notAccepted) ++ scheduled.1, scheduled.2) := by
  intro accepted rejected
  let passed : MatchOfferData Resource Source :=
    { data with
      matchPasses := data.matchPasses + 1
      resendThisOffer := data.resendThisOffer || answer.resendThisOffer }
  have hunfold : matchedInstanceOps util config event s answer =
      let processed := processAddedInstances util config s passed answer.opsWithSource
      let scheduled := scheduleNextMatcherOrFinish util config event processed.2.1 processed.2.2
      (processed.1 ++ scheduled.1, scheduled.2) := by
    rw [matchedInstanceOps, h]
  obtain ⟨nextData, haccepts, hprocessed⟩ :=
    processAddedInstances_cases util config s passed answer.opsWithSource
  have hrotates : Rotates passed answer.opsWithSource nextData := by
    have hdata := rotates_processAddedInstances util config s passed answer.opsWithSource
    rcases hprocessed with hprocessed | ⟨-, hprocessed⟩
    all_goals
      rw [hprocessed] at hdata
      exact hdata
  refine ⟨nextData, ⟨haccepts.id, haccepts.promise, haccepts.ops⟩,
    ⟨hrotates.deadline, hrotates.matcherQueue⟩, ?_⟩
  rcases hprocessed with hprocessed | ⟨hnone, hprocessed⟩
  · rw [hunfold, hprocessed]
    rfl
  · rw [hunfold, hprocessed]
    dsimp only
    rw [← scheduleNextMatcherOrFinish_insert hnone]
    rfl

end Answers

/-! ## Every message -/

/-- What a message does: the offers and operations that come with it go to one place each, and
operations are accepted for tokens. -/
structure Books (config : Config) (s : State Resource Source)
    (message : Message Resource Source) (effects : List (Effect Resource Source))
    (s' : State Resource Source) : Prop where
  offers : (message.received ++ s.live).Perm (s'.live ++ completions effects)
  ops : (message.returned ++ s.matched).Perm
    (s'.matched ++ (results effects ++ rejections effects))
  tokens : s'.launchTokens + (s'.matched.length + (results effects).length) =
    s.launchTokens + s.matched.length + message.granted s
  sound : Sound config s'
  results : SoundResults config effects

/-- Offers that are moved while a message comes with nothing. -/
theorem Moves.books {message : Message Resource Source} (h : Moves config s effects s')
    (hs : Sound config s) (hreceived : message.received = []) (hreturned : message.returned = [])
    (hgranted : message.granted s = 0) : Books config s message effects s' where
  offers := by
    rw [hreceived]
    exact h.offers
  ops := by
    rw [hreturned, h.rejections, List.append_nil]
    exact h.ops
  tokens := by
    have hlength := h.ops.length_eq
    rw [List.length_append] at hlength
    rw [h.tokens, hgranted]
    omega
  sound := (h.sound hs).1
  results := (h.sound hs).2

theorem books_of_tokens {message : Message Resource Source} (hs : Sound config s)
    (hlive : s'.live = s.live) (hqueues : s'.offerQueues = s.offerQueues)
    (hreceived : message.received = []) (hreturned : message.returned = [])
    (htokens : s'.launchTokens = s.launchTokens + message.granted s)
    (hcompletions : completions effects = []) (hresults : OfferMatcherManagerActor.results effects = [])
    (hrejections : rejections effects = []) : Books config s message effects s' where
  offers := by rw [hreceived, hcompletions, hlive, List.append_nil, List.nil_append]
  ops := by
    rw [hreturned, hresults, hrejections, State.matched, State.matched, hqueues, List.append_nil,
      List.append_nil, List.nil_append]
  tokens := by
    rw [htokens, hresults, State.matched, State.matched, hqueues, List.length_nil]
    omega
  sound := ⟨hlive ▸ hs.nodup, hqueues ▸ hs.allows⟩
  results := ((moves_refl config s hcompletions hresults hrejections).sound hs).2

/-- Tokens are not negative and no more than an `Int` can hold, and an offer is not one that is
still being matched. -/
def Admissible (s : State Resource Source) (event : Event Resource Source) : Prop :=
  match event.message with
  | .setInstanceLaunchTokens tokens => 0 ≤ tokens ∧ tokens < 2147483648
  | .addInstanceLaunchTokens tokens => 0 ≤ tokens ∧ s.launchTokens + tokens < 2147483648
  | .matchOffer offer _ => offer.id ∉ s.live.map Prod.fst
  | _ => True

/-- The launch tokens are an `Int` that is not negative. -/
def HasTokens (s : State Resource Source) : Prop :=
  0 ≤ s.launchTokens ∧ s.launchTokens < 2147483648

theorem toInt32_of_hasTokens {n : ℤ} (h : 0 ≤ n ∧ n < 2147483648) : toInt32 n = n := by
  rw [toInt32]
  omega

theorem books_declined (hs : Sound config s) (offer : Offer Resource) (promise : ℕ)
    (resendThisOffer : Bool) :
    Books config s (.matchOffer offer promise)
      [completeWithNoMatch offer promise resendThisOffer] s where
  offers := List.perm_append_comm
  ops := List.Perm.of_eq (List.append_nil _).symm
  tokens := (Int.add_zero _).symm
  sound := hs
  results := by
    intro other result hmem
    cases List.mem_singleton.mp hmem
    exact le_max_left _ _

/-- The state in which an offer that is received counts as unprocessed. -/
def State.push (s : State Resource Source) (offer : Offer Resource) (deadline : Timestamp)
    (promise : ℕ) : State Resource Source :=
  { s with unprocessedOffers := ⟨offer, deadline, promise⟩ :: s.unprocessedOffers }

variable {offer : Offer Resource} {promise : ℕ} {deadline : Timestamp}

theorem sound_push (hs : Sound config s) (hnew : offer.id ∉ s.live.map Prod.fst)
    (deadline : Timestamp) (promise : ℕ) : Sound config (s.push offer deadline promise) :=
  ⟨List.nodup_cons.mpr ⟨hnew, hs.nodup⟩, hs.allows⟩

theorem Moves.books_matchOffer (h : Moves config (s.push offer deadline promise) effects s')
    (hs : Sound config s) (hnew : offer.id ∉ s.live.map Prod.fst) :
    Books config s (.matchOffer offer promise) effects s' := by
  have hbooks : Books config (s.push offer deadline promise) .cleanUpOverdueOffers effects s' :=
    h.books (sound_push hs hnew deadline promise) rfl rfl rfl
  exact ⟨hbooks.offers, hbooks.ops, hbooks.tokens, hbooks.sound, hbooks.results⟩

theorem moves_startProcessOffer (util : ResourceUtil Resource Key) (event : Event Resource Source)
    (hs : Sound config (s.push offer deadline promise)) :
    Moves config (s.push offer deadline promise)
      (startProcessOffer util config event s offer deadline promise).1
      (startProcessOffer util config event s offer deadline promise).2 :=
  moves_startProcessOfferOr hs rfl (fun _ hs' _ => moves_startNextOf hs' rfl) deadline

theorem books_matchOffer (util : ResourceUtil Resource Key) (event : Event Resource Source)
    (hs : Sound config s) (promise : ℕ) (hnew : offer.id ∉ s.live.map Prod.fst) :
    Books config s (.matchOffer offer promise) (matchOffer util config event s offer promise).1
        (matchOffer util config event s offer promise).2 ∧
      (matchOffer util config event s offer promise).2.launchTokens = s.launchTokens := by
  rw [matchOffer]
  split_ifs
  · exact ⟨books_declined hs offer promise _, rfl⟩
  · have hmoves : Moves config (s.push offer _ promise) _ _ :=
      moves_startProcessOffer util event
        (sound_push hs hnew (event.now.plus config.offerMatchingTimeout) promise)
    exact ⟨hmoves.books_matchOffer hs hnew, hmoves.tokens⟩
  · have hmoves : Moves config (s.push offer _ promise) [] (s.push offer _ promise) :=
      moves_refl config (s.push offer (event.now.plus config.offerMatchingTimeout) promise)
        rfl rfl rfl
    exact ⟨hmoves.books_matchOffer hs hnew, rfl⟩
  · exact ⟨books_declined hs offer promise _, rfl⟩

/-- The operations that are accepted fit on the offer, and there are tokens for them. -/
theorem length_accepted (config : Config) (data : MatchOfferData Resource Source)
    (addedOps : List (InstanceOpWithSource Source)) (htokens : HasTokens s)
    (hallows : config.Allows data.ops) :
    ((addedOps.take (acceptedCount config s data addedOps)).length : ℤ) ≤ s.launchTokens ∧
      config.Allows (addedOps.take (acceptedCount config s data addedOps) ++ data.ops) := by
  have hlength : (addedOps.take (acceptedCount config s data addedOps)).length ≤
      acceptedCount config s data addedOps := List.length_take_le _ _
  have hcount : acceptedCount config s data addedOps = (min s.launchTokens
      (min addedOps.length (config.maxInstancesPerOffer - data.ops.length))).toNat := rfl
  obtain ⟨hnonneg, -⟩ := htokens
  rw [Config.Allows] at hallows ⊢
  rw [List.length_append]
  push_cast
  omega

theorem accept_spec {nextData : MatchOfferData Resource Source}
    {accepted : List (InstanceOpWithSource Source)}
    (hdata : s.offerQueues.lookup data.offer.id = some data) (h : Accepts data accepted nextData)
    (count : ℕ) :
    s.live.Perm (s.accept count nextData).live ∧
      (accepted.map (fun op => (data.offer.id, op)) ++ s.matched).Perm
        (s.accept count nextData).matched ∧
      (s.accept count nextData).offerQueues.lookup nextData.offer.id = some nextData ∧
      ∀ other ∈ (s.accept count nextData).offerQueues.values,
        other = nextData ∨ other ∈ s.offerQueues.values := by
  have hid : nextData.id = data.offer.id := h.id
  have hperm := Keyed.values_perm_cons_erase hdata
  have hvalues : (s.accept count nextData).offerQueues.values =
      nextData :: (s.offerQueues.erase data.offer.id).values := by
    show (s.offerQueues.insert nextData).values = _
    rw [Keyed.values_insert, hid]
  refine ⟨?_, ?_, lookup_insert_self s nextData, fun other hother => ?_⟩
  · have hsame : (s.accept count nextData).live =
        s.unprocessedOffers.map (fun unprocessed => (unprocessed.offer.id, unprocessed.promise)) ++
          (data :: (s.offerQueues.erase data.offer.id).values).map fun data =>
            (data.offer.id, data.promise) := by
      rw [State.live, hvalues, List.map_cons, List.map_cons, h.id, h.promise]
      rfl
    rw [hsame]
    exact (hperm.map _).append_left _
  · have hsame : (s.accept count nextData).matched = accepted.map (fun op => (data.offer.id, op)) ++
        (data :: (s.offerQueues.erase data.offer.id).values).flatMap fun data =>
          data.ops.map fun op => (data.offer.id, op) := by
      rw [State.matched, hvalues, List.flatMap_cons, List.flatMap_cons, h.id, h.ops,
        List.map_append, List.append_assoc]
    rw [hsame]
    exact (hperm.flatMap_right _).append_left _
  · rw [hvalues] at hother
    rcases List.mem_cons.mp hother with rfl | hother
    · exact .inl rfl
    · exact .inr (hperm.mem_iff.mpr (List.mem_cons_of_mem _ hother))

theorem sound_accept {nextData : MatchOfferData Resource Source}
    {accepted : List (InstanceOpWithSource Source)} (hs : Sound config s)
    (hdata : s.offerQueues.lookup data.offer.id = some data) (h : Accepts data accepted nextData)
    (hallowed : config.Allows (accepted ++ data.ops)) (count : ℕ) :
    Sound config (s.accept count nextData) := by
  obtain ⟨hlive, -, -, hmem⟩ := accept_spec hdata h count
  refine ⟨(hlive.map _).nodup_iff.mp hs.nodup, fun other hother => ?_⟩
  rcases hmem other hother with rfl | hother
  · rw [h.ops]
    exact hallowed
  · exact hs.allows other hother

theorem completions_reject (offerId : OfferID) (ops : List (InstanceOpWithSource Source))
    (reason : String) :
    completions (ops.map (.reject offerId · reason) : List (Effect Resource Source)) = [] := by
  rw [completions, List.filterMap_map]
  exact List.filterMap_eq_nil_iff.mpr fun _ _ => rfl

theorem results_reject (offerId : OfferID) (ops : List (InstanceOpWithSource Source))
    (reason : String) :
    results (ops.map (.reject offerId · reason) : List (Effect Resource Source)) = [] := by
  rw [results, List.flatMap_map]
  exact List.flatMap_eq_nil_iff.mpr fun _ _ => rfl

theorem rejections_reject (offerId : OfferID) (ops : List (InstanceOpWithSource Source))
    (reason : String) :
    rejections (ops.map (.reject offerId · reason) : List (Effect Resource Source)) =
      ops.map fun op => (offerId, op) := by
  rw [rejections, List.filterMap_map]
  exact congrFun List.filterMap_eq_map ops

section Receive

variable [DecidableEq Key]

theorem books_matchedInstanceOps (util : ResourceUtil Resource Key)
    (event : Event Resource Source) (hs : Sound config s) (htokens : HasTokens s)
    (answer : MatchedInstanceOps Source) :
    Books config s (.matchedInstanceOps answer) (matchedInstanceOps util config event s answer).1
        (matchedInstanceOps util config event s answer).2 ∧
      HasTokens (matchedInstanceOps util config event s answer).2 := by
  cases hlookup : s.offerQueues.lookup answer.offerId with
  | none =>
    rw [matchedInstanceOps, hlookup]
    refine ⟨⟨?_, ?_, ?_, hs, ?_⟩, htokens⟩
    · rw [completions_reject, List.append_nil]
      exact List.Perm.refl _
    · rw [results_reject, rejections_reject, List.nil_append]
      exact List.perm_append_comm
    · rw [results_reject]
      exact (Int.add_zero _).symm
    · intro promise result hmem
      obtain ⟨_, -, heq⟩ := List.mem_map.mp hmem
      cases heq
  | some data =>
    obtain ⟨nextData, haccepts, -, heq⟩ := matchedInstanceOps_eq util config event hlookup
    have hid : data.id = answer.offerId := Keyed.key_of_lookup hlookup
    have hdata : s.offerQueues.lookup data.offer.id = some data := by
      rw [← hid] at hlookup
      exact hlookup
    have hvalue : data ∈ s.offerQueues.values := Keyed.mem_values.mpr hdata
    obtain ⟨hfit, hallowed⟩ :=
      length_accepted config data answer.opsWithSource htokens (hs.allows data hvalue)
    have hboth := List.take_append_drop (acceptedCount config s data answer.opsWithSource)
      answer.opsWithSource
    generalize answer.opsWithSource.take (acceptedCount config s data answer.opsWithSource) =
      accepted at haccepts heq hfit hallowed hboth
    generalize answer.opsWithSource.drop (acceptedCount config s data answer.opsWithSource) =
      rejected at heq hboth
    obtain ⟨hlive, hmatched, hstored, -⟩ := accept_spec hdata haccepts accepted.length
    have hcharged : (s.accept accepted.length nextData).launchTokens =
        s.launchTokens - accepted.length := by
      obtain ⟨hnonneg, hlt⟩ := htokens
      exact toInt32_of_hasTokens ⟨by omega, by omega⟩
    have hsound : Sound config (s.accept accepted.length nextData) :=
      sound_accept hs hdata haccepts hallowed accepted.length
    have hmoves : Moves config (s.accept accepted.length nextData)
        (scheduleNextMatcherOrFinish util config event (s.accept accepted.length nextData)
          nextData).1
        (scheduleNextMatcherOrFinish util config event (s.accept accepted.length nextData)
          nextData).2 :=
      moves_scheduleNextMatcherOrFinish hsound hstored
    rw [heq]
    refine ⟨⟨?_, ?_, ?_, (hmoves.sound hsound).1, ?_⟩, ?_⟩
    · rw [completions_append, completions_reject, List.nil_append]
      exact hlive.trans hmoves.offers
    · have hreturned : Message.returned (.matchedInstanceOps answer : Message Resource Source) =
          accepted.map (fun op => (data.offer.id, op)) ++
            rejected.map fun op => (data.offer.id, op) := by
        rw [← List.map_append, hboth]
        exact congrArg (fun id => answer.opsWithSource.map fun op => (id, op)) hid.symm
      rw [results_append, rejections_append, results_reject, rejections_reject, hmoves.rejections,
        List.nil_append, List.append_nil, hreturned, ← List.append_assoc]
      have hthrough := hmatched.trans hmoves.ops
      refine List.Perm.trans ?_ (hthrough.append_right _)
      rw [List.append_assoc, List.append_assoc]
      exact List.perm_append_comm.append_left _
    · have hlength := (hmatched.trans hmoves.ops).length_eq
      rw [List.length_append, List.length_append, List.length_map] at hlength
      rw [hmoves.tokens, hcharged, results_append, results_reject, List.nil_append]
      have hgranted : Message.granted s (.matchedInstanceOps answer) = 0 := rfl
      dsimp only
      omega
    · intro promise result hresult
      rcases List.mem_append.mp hresult with hreject | hresult
      · obtain ⟨_, -, heq⟩ := List.mem_map.mp hreject
        cases heq
      · exact (hmoves.sound hsound).2 promise result hresult
    · obtain ⟨hnonneg, hlt⟩ := htokens
      rw [HasTokens, hmoves.tokens, hcharged]
      omega

theorem books_receive (util : ResourceUtil Resource Key) (hs : Sound config s)
    (htokens : HasTokens s) (h : Admissible s event) :
    Books config s event.message (receive util config s event).1
        (receive util config s event).2 ∧
      HasTokens (receive util config s event).2 := by
  rw [Admissible] at h
  rw [receive]
  cases hmessage : event.message with
  | setInstanceLaunchTokens tokens =>
    rw [hmessage] at h
    have hset : tokens = s.launchTokens + (tokens - s.launchTokens) := by omega
    refine ⟨books_of_tokens hs rfl rfl rfl rfl hset ?_ ?_ ?_, h⟩
    all_goals
      dsimp only [setInstanceLaunchTokens]
      split_ifs <;> rfl
  | addInstanceLaunchTokens tokens =>
    rw [hmessage] at h
    obtain ⟨hnonneg, -⟩ := htokens
    have hadded : toInt32 (s.launchTokens + tokens) = s.launchTokens + tokens :=
      toInt32_of_hasTokens ⟨Int.add_nonneg hnonneg h.1, h.2⟩
    have hafter : HasTokens (addInstanceLaunchTokens s tokens).2 := by
      show 0 ≤ toInt32 _ ∧ toInt32 _ < _
      rw [hadded]
      exact ⟨Int.add_nonneg hnonneg h.1, h.2⟩
    refine ⟨books_of_tokens hs rfl rfl rfl rfl hadded ?_ ?_ ?_, hafter⟩
    all_goals
      dsimp only [addInstanceLaunchTokens]
      split_ifs <;> rfl
  | addOrUpdateMatcher matcher =>
    dsimp only [addOrUpdateMatcher]
    split_ifs
    · exact ⟨books_of_tokens hs rfl rfl rfl rfl (Int.add_zero _).symm rfl rfl rfl, htokens⟩
    · exact ⟨books_of_tokens hs rfl rfl rfl rfl (Int.add_zero _).symm rfl rfl rfl, htokens⟩
  | removeMatcher matcher =>
    dsimp only [removeMatcher]
    split_ifs
    · exact ⟨books_of_tokens hs rfl rfl rfl rfl (Int.add_zero _).symm rfl rfl rfl, htokens⟩
    · exact ⟨books_of_tokens hs rfl rfl rfl rfl (Int.add_zero _).symm rfl rfl rfl, htokens⟩
  | matchOffer offer promise =>
    rw [hmessage] at h
    obtain ⟨hbooks, hsame⟩ := books_matchOffer util event hs promise h
    exact ⟨hbooks, by rw [HasTokens, hsame]; exact htokens⟩
  | cleanUpOverdueOffers =>
    have hmoves := moves_rejectElapsedOffers config event s
    exact ⟨hmoves.books hs rfl rfl rfl, by rw [HasTokens, hmoves.tokens]; exact htokens⟩
  | matchedInstanceOps answer => exact books_matchedInstanceOps util event hs htokens answer

/-! ## Every run -/

/-- The tokens that the messages of a run grant, less those that they take back. -/
def granted (util : ResourceUtil Resource Key) (config : Config) :
    State Resource Source → List (Event Resource Source) → ℤ
  | _, [] => 0
  | s, event :: events =>
    event.message.granted s + granted util config (receive util config s event).2 events

/-- Every offer that is received is in one place, and so is every operation that is returned; there
are not too many operations in a result, nor more of them accepted than tokens are granted. -/
structure Conserved (config : Config) (events : List (Event Resource Source)) (granted : ℤ)
    (effects : List (Effect Resource Source)) (s : State Resource Source) : Prop where
  offers : (events.flatMap (·.message.received)).Perm (s.live ++ completions effects)
  ops : (events.flatMap (·.message.returned)).Perm
    (s.matched ++ (results effects ++ rejections effects))
  results : ∀ promise result, .complete promise result ∈ effects →
    (result.opsWithSource.length : ℤ) ≤ max 0 config.maxInstancesPerOffer
  tokens : 0 ≤ s.launchTokens
  accepted : ((s.matched ++ OfferMatcherManagerActor.results effects).length : ℤ) ≤ granted

theorem perm_through {α : Type} {new new' old middle last done done' : List α}
    (h : (new ++ old).Perm (middle ++ done)) (h' : (new' ++ middle).Perm (last ++ done')) :
    (new ++ new' ++ old).Perm (last ++ (done ++ done')) :=
  calc (new ++ new' ++ old).Perm (new' ++ (new ++ old)) := by
        rw [List.append_assoc]
        exact List.perm_append_comm_assoc new new' old
    _ |>.Perm (new' ++ (middle ++ done)) := h.append_left new'
    _ |>.Perm (last ++ done' ++ done) := by
        rw [← List.append_assoc]
        exact h'.append_right done
    _ |>.Perm (last ++ (done ++ done')) := by
        rw [List.append_assoc]
        exact List.perm_append_comm.append_left last

theorem books_run (util : ResourceUtil Resource Key) {events : List (Event Resource Source)}
    (hs : Sound config s) (htokens : HasTokens s)
    (h : (receive util config).Along Admissible s events) :
    let effects := ((receive util config).answers s events).flatten
    let last := (receive util config).after s events
    (events.flatMap (·.message.received) ++ s.live).Perm (last.live ++ completions effects) ∧
      (events.flatMap (·.message.returned) ++ s.matched).Perm
        (last.matched ++ (results effects ++ rejections effects)) ∧
      last.launchTokens + (last.matched.length + (results effects).length) =
        s.launchTokens + s.matched.length + granted util config s events ∧
      SoundResults config effects ∧ HasTokens last := by
  induction events generalizing s with
  | nil =>
    refine ⟨?_, ?_, ?_, fun _ _ hmem => ?_, htokens⟩
    · exact List.Perm.of_eq (List.append_nil _).symm
    · exact List.Perm.of_eq (List.append_nil _).symm
    · exact (Int.add_zero _).symm
    · cases hmem
  | cons event events ih =>
    obtain ⟨hbooks, hnext⟩ := books_receive util hs htokens h.1
    obtain ⟨hoffers, hops, hgranted, hresults, hlast⟩ := ih hbooks.sound hnext h.2
    intro effects last
    have heffects : effects = (receive util config s event).1 ++
        ((receive util config).answers (receive util config s event).2 events).flatten :=
      List.flatten_cons
    rw [heffects]
    refine ⟨?_, ?_, ?_, fun promise result hmem => ?_, hlast⟩
    · rw [List.flatMap_cons, completions_append]
      exact perm_through hbooks.offers hoffers
    · rw [List.flatMap_cons, results_append, rejections_append]
      refine (perm_through hbooks.ops hops).trans (List.Perm.append_left _ ?_)
      rw [List.append_assoc, List.append_assoc]
      exact (List.perm_append_comm_assoc _ _ _).append_left _
    · have htokens := hbooks.tokens
      have hafter : last = (receive util config).after (receive util config s event).2 events := rfl
      rw [results_append, List.length_append, granted, hafter]
      push_cast
      omega
    · rcases List.mem_append.mp hmem with hmem | hmem
      · exact hbooks.results promise result hmem
      · exact hresults promise result hmem

/-- **Offers and operations are conserved**, as long as tokens are `Int`s that are not negative and
the ids of the offers being matched differ. -/
theorem conserved (util : ResourceUtil Resource Key) (config : Config)
    {events : List (Event Resource Source)}
    (h : (receive util config).Along Admissible .initial events) :
    Conserved config events (granted util config .initial events)
      ((receive util config).answers .initial events).flatten
      ((receive util config).after .initial events) := by
  have hsound : Sound config (State.initial : State Resource Source) :=
    ⟨List.nodup_nil, fun _ hmem => by cases hmem⟩
  have htokens : HasTokens (State.initial : State Resource Source) := by
    show (0 : ℤ) ≤ 0 ∧ (0 : ℤ) < 2147483648
    decide
  obtain ⟨hoffers, hops, hgranted, hresults, hlast⟩ := books_run util hsound htokens h
  refine ⟨?_, ?_, hresults, hlast.1, ?_⟩
  · rw [← List.append_nil (events.flatMap _)]
    exact hoffers
  · rw [← List.append_nil (events.flatMap _)]
    exact hops
  · obtain ⟨hnonneg, -⟩ := hlast
    have hzero : (State.initial : State Resource Source).launchTokens = 0 := rfl
    have hnil : (State.initial : State Resource Source).matched.length = 0 := rfl
    rw [List.length_append]
    push_cast
    omega

end Receive

end General

/-! ## One token for two operations -/

namespace Cpus

/-- Resources are amounts by name, and every operation uses one of the CPUs. -/
def util : ResourceUtil (String × ℕ) String where
  matchKey := Prod.fst
  resourceType _ := 0
  volumeRunSpecId _ := none
  consumeResource resource used :=
    .ok (if resource.2 ≤ used.2 then none else some (resource.1, resource.2 - used.2))
  usedResources _ := [("cpus", 1)]

def config : Config := ⟨3000000000, 5, 2, 1024⟩

def eventOf (message : Message (String × ℕ) Unit) : Event (String × ℕ) Unit :=
  ⟨message, ⟨0⟩, fun matchers => matchers, fun _ => .refl _⟩

def op (uuid : ℕ) : InstanceOpWithSource Unit :=
  ⟨(), .unreserveAndDestroyVolumes (.forceExpunge ⟨⟨["web"]⟩, .instance, ⟨uuid⟩⟩) none⟩

def addMatcher : Event (String × ℕ) Unit := eventOf (.addOrUpdateMatcher ⟨"launcher", none⟩)

def matchOffer (promise : ℕ) : Event (String × ℕ) Unit :=
  eventOf (.matchOffer ⟨"offer", [("cpus", 4)]⟩ promise)

/-- The matcher answers with two operations, and there is one token. -/
def twoOps : List (Event (String × ℕ) Unit) :=
  [addMatcher, eventOf (.setInstanceLaunchTokens 1), matchOffer 0,
    eventOf (.matchedInstanceOps ⟨"offer", [op 0, op 1], false⟩)]

/-- An offer is sent again while it is being matched. -/
def sentTwice : List (Event (String × ℕ) Unit) :=
  [addMatcher, eventOf (.setInstanceLaunchTokens 1), matchOffer 0, matchOffer 1]

/-- A token is added when there are as many as an `Int` can hold. -/
def tooManyTokens : List (Event (String × ℕ) Unit) :=
  [eventOf (.setInstanceLaunchTokens 2147483647), eventOf (.addInstanceLaunchTokens 1)]

end Cpus

theorem conserved_twoOps :
    Conserved Cpus.config Cpus.twoOps (granted Cpus.util Cpus.config .initial Cpus.twoOps)
      ((receive Cpus.util Cpus.config).answers .initial Cpus.twoOps).flatten
      ((receive Cpus.util Cpus.config).after .initial Cpus.twoOps) :=
  have hnew : "offer" ∉ ([] : List OfferID) := List.not_mem_nil
  conserved Cpus.util Cpus.config ⟨trivial, ⟨by decide, by decide⟩, hnew, trivial, trivial⟩

/-- The promise of an offer that is sent again is lost, and with too many tokens they are
negative. -/
theorem not_conserved :
    ¬ Conserved Cpus.config Cpus.sentTwice (granted Cpus.util Cpus.config .initial Cpus.sentTwice)
        ((receive Cpus.util Cpus.config).answers .initial Cpus.sentTwice).flatten
        ((receive Cpus.util Cpus.config).after .initial Cpus.sentTwice) ∧
      ¬ Conserved Cpus.config Cpus.tooManyTokens
        (granted Cpus.util Cpus.config .initial Cpus.tooManyTokens)
        ((receive Cpus.util Cpus.config).answers .initial Cpus.tooManyTokens).flatten
        ((receive Cpus.util Cpus.config).after .initial Cpus.tooManyTokens) := by
  constructor
  · intro h
    exact absurd h.offers.length_eq (by decide)
  · intro h
    exact absurd h.tokens (by decide)

end Marathon.OfferMatcherManagerActor
