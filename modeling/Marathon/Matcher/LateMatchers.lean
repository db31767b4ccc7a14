import Marathon.Matcher.ConservedOffers

/-!
# Matchers that come late

A matcher is added while offers are in process. What happens to one of these offers until its match
is completed depends on the answers of the matchers that it was shown to, on the tokens and on the
time; what is done for other offers does not concern it.
-/

namespace Marathon.OfferMatcherManagerActor

open Lib

section General

variable {Resource Key Source : Type} {util : ResourceUtil Resource Key} {config : Config}
  {event : Event Resource Source} {s s' s'' : State Resource Source}
  {effects effects' : List (Effect Resource Source)} {id : OfferID}
  {data : MatchOfferData Resource Source}

/-! ## What is done for other offers -/

/-- The matchers of an offer did not answer in time. -/
def Stuck (config : Config) (now : Timestamp) (data : MatchOfferData Resource Source) : Prop :=
  data.deadline.plus config.offerMatchingTimeout < now

/-- The match of the offer is completed by one of the effects. -/
def Completes (id : OfferID) (effects : List (Effect Resource Source)) : Prop :=
  ∃ promise result, .complete promise result ∈ effects ∧ result.offerId = id

theorem not_completes_nil : ¬Completes id ([] : List (Effect Resource Source)) := by
  rintro ⟨promise, result, hmem, -⟩
  cases hmem

theorem completes_append :
    Completes id (effects ++ effects') ↔ Completes id effects ∨ Completes id effects' := by
  unfold Completes
  simp only [List.mem_append, or_and_right, exists_or]

/-- The offer stays in its queue, unless its matchers are stuck and its match is completed. -/
structure Keeps (config : Config) (now : Timestamp) (id : OfferID) (s : State Resource Source)
    (effects : List (Effect Resource Source)) (s' : State Resource Source) : Prop where
  lookup : s'.offerQueues.lookup id = s.offerQueues.lookup id ∨
    s'.offerQueues.lookup id = none ∧ ∃ data ∈ s.offerQueues.lookup id, Stuck config now data
  completed : Completes id effects → ∃ data ∈ s.offerQueues.lookup id, Stuck config now data

namespace Keeps

variable {now : Timestamp}

theorem of_eq (hlookup : s'.offerQueues.lookup id = s.offerQueues.lookup id)
    (heffects : ¬Completes id effects) : Keeps config now id s effects s' :=
  ⟨.inl hlookup, fun h => absurd h heffects⟩

theorem unprocessed (s : State Resource Source) (waiting : List (UnprocessedOffer Resource))
    (heffects : ¬Completes id effects) :
    Keeps config now id s effects { s with unprocessedOffers := waiting } := .of_eq rfl heffects

theorem trans (h : Keeps config now id s effects s') (h' : Keeps config now id s' effects' s'') :
    Keeps config now id s (effects ++ effects') s'' := by
  rcases h.lookup with hsame | ⟨hnone, hstuck⟩
  · refine ⟨?_, fun hcompletes => ?_⟩
    · rw [← hsame]
      exact h'.lookup
    · rcases completes_append.mp hcompletes with hcompletes | hcompletes
      · exact h.completed hcompletes
      · rw [← hsame]
        exact h'.completed hcompletes
  · refine ⟨.inr ⟨?_, hstuck⟩, fun _ => hstuck⟩
    rcases h'.lookup with hsame | ⟨hnone', -⟩
    · rw [hsame]
      exact hnone
    · exact hnone'

theorem none (h : Keeps config now id s effects s') (hnone : s.offerQueues.lookup id = .none) :
    s'.offerQueues.lookup id = .none ∧ ¬Completes id effects := by
  have hstuck : ¬∃ data ∈ s.offerQueues.lookup id, Stuck config now data := by
    rintro ⟨data, hdata, -⟩
    rw [hnone] at hdata
    cases hdata
  refine ⟨?_, fun hcompletes => hstuck (h.completed hcompletes)⟩
  rcases h.lookup with hsame | ⟨hnone', -⟩
  · rw [hsame]
    exact hnone
  · exact hnone'

end Keeps

theorem keeps_completeWithMatchResult {now : Timestamp}
    (hdata : s.offerQueues.lookup data.offer.id = some data) (resendThisOffer : Bool)
    (hother : data.offer.id = id → Stuck config now data) :
    Keeps config now id s (completeWithMatchResult s data resendThisOffer).1
      (completeWithMatchResult s data resendThisOffer).2 := by
  have hlookup : (completeWithMatchResult s data resendThisOffer).2.offerQueues.lookup id =
      if id = data.offer.id then none else s.offerQueues.lookup id := Keyed.lookup_erase _ _ _
  have hcompletes : Completes id (completeWithMatchResult s data resendThisOffer).1 →
      data.offer.id = id := by
    rintro ⟨promise, result, hmem, hid⟩
    cases List.mem_singleton.mp hmem
    exact hid
  by_cases heq : data.offer.id = id
  · subst heq
    rw [if_pos rfl] at hlookup
    exact ⟨.inr ⟨hlookup, data, hdata, hother rfl⟩, fun _ => ⟨data, hdata, hother rfl⟩⟩
  · rw [if_neg fun h => heq h.symm] at hlookup
    exact .of_eq hlookup fun h => heq (hcompletes h)

theorem keeps_completeAll {now : Timestamp} {stuck : List (MatchOfferData Resource Source)}
    (hstuck : ∀ data ∈ stuck, Stuck config now data)
    (hnodup : (stuck.map fun data => data.offer.id).Nodup)
    (hlookup : ∀ data ∈ stuck, s.offerQueues.lookup data.offer.id = some data) :
    Keeps config now id s (completeAll s stuck).1 (completeAll s stuck).2 := by
  induction stuck generalizing s with
  | nil => exact .of_eq rfl not_completes_nil
  | cons data rest ih =>
    obtain ⟨hnotMem, hnodup⟩ := List.nodup_cons.mp hnodup
    obtain ⟨hdata, hrest⟩ := List.forall_mem_cons.mp hlookup
    obtain ⟨hfirst, hstuck⟩ := List.forall_mem_cons.mp hstuck
    refine (keeps_completeWithMatchResult hdata true fun _ => hfirst).trans
      (ih hstuck hnodup fun other hother => ?_)
    have hne : other.offer.id ≠ data.offer.id := fun heq =>
      hnotMem (List.mem_map.mpr ⟨other, hother, heq⟩)
    show (s.offerQueues.erase data.offer.id).lookup other.offer.id = some other
    rw [Keyed.lookup_erase, if_neg hne]
    exact hrest other hother

/-- The offer does not wait to be processed. -/
def Processed (id : OfferID) (unprocessed : List (UnprocessedOffer Resource)) : Prop :=
  ∀ waiting ∈ unprocessed, waiting.offer.id ≠ id

theorem keeps_rejectElapsedOffers (hprocessed : Processed id s.unprocessedOffers) :
    Keeps config event.now id s (rejectElapsedOffers config event s).1
      (rejectElapsedOffers config event s).2 := by
  have hspan : s.unprocessedOffers =
      (s.unprocessedOffers.span fun unprocessed => !unprocessed.isOverdue event.now).1 ++
        (s.unprocessedOffers.span fun unprocessed => !unprocessed.isOverdue event.now).2 := by
    rw [List.span_eq_takeWhile_dropWhile]
    exact List.takeWhile_append_dropWhile.symm
  have hdeclined : ¬Completes id
      ((s.unprocessedOffers.span fun unprocessed => !unprocessed.isOverdue event.now).2.map
        fun unprocessed => (completeWithNoMatch unprocessed.offer unprocessed.promise true :
          Effect Resource Source)) := by
    rintro ⟨promise, result, hmem, hid⟩
    obtain ⟨waiting, hwaiting, heq⟩ := List.mem_map.mp hmem
    cases heq
    rw [Processed, hspan] at hprocessed
    exact hprocessed waiting (List.mem_append_right _ hwaiting) hid
  refine (Keeps.unprocessed s _ hdeclined).trans (keeps_completeAll ?_ ?_ ?_)
  · intro data hdata
    have hlate := of_decide_eq_true (List.mem_filter.mp hdata).2
    exact hlate
  · have hvalues : (s.offerQueues.values.map fun data => data.offer.id).Nodup :=
      s.offerQueues.nodup_map_values
    exact hvalues.sublist (List.filter_sublist.map _)
  · intro data hdata
    exact Keyed.mem_values.mp (List.mem_filter.mp hdata).1

theorem not_completes_askMatcher {matcher : OfferMatcher} {offer : Offer Resource} :
    ¬Completes id ([.askMatcher matcher offer] : List (Effect Resource Source)) := by
  rintro ⟨promise, result, hmem, -⟩
  cases List.mem_singleton.mp hmem

theorem keeps_scheduleNextMatcherOr
    {startNext : State Resource Source → List (Effect Resource Source) × State Resource Source}
    (hdata : s.offerQueues.lookup data.offer.id = some data) (hother : data.offer.id ≠ id)
    (hnext : ∀ s', s'.unprocessedOffers = s.unprocessedOffers →
      Keeps config event.now id s' (startNext s').1 (startNext s').2) :
    Keeps config event.now id s (scheduleNextMatcherOr config event startNext s data).1
      (scheduleNextMatcherOr config event startNext s data).2 := by
  rw [scheduleNextMatcherOr]
  split
  · exact .of_eq rfl not_completes_askMatcher
  · have hcomplete : Keeps config event.now id s
        (completeWithMatchResult s data data.resendThisOffer).1
        (completeWithMatchResult s data data.resendThisOffer).2 :=
      keeps_completeWithMatchResult hdata data.resendThisOffer fun heq => absurd heq hother
    dsimp only
    split_ifs
    · exact hcomplete.trans (hnext _ rfl)
    · exact hcomplete

theorem keeps_startProcessOfferOr
    {startNext : State Resource Source → List (Effect Resource Source) × State Resource Source}
    {offer : Offer Resource} (hother : offer.id ≠ id)
    (hnext : ∀ s', s'.unprocessedOffers = s.unprocessedOffers →
      Keeps config event.now id s' (startNext s').1 (startNext s').2)
    (deadline : Timestamp) (promise : ℕ) :
    Keeps config event.now id s
      (startProcessOfferOr util config event startNext s offer deadline promise).1
      (startProcessOfferOr util config event startNext s offer deadline promise).2 := by
  let data : MatchOfferData Resource Source :=
    ⟨offer, deadline, promise, offerMatchers util event s offer, [], 0, false⟩
  let queued : State Resource Source := { s with offerQueues := s.offerQueues.insert data }
  have hqueued : queued.offerQueues.lookup id = s.offerQueues.lookup id := by
    show (s.offerQueues.insert data).lookup id = _
    rw [Keyed.lookup_insert]
    exact if_neg fun heq => hother heq.symm
  have hscheduled : Keeps config event.now id queued
      (scheduleNextMatcherOr config event startNext queued data).1
      (scheduleNextMatcherOr config event startNext queued data).2 :=
    keeps_scheduleNextMatcherOr (lookup_insert_self s data) hother hnext
  have hput : Keeps config event.now id s [] queued := .of_eq hqueued not_completes_nil
  exact hput.trans hscheduled

theorem keeps_startNextOf (util : ResourceUtil Resource Key) (event : Event Resource Source)
    {unprocessed : List (UnprocessedOffer Resource)}
    (h : s.unprocessedOffers = unprocessed) (hprocessed : Processed id unprocessed) :
    Keeps config event.now id s (startNextOf util config event unprocessed s).1
      (startNextOf util config event unprocessed s).2 := by
  induction unprocessed generalizing s with
  | nil => exact .of_eq rfl not_completes_nil
  | cons head tail ih =>
    obtain ⟨hhead, htail⟩ := List.forall_mem_cons.mp hprocessed
    rw [startNextOf]
    split_ifs
    · exact keeps_rejectElapsedOffers (h ▸ hprocessed)
    · refine (Keeps.unprocessed s tail not_completes_nil).trans
        (keeps_startProcessOfferOr hhead ?_ _ _)
      intro s' hs'
      exact ih hs' htail
    · exact .of_eq rfl not_completes_nil

/-! ## Messages about other offers -/

theorem id_of_lookup (h : s.offerQueues.lookup id = some data) : data.offer.id = id := by
  have hkey : data.id = id := Keyed.key_of_lookup h
  exact hkey

theorem mem_values_of_lookup (h : s.offerQueues.lookup id = some data) :
    data ∈ s.offerQueues.values := by
  refine Keyed.mem_values.mpr ?_
  rw [MatchOfferData.id, id_of_lookup h]
  exact h

theorem processed_of_sound (hs : Sound config s) (h : s.offerQueues.lookup id = some data) :
    Processed id s.unprocessedOffers := by
  intro waiting hwaiting heq
  have hid := id_of_lookup h
  have hvalue := mem_values_of_lookup h
  have hnodup := hs.nodup
  rw [State.live, List.map_append, List.map_map, List.map_map, List.nodup_append] at hnodup
  exact hnodup.2.2 _ (List.mem_map_of_mem hwaiting) _ (List.mem_map_of_mem hvalue)
    (heq.trans hid.symm)

theorem not_completes_reject {offerId : OfferID} {ops : List (InstanceOpWithSource Source)}
    {reason : String} :
    ¬Completes id (ops.map (.reject offerId · reason) : List (Effect Resource Source)) := by
  rintro ⟨promise, result, hmem, -⟩
  obtain ⟨_, -, heq⟩ := List.mem_map.mp hmem
  cases heq

theorem keeps_matchOffer {offer : Offer Resource} (hprocessed : Processed id s.unprocessedOffers)
    (hother : offer.id ≠ id) (promise : ℕ) :
    Keeps config event.now id s (matchOffer util config event s offer promise).1
      (matchOffer util config event s offer promise).2 := by
  have hdeclined : ∀ resendThisOffer : Bool, ¬Completes id
      [(completeWithNoMatch offer promise resendThisOffer : Effect Resource Source)] := by
    rintro resendThisOffer ⟨_, result, hmem, hid⟩
    cases List.mem_singleton.mp hmem
    exact hother hid
  rw [matchOffer]
  split_ifs
  · exact .of_eq rfl (hdeclined _)
  · refine keeps_startProcessOfferOr hother (fun s' hs' => ?_) _ promise
    exact keeps_startNextOf util event rfl (hs' ▸ hprocessed)
  · exact .unprocessed s _ not_completes_nil
  · exact .of_eq rfl (hdeclined _)

section Receive

variable [DecidableEq Key]

theorem keeps_matchedInstanceOps {answer : MatchedInstanceOps Source}
    (hprocessed : Processed id s.unprocessedOffers) (hother : answer.offerId ≠ id) :
    Keeps config event.now id s (matchedInstanceOps util config event s answer).1
      (matchedInstanceOps util config event s answer).2 := by
  cases hlookup : s.offerQueues.lookup answer.offerId with
  | none =>
    rw [matchedInstanceOps, hlookup]
    exact .of_eq rfl not_completes_reject
  | some data =>
    obtain ⟨nextData, haccepts, -, heq⟩ := matchedInstanceOps_eq util config event hlookup
    have hid := id_of_lookup hlookup
    have hnext : nextData.offer.id ≠ id := by
      rw [haccepts.id, hid]
      exact hother
    rw [heq]
    have hsame : ∀ n, (s.accept n nextData).offerQueues.lookup id = s.offerQueues.lookup id := by
      intro n
      show (s.offerQueues.insert nextData).lookup id = _
      rw [Keyed.lookup_insert]
      exact if_neg fun h => hnext h.symm
    refine Keeps.trans (.of_eq (hsame _) not_completes_reject)
      (keeps_scheduleNextMatcherOr (lookup_insert_self _ nextData) hnext fun s' hs' => ?_)
    · exact keeps_startNextOf util event rfl (hs' ▸ hprocessed)

theorem keeps_receive (util : ResourceUtil Resource Key) (hs : Sound config s) (hadmissible : Admissible s event)
    (hdata : s.offerQueues.lookup id = some data)
    (hother : ∀ answer, event.message = .matchedInstanceOps answer → answer.offerId ≠ id) :
    Keeps config event.now id s (receive util config s event).1
      (receive util config s event).2 := by
  have hprocessed := processed_of_sound hs hdata
  rw [receive]
  cases hmessage : event.message with
  | setInstanceLaunchTokens tokens =>
    dsimp only [setInstanceLaunchTokens]
    refine .of_eq rfl ?_
    rintro ⟨promise, result, hmem, -⟩
    split_ifs at hmem
    · cases List.mem_singleton.mp hmem
    · cases hmem
  | addInstanceLaunchTokens tokens =>
    dsimp only [addInstanceLaunchTokens]
    refine .of_eq rfl ?_
    rintro ⟨promise, result, hmem, -⟩
    split_ifs at hmem
    · cases List.mem_singleton.mp hmem
    · cases hmem
  | addOrUpdateMatcher matcher =>
    dsimp only [addOrUpdateMatcher]
    split_ifs
    all_goals
      refine .of_eq rfl ?_
      rintro ⟨promise, result, hmem, -⟩
      simp at hmem
  | removeMatcher matcher =>
    dsimp only [removeMatcher]
    split_ifs
    all_goals
      refine .of_eq rfl ?_
      rintro ⟨promise, result, hmem, -⟩
      simp at hmem
  | matchOffer offer promise =>
    rw [Admissible, hmessage] at hadmissible
    refine keeps_matchOffer hprocessed (fun heq => hadmissible ?_) promise
    have hid := id_of_lookup hdata
    have hvalue := mem_values_of_lookup hdata
    rw [State.live, List.map_append, List.map_map, List.map_map, heq, ← hid]
    exact List.mem_append_right _ (List.mem_map_of_mem hvalue)
  | cleanUpOverdueOffers => exact keeps_rejectElapsedOffers hprocessed
  | matchedInstanceOps answer => exact keeps_matchedInstanceOps hprocessed (hother answer hmessage)

end Receive

/-! ## An answer for the offer -/

theorem nextMatcherOf_eq_none_iff :
    nextMatcherOf config event s data = none ↔ data.deadline < event.now ∨
      config.maxInstancesPerOffer ≤ data.ops.length ∨ s.launchTokens ≤ 0 ∨
        data.matcherQueue = [] := by
  rw [nextMatcherOf, MatchOfferData.nextMatcherOpt]
  split_ifs with hdeadline hops htokens
  · simp [hdeadline]
  · simp [hops]
  · simp [htokens]
  · cases hqueue : data.matcherQueue with
    | nil => simp
    | cons matcher queue => simp [hdeadline, hops, htokens]

theorem nextMatcherOf_eq_some {matcher : OfferMatcher} {newData : MatchOfferData Resource Source}
    (h : nextMatcherOf config event s data = some (matcher, newData)) :
    data.matcherQueue = matcher :: newData.matcherQueue ∧ newData.offer = data.offer := by
  rw [nextMatcherOf, MatchOfferData.nextMatcherOpt] at h
  split_ifs at h
  cases hqueue : data.matcherQueue with
  | nil =>
    rw [hqueue] at h
    cases h
  | cons next queue =>
    rw [hqueue] at h
    cases h
    exact ⟨rfl, rfl⟩

/-- The offer is shown to the matcher. -/
def Shows (matcher : OfferMatcher) (id : OfferID) (effects : List (Effect Resource Source)) :
    Prop :=
  ∃ offer, .askMatcher matcher offer ∈ effects ∧ offer.id = id

theorem shows_append {matcher : OfferMatcher} :
    Shows matcher id (effects ++ effects') ↔ Shows matcher id effects ∨ Shows matcher id effects' := by
  unfold Shows
  simp only [List.mem_append, or_and_right, exists_or]

/-- The offer is shown to the next matcher, and its data are stored. -/
structure Continues (id : OfferID) (matcher : OfferMatcher) (data : MatchOfferData Resource Source)
    (effects : List (Effect Resource Source)) (s' : State Resource Source) : Prop where
  lookup : s'.offerQueues.lookup id = some data
  shows : ∀ other, Shows other id effects ↔ other = matcher
  not_completes : ¬Completes id effects

/-- The match of the offer is completed with the operations that it has. -/
structure Ends (id : OfferID) (data : MatchOfferData Resource Source)
    (effects : List (Effect Resource Source)) (s' : State Resource Source) : Prop where
  lookup : s'.offerQueues.lookup id = none
  completes : Completes id effects
  ops_eq : ∀ promise result, .complete promise result ∈ effects → result.offerId = id →
    result.opsWithSource = data.ops

theorem scheduleNextMatcherOrFinish_cases (util : ResourceUtil Resource Key) (config : Config)
    (event : Event Resource Source) (hdata : s.offerQueues.lookup data.offer.id = some data)
    (hprocessed : Processed data.offer.id s.unprocessedOffers) :
    let r := scheduleNextMatcherOrFinish util config event s data
    (∃ matcher newData, nextMatcherOf config event s data = some (matcher, newData) ∧
        Continues data.offer.id matcher data r.1 r.2) ∨
      nextMatcherOf config event s data = none ∧ Ends data.offer.id data r.1 r.2 := by
  intro r
  have hr : r = scheduleNextMatcherOrFinish util config event s data := rfl
  rw [scheduleNextMatcherOrFinish, scheduleNextMatcherOr] at hr
  cases hnext : nextMatcherOf config event s data with
  | some next =>
    obtain ⟨matcher, newData⟩ := next
    rw [hnext] at hr
    have hoffer := (nextMatcherOf_eq_some hnext).2
    refine .inl ⟨matcher, newData, rfl, ?_⟩
    rw [hr]
    refine ⟨hdata, fun other => ⟨?_, ?_⟩, not_completes_askMatcher⟩
    · rintro ⟨offer, hmem, -⟩
      cases List.mem_singleton.mp hmem
      rfl
    · rintro rfl
      exact ⟨newData.offer, List.mem_singleton_self _, congrArg Offer.id hoffer⟩
  | none =>
    rw [hnext] at hr
    refine .inr ⟨rfl, ?_⟩
    have hfinished : (completeWithMatchResult s data data.resendThisOffer).2.offerQueues.lookup
        data.offer.id = none := by
      show (s.offerQueues.erase data.offer.id).lookup data.offer.id = none
      rw [Keyed.lookup_erase]
      exact if_pos rfl
    have hcomplete : Ends data.offer.id data (completeWithMatchResult s data data.resendThisOffer).1
        (completeWithMatchResult s data data.resendThisOffer).2 := by
      refine ⟨hfinished, ⟨_, _, List.mem_singleton_self _, rfl⟩, fun promise result hmem _ => ?_⟩
      cases List.mem_singleton.mp hmem
      rfl
    dsimp only at hr
    split_ifs at hr
    · -- what is started then is another offer
      have hkeeps : Keeps config event.now data.offer.id
          (completeWithMatchResult s data data.resendThisOffer).2 _ _ :=
        keeps_startNextOf util event rfl hprocessed
      obtain ⟨hnone, hnot⟩ := hkeeps.none hfinished
      rw [hr]
      refine ⟨hnone, completes_append.mpr (.inl hcomplete.completes), ?_⟩
      intro promise result hmem hid
      rcases List.mem_append.mp hmem with hmem | hmem
      · exact hcomplete.ops_eq promise result hmem hid
      · exact absurd ⟨promise, result, hmem, hid⟩ hnot
    · rw [hr]
      exact hcomplete

section Receive

variable [DecidableEq Key]

theorem answer_cases (util : ResourceUtil Resource Key) (event : Event Resource Source)
    (answer : MatchedInstanceOps Source) (hs : Sound config s)
    (htokens : HasTokens s) (h : s.offerQueues.lookup answer.offerId = some data) :
    let accepted := answer.opsWithSource.take (acceptedCount config s data answer.opsWithSource)
    let r := matchedInstanceOps util config event s answer
    ∃ nextData, Accepts data accepted nextData ∧ Rotates data answer.opsWithSource nextData ∧
      r.2.launchTokens = (s.accept accepted.length nextData).launchTokens ∧
      ((∃ matcher newData,
          nextMatcherOf config event (s.accept accepted.length nextData) nextData =
            some (matcher, newData) ∧ Continues answer.offerId matcher nextData r.1 r.2) ∨
        nextMatcherOf config event (s.accept accepted.length nextData) nextData = none ∧
          Ends answer.offerId nextData r.1 r.2) := by
  intro accepted r
  obtain ⟨nextData, haccepts, hrotates, heq⟩ := matchedInstanceOps_eq util config event h
  have hid := id_of_lookup h
  have hdata : s.offerQueues.lookup data.offer.id = some data := hid.symm ▸ h
  have hnextId : nextData.offer.id = answer.offerId := haccepts.id.trans hid
  have hr : r = _ := heq
  have hstored : (s.accept accepted.length nextData).offerQueues.lookup nextData.offer.id =
      some nextData := lookup_insert_self s nextData
  have hsound : Sound config (s.accept accepted.length nextData) :=
    sound_accept hs hdata haccepts (length_accepted config data answer.opsWithSource htokens
      (hs.allows data (mem_values_of_lookup h))).2 accepted.length
  let next := scheduleNextMatcherOrFinish util config event (s.accept accepted.length nextData) nextData
  have hmoves : Moves config (s.accept accepted.length nextData) next.1 next.2 :=
    moves_scheduleNextMatcherOrFinish hsound hstored
  have hprocessed : Processed nextData.offer.id s.unprocessedOffers := by
    rw [hnextId]
    exact processed_of_sound hs h
  have hcases := scheduleNextMatcherOrFinish_cases util config event hstored hprocessed
  rw [hnextId] at hcases
  refine ⟨nextData, haccepts, hrotates, ?_, ?_⟩
  · rw [hr]
    exact hmoves.tokens
  rw [hr]
  have hshows : ∀ other, ¬Shows other answer.offerId
      ((answer.opsWithSource.drop (acceptedCount config s data answer.opsWithSource)).map
        (.reject data.offer.id · notAccepted) : List (Effect Resource Source)) := by
    rintro other ⟨offer, hmem, -⟩
    obtain ⟨_, -, heq⟩ := List.mem_map.mp hmem
    cases heq
  rcases hcases with ⟨matcher, newData, hnext, hcontinues⟩ | ⟨hnext, hends⟩
  · refine .inl ⟨matcher, newData, hnext, hcontinues.lookup, fun other => ?_, fun h => ?_⟩
    · rw [shows_append]
      exact ⟨fun h => (hcontinues.shows other).mp (h.resolve_left (hshows other)),
        fun h => .inr ((hcontinues.shows other).mpr h)⟩
    · exact hcontinues.not_completes ((completes_append.mp h).resolve_left not_completes_reject)
  · refine .inr ⟨hnext, hends.lookup, completes_append.mpr (.inr hends.completes), ?_⟩
    intro promise result hmem hid
    rcases List.mem_append.mp hmem with hmem | hmem
    · exact absurd ⟨promise, result, hmem, hid⟩ not_completes_reject
    · exact hends.ops_eq promise result hmem hid

/-! ## Shown before the match is completed -/

/-- The offer is in a queue, and it is `now` or later. -/
def Pending (now : Timestamp) (id : OfferID) (s : State Resource Source)
    (event : Event Resource Source) : Prop :=
  Admissible s event ∧ now ≤ event.now ∧ (s.offerQueues.lookup id).isSome

/-- Why a match may end before every matcher was shown the offer: its time, its operations or the
tokens are used up, or its matchers are stuck. -/
def EndsEarly (config : Config) (now : Timestamp) (data : MatchOfferData Resource Source)
    (result : MatchedInstanceOps Source) (launchTokens : ℤ) : Prop :=
  data.deadline < now ∨ config.maxInstancesPerOffer ≤ result.opsWithSource.length ∨
    launchTokens ≤ 0 ∨ Stuck config now data

/-- Whatever happens from `now` on, the matcher is shown the offer before its match is completed,
unless that ends early. -/
def ShownInTime (util : ResourceUtil Resource Key) (config : Config) (matcher : OfferMatcher)
    (now : Timestamp) (id : OfferID) (s : State Resource Source) : Prop :=
  ∀ events event data promise result,
    (receive util config).Along (Pending now id) s (events ++ [event]) →
      let last := (receive util config).after s events
      last.offerQueues.lookup id = some data →
        .complete promise result ∈ (receive util config last event).1 → result.offerId = id →
          ¬EndsEarly config event.now data result (receive util config last event).2.launchTokens →
            Shows matcher id ((receive util config).answers s events).flatten

/-- The matcher is in the queue behind the one that has the offer, or the match can only end
early. -/
def Waits (config : Config) (now : Timestamp) (matcher : OfferMatcher)
    (data : MatchOfferData Resource Source) : Prop :=
  matcher ∈ data.matcherQueue.tail ∨ data.deadline < now ∨ Stuck config now data ∨
    config.maxInstancesPerOffer ≤ data.ops.length

variable {now : Timestamp} {matcher : OfferMatcher}

theorem waits_step (util : ResourceUtil Resource Key) (hs : Sound config s) (htokens : HasTokens s)
    (hpending : Pending now id s event) (hdata : s.offerQueues.lookup id = some data)
    (h : Waits config now matcher data) :
    (Shows matcher id (receive util config s event).1 ∨
        ∀ nextData ∈ (receive util config s event).2.offerQueues.lookup id,
          Waits config now matcher nextData) ∧
      ∀ promise result, .complete promise result ∈ (receive util config s event).1 →
        result.offerId = id →
          EndsEarly config event.now data result (receive util config s event).2.launchTokens := by
  obtain ⟨hadmissible, hnow, -⟩ := hpending
  by_cases hown : ∃ answer, event.message = .matchedInstanceOps answer ∧ answer.offerId = id
  · obtain ⟨answer, hmessage, rfl⟩ := hown
    have hreceive : receive util config s event = matchedInstanceOps util config event s answer := by
      rw [receive, hmessage]
    obtain ⟨nextData, haccepts, hrotates, hlaunchTokens, hcases⟩ :=
      answer_cases util event _ hs htokens hdata
    rw [hreceive]
    have hops : data.ops.length ≤ nextData.ops.length := by
      rw [haccepts.ops, List.length_append]
      exact Nat.le_add_left _ _
    rcases hcases with ⟨asked, newData, hnext, hcontinues⟩ | ⟨hnext, hends⟩
    · refine ⟨?_, fun promise result hmem hid =>
        absurd ⟨promise, result, hmem, hid⟩ hcontinues.not_completes⟩
      by_cases heq : asked = matcher
      · exact .inl ((hcontinues.shows matcher).mpr heq.symm)
      · refine .inr fun other hother => ?_
        rw [hcontinues.lookup] at hother
        cases hother
        have hqueue := (nextMatcherOf_eq_some hnext).1
        rcases h with htail | hdeadline | hstuck | hmax
        · refine .inl ?_
          have hmem : matcher ∈ nextData.matcherQueue := by
            rw [hrotates.matcherQueue]
            exact List.mem_append_left _ htail
          rw [hqueue] at hmem ⊢
          exact (List.mem_cons.mp hmem).resolve_left fun h => heq h.symm
        · exact .inr (.inl (hrotates.deadline ▸ hdeadline))
        · refine .inr (.inr (.inl ?_))
          rw [Stuck, hrotates.deadline]
          exact hstuck
        · exact .inr (.inr (.inr (by omega)))
    · refine ⟨.inr fun other hother => ?_, fun promise result hmem hid => ?_⟩
      · rw [hends.lookup] at hother
        cases hother
      · rw [EndsEarly, hends.ops_eq promise result hmem hid, hlaunchTokens]
        rcases nextMatcherOf_eq_none_iff.mp hnext with hdeadline | hmax | hnone | hqueue
        · exact .inl (hrotates.deadline ▸ hdeadline)
        · exact .inr (.inl hmax)
        · exact .inr (.inr (.inl hnone))
        · rw [hrotates.matcherQueue, List.append_eq_nil_iff] at hqueue
          rcases h with htail | hdeadline | hstuck | hmax
          · rw [hqueue.1] at htail
            cases htail
          · exact .inl (lt_of_lt_of_le hdeadline hnow)
          · exact .inr (.inr (.inr (lt_of_lt_of_le hstuck hnow)))
          · exact .inr (.inl (by omega))
  · have hkeeps := keeps_receive util hs hadmissible hdata fun answer hmessage heq =>
      hown ⟨answer, hmessage, heq⟩
    refine ⟨.inr fun nextData hnext => ?_, fun promise result hmem hid => ?_⟩
    · rcases hkeeps.lookup with hsame | ⟨hnone, -⟩
      · rw [hsame, hdata] at hnext
        cases hnext
        exact h
      · rw [hnone] at hnext
        cases hnext
    · obtain ⟨other, hother, hstuck⟩ := hkeeps.completed ⟨promise, result, hmem, hid⟩
      rw [hdata] at hother
      cases hother
      exact .inr (.inr (.inr hstuck))

theorem sound_receive (util : ResourceUtil Resource Key) (hs : Sound config s)
    (htokens : HasTokens s) (h : Admissible s event) :
    Sound config (receive util config s event).2 ∧ HasTokens (receive util config s event).2 := by
  obtain ⟨hbooks, hnext⟩ := books_receive util hs htokens h
  exact ⟨hbooks.sound, hnext⟩

theorem shownInTime_of_waits (util : ResourceUtil Resource Key) (hs : Sound config s)
    (htokens : HasTokens s) (h : ∀ data ∈ s.offerQueues.lookup id, Waits config now matcher data) :
    ShownInTime util config matcher now id s := by
  intro events event data promise result halong last hdata hmem hid hearly
  induction events generalizing s with
  | nil => exact absurd ((waits_step util hs htokens halong.1 hdata (h data hdata)).2 promise result
      hmem hid) hearly
  | cons first events ih =>
    obtain ⟨hfirst, hrest⟩ := halong
    obtain ⟨current, hcurrent⟩ := Option.isSome_iff_exists.mp hfirst.2.2
    obtain ⟨hnext, -⟩ := waits_step util hs htokens hfirst hcurrent (h current hcurrent)
    rw [Component.answers, List.flatten_cons, shows_append]
    rcases hnext with hshows | hwaits
    · exact .inl hshows
    · obtain ⟨hsound, hnextTokens⟩ := sound_receive util hs htokens hfirst.1
      exact .inr (ih hsound hnextTokens hwaits hrest hdata hmem hearly)

theorem ShownInTime.next (h : ShownInTime util config matcher now id s)
    (hpending : Pending now id s event) (hnot : ¬Shows matcher id (receive util config s event).1) :
    ShownInTime util config matcher now id (receive util config s event).2 := by
  intro events last data promise result halong state hdata hmem hid hearly
  have hshows := h (event :: events) last data promise result ⟨hpending, halong⟩ hdata hmem hid
    hearly
  rw [Component.answers, List.flatten_cons, shows_append] at hshows
  exact hshows.resolve_left hnot

/-- An answer without operations. -/
def noMatchEvent (now : Timestamp) (id : OfferID) : Event Resource Source :=
  ⟨.matchedInstanceOps (.noMatch id false), now, fun matchers => matchers, fun _ => .refl _⟩

theorem not_shownInTime (util : ResourceUtil Resource Key) (hs : Sound config s)
    (htokens : HasTokens s) (hpos : 0 < s.launchTokens)
    (hdata : s.offerQueues.lookup id = some data) (h : ¬Waits config now matcher data) :
    ¬ShownInTime util config matcher now id s := by
  induction hlength : data.matcherQueue.length using Nat.strong_induction_on generalizing s data with
  | _ n ih =>
  intro hshown
  let event : Event Resource Source := noMatchEvent now id
  have hpending : Pending now id s event :=
    ⟨trivial, le_refl now, Option.isSome_iff_exists.mpr ⟨data, hdata⟩⟩
  obtain ⟨hsound, hnextTokens⟩ := sound_receive util hs htokens hpending.1
  obtain ⟨nextData, haccepts, hrotates, hlaunchTokens, hcases⟩ :=
    answer_cases util event (.noMatch id false) hs htokens hdata
  have hnone : (MatchedInstanceOps.noMatch id false : MatchedInstanceOps Source).opsWithSource =
      [] := rfl
  rw [hnone, List.take_nil] at haccepts hcases hlaunchTokens
  have hops : nextData.ops = data.ops := haccepts.ops
  have hqueue : nextData.matcherQueue = data.matcherQueue.tail := by
    rw [hrotates.matcherQueue]
    exact List.append_nil _
  have hcharged : (s.accept ([] : List (InstanceOpWithSource Source)).length nextData).launchTokens =
      s.launchTokens := by
    show toInt32 (s.launchTokens - (0 : ℤ)) = s.launchTokens
    rw [Int.sub_zero]
    exact toInt32_of_hasTokens htokens
  obtain ⟨htail, hdeadline, hstuck, hmax⟩ : matcher ∉ data.matcherQueue.tail ∧
      ¬data.deadline < now ∧ ¬Stuck config now data ∧
        ¬config.maxInstancesPerOffer ≤ data.ops.length := by
    unfold Waits at h
    tauto
  rcases hcases with ⟨asked, newData, hnext, hcontinues⟩ | ⟨hnext, hends⟩
  · -- the next matcher is another one, and the queue gets shorter
    have hasked := (nextMatcherOf_eq_some hnext).1
    have hne : matcher ≠ asked := by
      rintro rfl
      rw [← hqueue, hasked] at htail
      exact htail List.mem_cons_self
    have hwaits : ¬Waits config now matcher nextData := by
      rintro (hmem | hlate | hlate | hfull)
      · rw [← hqueue] at htail
        exact htail (List.mem_of_mem_tail hmem)
      · exact hdeadline (hrotates.deadline ▸ hlate)
      · rw [Stuck, hrotates.deadline] at hlate
        exact hstuck hlate
      · exact hmax (hops ▸ hfull)
    have hshorter : nextData.matcherQueue.length < n := by
      rw [← hlength, hqueue, List.length_tail]
      have hpositive : 0 < data.matcherQueue.tail.length := by
        rw [← hqueue, hasked]
        exact Nat.succ_pos _
      rw [List.length_tail] at hpositive
      omega
    refine ih _ hshorter hsound hnextTokens ?_ hcontinues.lookup hwaits rfl
      (hshown.next hpending fun hshows => hne ((hcontinues.shows matcher).mp hshows))
    exact lt_of_lt_of_eq hpos (hcharged.symm.trans hlaunchTokens.symm)
  · obtain ⟨promise, result, hmem, hid⟩ := hends.completes
    have hearly : ¬EndsEarly config now data result (receive util config s event).2.launchTokens := by
      have htokensLeft : (receive util config s event).2.launchTokens = s.launchTokens :=
        hlaunchTokens.trans hcharged
      rw [EndsEarly, hends.ops_eq promise result hmem hid, hops, htokensLeft]
      rintro (hlate | hfull | hout | hlate)
      · exact hdeadline hlate
      · exact hmax hfull
      · omega
      · exact hstuck hlate
    obtain ⟨offer, hasks, -⟩ := hshown [] event data promise result ⟨hpending, trivial⟩ hdata hmem hid
      hearly
    cases hasks

/-! ## Matchers that are added -/

theorem sound_after (util : ResourceUtil Resource Key) {events : List (Event Resource Source)}
    (hs : Sound config s) (htokens : HasTokens s)
    (h : (receive util config).Along Admissible s events) :
    Sound config ((receive util config).after s events) ∧
      HasTokens ((receive util config).after s events) := by
  induction events generalizing s with
  | nil => exact ⟨hs, htokens⟩
  | cons event events ih =>
    obtain ⟨hsound, hnext⟩ := sound_receive util hs htokens h.1
    exact ih hsound hnext h.2

theorem sound_initial : Sound config (State.initial : State Resource Source) :=
  ⟨List.nodup_nil, fun _ hmem => by cases hmem⟩

theorem hasTokens_initial : HasTokens (State.initial : State Resource Source) := by
  show (0 : ℤ) ≤ 0 ∧ (0 : ℤ) < 2147483648
  decide

/-- A matcher that is added is shown an offer in process, before its match is completed and unless
that ends early, exactly if it is in the queue of the offer already or the match can only end
early. The queues do not get the matcher. -/
theorem added_shownInTime_iff (util : ResourceUtil Resource Key)
    {events : List (Event Resource Source)}
    (h : (receive util config).Along Admissible .initial events)
    (hevent : event.message = .addOrUpdateMatcher matcher)
    (hnew : matcher ∉ ((receive util config).after .initial events).matchers)
    (hdata : ((receive util config).after .initial events).offerQueues.lookup id = some data) :
    ShownInTime util config matcher event.now id
        (receive util config ((receive util config).after .initial events) event).2 ↔
      Waits config event.now matcher data := by
  obtain ⟨hs, htokens⟩ := sound_after util sound_initial hasTokens_initial h
  revert hnew hdata hs htokens
  generalize (receive util config).after .initial events = s
  intro hnew hdata hs htokens
  have hadmissible : Admissible s event := by
    rw [Admissible, hevent]
    trivial
  obtain ⟨hsound, hnextTokens⟩ := sound_receive util hs htokens hadmissible
  have hnext : (receive util config s event).2 = { s with matchers := matcher :: s.matchers } := by
    rw [receive, hevent]
    dsimp only [addOrUpdateMatcher]
    rw [if_neg hnew]
  have hlookup : (receive util config s event).2.offerQueues.lookup id = some data := by
    rw [hnext]
    exact hdata
  constructor
  · intro hshown
    by_contra hwaits
    let tokens : Event Resource Source :=
      ⟨.setInstanceLaunchTokens 1, event.now, fun matchers => matchers, fun _ => .refl _⟩
    have hpending : Pending event.now id (receive util config s event).2 tokens := by
      refine ⟨?_, le_refl _, Option.isSome_iff_exists.mpr ⟨data, hlookup⟩⟩
      show (0 : ℤ) ≤ 1 ∧ (1 : ℤ) < 2147483648
      decide
    obtain ⟨hsound', htokens'⟩ := sound_receive util hsound hnextTokens hpending.1
    refine not_shownInTime util hsound' htokens' Int.one_pos hlookup hwaits
      (hshown.next hpending ?_)
    rintro ⟨offer, hmem, -⟩
    dsimp only [receive, tokens, setInstanceLaunchTokens] at hmem
    split_ifs at hmem
    · cases List.mem_singleton.mp hmem
    · cases hmem
  · intro hwaits
    refine shownInTime_of_waits util hsound hnextTokens fun other hother => ?_
    rw [hlookup] at hother
    cases hother
    exact hwaits

end Receive

end General

/-! ## A second matcher -/

namespace Cpus

/-- The offer is shown to the only matcher. -/
def oneMatcher : List (Event (String × ℕ) Unit) :=
  [addMatcher, eventOf (.setInstanceLaunchTokens 1), matchOffer 0]

def second : OfferMatcher := ⟨"second", none⟩

def inProcess : MatchOfferData (String × ℕ) Unit :=
  ⟨⟨"offer", [("cpus", 4)]⟩, ⟨3000000000⟩, 0, [⟨"launcher", none⟩], [], 0, false⟩

theorem admissible_oneMatcher : (receive util config).Along Admissible .initial oneMatcher :=
  have hnew : "offer" ∉ ([] : List OfferID) := List.not_mem_nil
  ⟨trivial, ⟨by decide, by decide⟩, hnew, trivial⟩

theorem second_shownInTime_iff :
    ShownInTime util config second ⟨0⟩ "offer"
        (receive util config ((receive util config).after .initial oneMatcher)
          (eventOf (.addOrUpdateMatcher second))).2 ↔ Waits config ⟨0⟩ second inProcess :=
  have hevent : (eventOf (.addOrUpdateMatcher second)).message = .addOrUpdateMatcher second := rfl
  added_shownInTime_iff util admissible_oneMatcher hevent (by decide) rfl

/-- The first matcher has no operation, and the match is completed. -/
theorem not_forall_shownInTime :
    ¬∀ (events : List (Event (String × ℕ) Unit)) (event : Event (String × ℕ) Unit)
      (matcher : OfferMatcher), (receive util config).Along Admissible .initial events →
        event.message = .addOrUpdateMatcher matcher →
          matcher ∉ ((receive util config).after .initial events).matchers →
            ∀ data ∈ ((receive util config).after .initial events).offerQueues.values,
              ShownInTime util config matcher event.now data.offer.id
                (receive util config ((receive util config).after .initial events) event).2 := by
  intro h
  have hshown := h oneMatcher (eventOf (.addOrUpdateMatcher second)) second admissible_oneMatcher rfl
    (by decide) inProcess (Keyed.mem_values.mpr rfl)
  have hpending : Pending ⟨0⟩ "offer" (receive util config
      ((receive util config).after .initial oneMatcher) (eventOf (.addOrUpdateMatcher second))).2
        (noMatchEvent ⟨0⟩ "offer") := ⟨trivial, le_refl _, rfl⟩
  have hearly : ¬EndsEarly config ⟨0⟩ inProcess (.noMatch "offer" false) 1 := by
    unfold EndsEarly Stuck
    decide
  obtain ⟨offer, hasks, -⟩ := hshown [] (noMatchEvent ⟨0⟩ "offer") inProcess 0 (.noMatch "offer" false)
    ⟨hpending, trivial⟩ rfl List.mem_cons_self rfl hearly
  cases hasks

end Cpus

end Marathon.OfferMatcherManagerActor
