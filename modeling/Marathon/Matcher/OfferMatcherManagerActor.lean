import Marathon.Launcher.OfferProcessor
import Marathon.Lib.Component

/-!
# The offer matcher manager

The actor shows an offer to one matcher after the other and collects the operations that they
answer with, as many as there are launch tokens. An offer that cannot be processed at once waits
in a stack.
-/

namespace Marathon

open Lib

/-! ## Resources -/

/-- What is used of the resources of Mesos: by what a resource is matched, its type, the run spec
of a volume that is on it, what is left of it when it is used (or why it cannot be used), and the
resources that an operation uses. -/
structure ResourceUtil (Resource Key : Type) where
  matchKey : Resource → Key
  resourceType : Resource → ℕ
  volumeRunSpecId : Resource → Option AbsolutePathId
  consumeResource : Resource → Resource → Except String (Option Resource)
  usedResources : InstanceOp → List Resource

namespace ResourceUtil

variable {Resource Key : Type} [DecidableEq Key] (util : ResourceUtil Resource Key)

/-- What is left of a resource; one that cannot be consumed is taken to be used up. -/
def consumeOne (left : Option Resource) (used : Resource) : Option Resource :=
  match left with
  | none => none
  | some resource =>
    if util.resourceType resource ≠ util.resourceType used then none
    else
      match util.consumeResource resource used with
      | .ok rest => rest
      | .error _ => none

/-- Every resource without what is used of those with its key. -/
def consumeResources (resources used : List Resource) : List Resource :=
  resources.filterMap fun resource =>
    (used.filter (util.matchKey · = util.matchKey resource)).foldl util.consumeOne (some resource)

end ResourceUtil

namespace OfferMatcherManagerActor

/-! ## Data -/

structure OfferMatcher where
  name : String
  precedenceFor : Option AbsolutePathId
deriving DecidableEq

structure Offer (Resource : Type) where
  id : OfferID
  resources : List Resource

/-- `applyToOffer`: what is left of the offer when the operation is executed. -/
def applyToOffer {Resource Key : Type} [DecidableEq Key] (util : ResourceUtil Resource Key)
    (op : InstanceOp) (offer : Offer Resource) : Offer Resource :=
  { offer with resources := util.consumeResources offer.resources (util.usedResources op) }

structure MatchOfferData (Resource Source : Type) where
  offer : Offer Resource
  deadline : Timestamp
  promise : ℕ
  matcherQueue : List OfferMatcher
  ops : List (InstanceOpWithSource Source)
  matchPasses : ℕ
  resendThisOffer : Bool

namespace MatchOfferData

variable {Resource Key Source : Type} [DecidableEq Key]

def id (data : MatchOfferData Resource Source) : OfferID := data.offer.id

def addMatcher (data : MatchOfferData Resource Source) (matcher : OfferMatcher) :
    MatchOfferData Resource Source :=
  { data with matcherQueue := data.matcherQueue ++ [matcher] }

def nextMatcherOpt (data : MatchOfferData Resource Source) :
    Option (OfferMatcher × MatchOfferData Resource Source) :=
  match data.matcherQueue with
  | [] => none
  | nextMatcher :: newQueue => some (nextMatcher, { data with matcherQueue := newQueue })

def addInstances (util : ResourceUtil Resource Key) (data : MatchOfferData Resource Source)
    (added : List (InstanceOpWithSource Source)) : MatchOfferData Resource Source :=
  { data with
    offer := added.foldl (fun offer nextOp => applyToOffer util nextOp.op offer) data.offer
    ops := added ++ data.ops }

end MatchOfferData

structure UnprocessedOffer (Resource : Type) where
  offer : Offer Resource
  deadline : Timestamp
  promise : ℕ

def UnprocessedOffer.isOverdue {Resource : Type} (unprocessed : UnprocessedOffer Resource)
    (now : Timestamp) : Bool :=
  unprocessed.deadline ≤ now

/-- `OfferMatcherManagerConfig`. -/
structure Config where
  offerMatchingTimeout : FiniteDuration
  maxInstancesPerOffer : ℤ
  maxParallelOffers : ℤ
  maxQueuedOffers : ℤ

structure State (Resource Source : Type) where
  launchTokens : ℤ
  matchers : List OfferMatcher
  offerQueues : Keyed (@MatchOfferData.id Resource Source)
  unprocessedOffers : List (UnprocessedOffer Resource)

def State.initial {Resource Source : Type} : State Resource Source := ⟨0, [], ∅, []⟩

inductive Message (Resource Source : Type)
  | setInstanceLaunchTokens (tokens : ℤ)
  | addInstanceLaunchTokens (tokens : ℤ)
  | addOrUpdateMatcher (matcher : OfferMatcher)
  | removeMatcher (matcher : OfferMatcher)
  | matchOffer (offer : Offer Resource) (promise : ℕ)
  | cleanUpOverdueOffers
  | matchedInstanceOps (answer : MatchedInstanceOps Source)

/-- What the actor does beside changing its state: promises, operations, matchers and answers. -/
inductive Effect (Resource Source : Type)
  | complete (promise : ℕ) (result : MatchedInstanceOps Source)
  | reject (offerId : OfferID) (op : InstanceOpWithSource Source) (reason : String)
  | askMatcher (matcher : OfferMatcher) (offer : Offer Resource)
  | offersWanted (wanted : Bool)
  | matcherAdded (matcher : OfferMatcher)
  | matcherRemoved (matcher : OfferMatcher)

/-- A message with the time when it is handled and how matchers are shuffled then. -/
structure Event (Resource Source : Type) where
  message : Message Resource Source
  now : Timestamp
  shuffle : List OfferMatcher → List OfferMatcher
  shuffle_perm : ∀ matchers, (shuffle matchers).Perm matchers

/-- An `Int` of 32 bits. -/
def toInt32 (n : ℤ) : ℤ := (n + 2147483648) % 4294967296 - 2147483648

/-! ## Handlers -/

section Handlers

variable {Resource Key Source : Type} [DecidableEq Key] (util : ResourceUtil Resource Key)
  (config : Config) (event : Event Resource Source)

def State.offersWanted (s : State Resource Source) : Bool :=
  !s.matchers.isEmpty && 0 < s.launchTokens

/-- The matchers that a volume on the offer is reserved for, and then the others. -/
def offerMatchers (s : State Resource Source) (offer : Offer Resource) : List OfferMatcher :=
  let reservations := offer.resources.filterMap util.volumeRunSpecId
  let (reserved, normal) := s.matchers.partition fun matcher =>
    matcher.precedenceFor.any (· ∈ reservations)
  event.shuffle reserved ++ event.shuffle normal

def completeWithNoMatch (offer : Offer Resource) (promise : ℕ) (resendThisOffer : Bool) :
    Effect Resource Source :=
  .complete promise (.noMatch offer.id resendThisOffer)

def completeWithMatchResult (s : State Resource Source) (data : MatchOfferData Resource Source)
    (resendThisOffer : Bool) : List (Effect Resource Source) × State Resource Source :=
  ([.complete data.promise ⟨data.offer.id, data.ops, resendThisOffer⟩],
    { s with offerQueues := s.offerQueues.erase data.offer.id })

/-- The matches of some offers are completed, which are to be sent again. -/
def completeAll (s : State Resource Source) :
    List (MatchOfferData Resource Source) → List (Effect Resource Source) × State Resource Source
  | [] => ([], s)
  | data :: rest =>
    let (effects, next) := completeWithMatchResult s data true
    let (later, last) := completeAll next rest
    (effects ++ later, last)

/-- Offers that wait for too long are declined, and so are those whose matchers are stuck. -/
def rejectElapsedOffers (s : State Resource Source) :
    List (Effect Resource Source) × State Resource Source :=
  let (valid, overdue) := s.unprocessedOffers.span fun unprocessed => !unprocessed.isOverdue event.now
  let declined := overdue.map fun unprocessed =>
    completeWithNoMatch unprocessed.offer unprocessed.promise true
  let stuck := s.offerQueues.values.filter fun data =>
    data.deadline.plus config.offerMatchingTimeout < event.now
  let (effects, next) := completeAll { s with unprocessedOffers := valid } stuck
  (declined ++ effects, next)

/-- The matcher that is asked next, unless the time, the instances or the tokens are used up. -/
def nextMatcherOf (s : State Resource Source) (data : MatchOfferData Resource Source) :
    Option (OfferMatcher × MatchOfferData Resource Source) :=
  if data.deadline < event.now then none
  else if config.maxInstancesPerOffer ≤ data.ops.length then none
  else if s.launchTokens ≤ 0 then none
  else data.nextMatcherOpt

/-- `scheduleNextMatcherOrFinish`; `startNext` is what starts the next unprocessed offer. -/
def scheduleNextMatcherOr
    (startNext : State Resource Source → List (Effect Resource Source) × State Resource Source)
    (s : State Resource Source) (data : MatchOfferData Resource Source) :
    List (Effect Resource Source) × State Resource Source :=
  match nextMatcherOf config event s data with
  | some (nextMatcher, newData) => ([.askMatcher nextMatcher newData.offer], s)
  | none =>
    let (effects, finished) := completeWithMatchResult s data data.resendThisOffer
    if finished.offersWanted then
      let (later, next) := startNext finished
      (effects ++ later, next)
    else (effects, finished)

/-- `startProcessOffer`. -/
def startProcessOfferOr
    (startNext : State Resource Source → List (Effect Resource Source) × State Resource Source)
    (s : State Resource Source) (offer : Offer Resource) (deadline : Timestamp) (promise : ℕ) :
    List (Effect Resource Source) × State Resource Source :=
  let data : MatchOfferData Resource Source :=
    ⟨offer, deadline, promise, offerMatchers util event s offer, [], 0, false⟩
  scheduleNextMatcherOr config event startNext
    { s with offerQueues := s.offerQueues.insert data } data

/-- The unprocessed offers are those of the state, passed along for the sake of the recursion. When
the first one is overdue then so are the others, and nothing is left to be started. -/
def startNextOf : List (UnprocessedOffer Resource) → State Resource Source →
    List (Effect Resource Source) × State Resource Source
  | [], s => ([], s)
  | head :: tail, s =>
    if head.isOverdue event.now then rejectElapsedOffers config event s
    else if s.offerQueues.values.length < config.maxParallelOffers then
      startProcessOfferOr util config event (startNextOf tail) { s with unprocessedOffers := tail }
        head.offer (event.now.plus config.offerMatchingTimeout) head.promise
    else ([], s)

def startNextUnprocessedOffer (s : State Resource Source) :
    List (Effect Resource Source) × State Resource Source :=
  startNextOf util config event s.unprocessedOffers s

def scheduleNextMatcherOrFinish (s : State Resource Source)
    (data : MatchOfferData Resource Source) :
    List (Effect Resource Source) × State Resource Source :=
  scheduleNextMatcherOr config event (startNextUnprocessedOffer util config event) s data

def startProcessOffer (s : State Resource Source) (offer : Offer Resource) (deadline : Timestamp)
    (promise : ℕ) : List (Effect Resource Source) × State Resource Source :=
  startProcessOfferOr util config event (startNextUnprocessedOffer util config event) s offer
    deadline promise

def setInstanceLaunchTokens (s : State Resource Source) (tokens : ℤ) :
    List (Effect Resource Source) × State Resource Source :=
  let next := { s with launchTokens := tokens }
  (if 0 < tokens ∧ s.launchTokens ≤ 0 then [.offersWanted next.offersWanted] else [], next)

def addInstanceLaunchTokens (s : State Resource Source) (tokens : ℤ) :
    List (Effect Resource Source) × State Resource Source :=
  let next := { s with launchTokens := toInt32 (s.launchTokens + tokens) }
  (if 0 < tokens ∧ next.launchTokens = tokens then [.offersWanted next.offersWanted] else [], next)

/-- The offers that are being processed do not get the matcher: the map in the source has no
effect. -/
def addOrUpdateMatcher (s : State Resource Source) (matcher : OfferMatcher) :
    List (Effect Resource Source) × State Resource Source :=
  if matcher ∈ s.matchers then ([.matcherAdded matcher], s)
  else
    let next := { s with matchers := matcher :: s.matchers }
    ([.offersWanted next.offersWanted, .matcherAdded matcher], next)

def removeMatcher (s : State Resource Source) (matcher : OfferMatcher) :
    List (Effect Resource Source) × State Resource Source :=
  if matcher ∈ s.matchers then
    let next := { s with matchers := s.matchers.filter (· ≠ matcher) }
    ([.offersWanted next.offersWanted, .matcherRemoved matcher], next)
  else ([.matcherRemoved matcher], s)

def matchOffer (s : State Resource Source) (offer : Offer Resource) (promise : ℕ) :
    List (Effect Resource Source) × State Resource Source :=
  if !s.offersWanted then ([completeWithNoMatch offer promise (!s.matchers.isEmpty)], s)
  else
    let deadline := event.now.plus config.offerMatchingTimeout
    if s.offerQueues.values.length < config.maxParallelOffers then
      startProcessOffer util config event s offer deadline promise
    else if s.unprocessedOffers.length < config.maxQueuedOffers then
      ([], { s with unprocessedOffers := ⟨offer, deadline, promise⟩ :: s.unprocessedOffers })
    else ([completeWithNoMatch offer promise true], s)

/-- How many of the operations that are answered are accepted. -/
def acceptedCount (s : State Resource Source) (data : MatchOfferData Resource Source)
    (addedOps : List (InstanceOpWithSource Source)) : ℕ :=
  (min s.launchTokens (min addedOps.length (config.maxInstancesPerOffer - data.ops.length))).toNat

def notAccepted : String :=
  "not enough launch tokens OR already scheduled sufficient instances on offer"

/-- `processAddedInstances`. Nothing in its `try` fails: a source is told by a message, and
`applyToOffer` does not fail. -/
def processAddedInstances (s : State Resource Source) (data : MatchOfferData Resource Source)
    (addedOps : List (InstanceOpWithSource Source)) :
    List (Effect Resource Source) × State Resource Source × MatchOfferData Resource Source :=
  let (acceptedOps, rejectedOps) := addedOps.splitAt (acceptedCount config s data addedOps)
  let rejected := rejectedOps.map fun op => .reject data.offer.id op notAccepted
  let newData := data.addInstances util acceptedOps
  let charged := { s with launchTokens := toInt32 (s.launchTokens - acceptedOps.length) }
  match newData.nextMatcherOpt with
  | some (matcher, contData) =>
    let contDataWithActiveMatcher :=
      if addedOps.isEmpty then contData else contData.addMatcher matcher
    (rejected,
      { charged with offerQueues := charged.offerQueues.insert contDataWithActiveMatcher },
      contDataWithActiveMatcher)
  | none => (rejected, charged, newData)

def matchedInstanceOps (s : State Resource Source) (answer : MatchedInstanceOps Source) :
    List (Effect Resource Source) × State Resource Source :=
  match s.offerQueues.lookup answer.offerId with
  | some data =>
    let (rejected, next, nextData) := processAddedInstances util config s
      { data with
        matchPasses := data.matchPasses + 1
        resendThisOffer := data.resendThisOffer || answer.resendThisOffer }
      answer.opsWithSource
    let (effects, last) := scheduleNextMatcherOrFinish util config event next nextData
    (rejected ++ effects, last)
  | none =>
    (answer.opsWithSource.map fun op =>
      .reject answer.offerId op ("offer '" ++ answer.offerId ++ "' already timed out"), s)

end Handlers

def receive {Resource Key Source : Type} [DecidableEq Key] (util : ResourceUtil Resource Key)
    (config : Config) :
    Component (State Resource Source) (Event Resource Source) (List (Effect Resource Source)) :=
  fun s event =>
    match event.message with
    | .setInstanceLaunchTokens tokens => setInstanceLaunchTokens s tokens
    | .addInstanceLaunchTokens tokens => addInstanceLaunchTokens s tokens
    | .addOrUpdateMatcher matcher => addOrUpdateMatcher s matcher
    | .removeMatcher matcher => removeMatcher s matcher
    | .matchOffer offer promise => matchOffer util config event s offer promise
    | .cleanUpOverdueOffers => rejectElapsedOffers config event s
    | .matchedInstanceOps answer => matchedInstanceOps util config event s answer

end OfferMatcherManagerActor

end Marathon
