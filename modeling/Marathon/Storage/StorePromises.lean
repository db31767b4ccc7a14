import Marathon.Storage.GcSafety

/-!
# Every store promise is completed once

The collector with the log of its calls of `promise.success`, under any order of the
messages that reach it: requests, ends of scans and compactions (a scan or a compaction that
fails ends too, with nothing to delete or as if it were done), timers, and what the actor
has sent itself. The promises received are at any time divided between the log, the blocked
promises and the mailbox.
-/

namespace Marathon.Storage.GcActor

open Lib

/-- The promise that a message to store carries. -/
def Message.promise : Message → List Promise
  | .storeApp _ _ promise | .storePod _ _ promise | .storeRoot _ promise | .storePlan _ promise =>
    [promise]
  | .scanDone _ | .runGC | .compactDone | .wakeUp => []

/-- The promises that wait for the end of the compaction. -/
def Data.blocked : Data → List Promise
  | .compacting blocked => blocked.promises
  | .resting | .readyForGc | .scanning _ => []

/-- The promises on which the actor calls `success` as it handles the message. -/
def Data.succeeds : Data → Message → List Promise
  | .compacting blocked, .storeApp appId version promise =>
    if blocked.blocksRunSpec .app appId version then [] else [promise]
  | .compacting blocked, .storePod podId version promise =>
    if blocked.blocksRunSpec .pod podId version then [] else [promise]
  | .compacting blocked, .storeRoot root promise =>
    if blocked.blocksRoot root then [] else [promise]
  | .compacting _, .storePlan _ _ => []
  | .compacting blocked, .compactDone => blocked.promises
  | _, message => message.promise

/-- The actor and the promises it has completed so far, in this order. -/
structure Ledger where
  state : State
  completed : List Promise

/-- What reaches the actor: a message from outside, the end of a scan with any proposals, the
end of a compaction, or the next message that it has sent itself. -/
inductive Arrival
  | runGC
  | wakeUp
  | scanDone (done : ScanDone)
  | compactDone
  | request (entity : Entity)
  | deliver

namespace Ledger

def handle (config : Config) (l : Ledger) (message : Message) : Ledger where
  state := l.state.receive config message
  completed := l.completed ++ l.state.data.succeeds message

def step (config : Config) (l : Ledger) : Arrival → Option Ledger
  | .runGC => some (l.handle config .runGC)
  | .wakeUp => some (l.handle config .wakeUp)
  | .scanDone done => some (l.handle config (.scanDone done))
  | .compactDone => some (l.handle config .compactDone)
  | .request entity =>
    some (handle config
      { l with state := { l.state with requests := l.state.requests ++ [.make entity] } }
      (entity.message ⟨l.state.requests.length, 0⟩))
  | .deliver =>
    match l.state.selfInbox with
    | [] => none
    | message :: rest =>
      some (handle config { l with state := { l.state with selfInbox := rest } } message)

/-- The collector at its start, before any promise. -/
def Initial (config : Config) (l : Ledger) : Prop :=
  l.state.Initial config ∧ l.completed = []

end Ledger

/-- The collector and every order in which messages can reach it. -/
def ledger (config : Config) : Machine Ledger Arrival where
  Init := Ledger.Initial config
  step := Ledger.step config

namespace State

/-- The part of a request that waits for the promise. -/
def part? (s : State) (promise : Promise) : Option Part :=
  s.requests[promise.request]?.bind fun request => request.parts[promise.part]?

/-- A request has been made that waits for the promise. -/
def Received (s : State) (promise : Promise) : Prop := (s.part? promise).isSome

def Approved (s : State) (promise : Promise) : Prop := (s.part? promise).any Part.approved

/-- The promises in the messages that the actor has sent itself. -/
def mailbox (s : State) : List Promise := s.selfInbox.flatMap Message.promise

/-! ## Completing promises -/

variable {s : State} {promise other : Promise}

theorem completePromise_eq_self (h : ∀ part, s.part? promise = some part → part.approved) :
    s.completePromise promise = s := by
  rcases completePromise_cases s promise with hsame | ⟨request, part, hrequest, hpart, hnot, _⟩
  · exact hsame
  · have hat : s.part? promise = some part := by
      rw [part?, hrequest]
      exact hpart
    exact absurd (h part hat) hnot

theorem part?_completePromise (s : State) (promise other : Promise) :
    (s.completePromise promise).part? other =
      if other = promise then (s.part? other).map fun part => { part with approved := true }
      else s.part? other := by
  by_cases hdone : ∀ part, s.part? promise = some part → part.approved
  · rw [completePromise_eq_self hdone]
    split
    · rename_i hsame
      cases hpart : s.part? other with
      | none => rfl
      | some part =>
        have happroved : part.approved = true := hdone part (hsame ▸ hpart)
        simp [← happroved]
    · rfl
  push Not at hdone
  obtain ⟨part, hat, hnot⟩ := hdone
  obtain ⟨request, hrequest, hpart⟩ := Option.bind_eq_some_iff.mp hat
  obtain ⟨hlt, _⟩ := List.getElem?_eq_some_iff.mp hrequest
  obtain ⟨hlt', _⟩ := List.getElem?_eq_some_iff.mp hpart
  have hrequests : (s.completePromise promise).requests =
      s.requests.set promise.request (request.approvePart promise.part part) := by
    simp only [completePromise, hrequest, hpart, if_neg hnot]
  rw [part?, part?, hrequests]
  by_cases hsame : promise.request = other.request
  · rw [← hsame, List.getElem?_set_self hlt, hrequest]
    by_cases hparts : promise.part = other.part
    · have hother : other = promise := by
        cases promise
        cases other
        simp_all
      rw [if_pos hother, Option.bind_some, Option.bind_some, ← hparts, hpart]
      exact List.getElem?_set_self hlt'
    · rw [if_neg fun hother : other = promise => hparts (congrArg Promise.part hother.symm)]
      exact List.getElem?_set_ne hparts
  · rw [if_neg fun hother : other = promise => hsame (congrArg Promise.request hother.symm),
      List.getElem?_set_ne hsame]

theorem received_completePromise :
    (s.completePromise promise).Received other ↔ s.Received other := by
  rw [Received, Received, part?_completePromise]
  split <;> simp

theorem approved_completePromise :
    (s.completePromise promise).Approved other ↔
      s.Approved other ∨ other = promise ∧ s.Received other := by
  rw [Approved, Approved, Received, part?_completePromise]
  by_cases hsame : other = promise
  · rw [if_pos hsame]
    cases s.part? other <;> simp [hsame]
  · rw [if_neg hsame]
    simp [hsame]

theorem received_completePromises (promises : List Promise) :
    (s.completePromises promises).Received other ↔ s.Received other := by
  induction promises generalizing s with
  | nil => exact Iff.rfl
  | cons promise promises ih => exact (ih (s := s.completePromise promise)).trans received_completePromise

theorem approved_completePromises (promises : List Promise) :
    (s.completePromises promises).Approved other ↔
      s.Approved other ∨ other ∈ promises ∧ s.Received other := by
  induction promises generalizing s with
  | nil => simp [completePromises]
  | cons promise promises ih =>
    calc (s.completePromises (promise :: promises)).Approved other
        ↔ (s.completePromise promise).Approved other ∨
            other ∈ promises ∧ (s.completePromise promise).Received other := ih
      _ ↔ s.Approved other ∨ other ∈ promise :: promises ∧ s.Received other := by
          rw [approved_completePromise, received_completePromise, List.mem_cons]
          tauto

/-! ## Handling a message -/

/-- What becomes of the promises as the actor handles a message: those at hand and those
blocked before are completed or blocked after. -/
structure Handles (s s' : State) (message : Message) (succeeded : List Promise) : Prop where
  requests : s'.requests = (s.completePromises succeeded).requests
  selfInbox : s'.selfInbox = s.selfInbox
  promises : (succeeded ++ s'.data.blocked).Perm (message.promise ++ s.data.blocked)

variable {config : Config} {message : Message}

@[simp]
theorem selfInbox_completePromise : (s.completePromise promise).selfInbox = s.selfInbox := by
  rcases completePromise_cases s promise with h | ⟨_, _, _, _, _, h⟩ <;> rw [h]

@[simp]
theorem selfInbox_completePromises (promises : List Promise) :
    (s.completePromises promises).selfInbox = s.selfInbox := by
  induction promises generalizing s with
  | nil => rfl
  | cons promise promises ih =>
    exact (ih (s := s.completePromise promise)).trans selfInbox_completePromise

theorem handles_stay (h : message.promise = []) : Handles s s message [] :=
  ⟨rfl, rfl, by rw [h]⟩

theorem handles_completePromise (h : message.promise = [promise]) :
    Handles s (s.completePromise promise) message [promise] where
  requests := rfl
  selfInbox := selfInbox_completePromise
  promises := by rw [h, data_completePromise]

theorem blocked_goToRest (s : State) : (s.goToRest config).data.blocked = [] := by
  unfold goToRest
  split <;> rfl

theorem handles_rest (hdata : s.data = .resting ∨ s.data = .readyForGc) :
    Handles s (s.receive config message) message (s.data.succeeds message) := by
  rcases hdata with hdata | hdata
  · cases message <;> simp only [receive, hdata, receiveResting, Data.succeeds]
    case wakeUp => exact ⟨rfl, rfl, by rw [hdata]; rfl⟩
    all_goals first
      | exact handles_stay rfl
      | exact handles_completePromise rfl
  · cases message <;> simp only [receive, hdata, receiveReadyForGc, Data.succeeds]
    case runGC => exact ⟨rfl, rfl, by rw [hdata]; rfl⟩
    all_goals first
      | exact handles_stay rfl
      | exact handles_completePromise rfl

theorem handles_scanning {updates : UpdatedEntities} (hdata : s.data = .scanning updates) :
    Handles s (s.receive config message) message (s.data.succeeds message) := by
  have hrecord : ∀ promise updates', message.promise = [promise] →
      Handles s { s.completePromise promise with data := .scanning updates' } message [promise] :=
    fun promise updates' h => ⟨rfl, selfInbox_completePromise, by rw [h, hdata]; rfl⟩
  cases message <;> simp only [receive, hdata, receiveScanning, Data.succeeds]
  case scanDone done =>
    split
    · split
      · exact ⟨rfl, rfl, by rw [hdata]; rfl⟩
      · exact ⟨rfl, rfl, by rw [hdata, blocked_goToRest]; rfl⟩
    · exact ⟨rfl, rfl, by rw [hdata]; rfl⟩
  case runGC => exact ⟨rfl, rfl, by rw [hdata]; rfl⟩
  all_goals first
    | exact handles_stay rfl
    | exact hrecord _ _ rfl

theorem handles_compacting {blocked : BlockedEntities} (hdata : s.data = .compacting blocked)
    (hplan : ∀ plan promise, message ≠ .storePlan plan promise) :
    Handles s (s.receive config message) message (s.data.succeeds message) := by
  have hblock : ∀ promise, message.promise = [promise] →
      Handles s { s with data := .compacting (blocked.block promise) } message [] :=
    fun promise h => ⟨rfl, rfl, by rw [h, hdata]; rfl⟩
  have hcheck : ∀ (check : Bool) (promise : Promise), message.promise = [promise] →
      Handles s
        (if check then { s with data := .compacting (blocked.block promise) }
          else s.completePromise promise)
        message (if check then [] else [promise]) := by
    intro check promise h
    cases check with
    | true => exact hblock promise h
    | false => exact handles_completePromise h
  cases message <;> simp only [receive, hdata, receiveCompacting, Data.succeeds]
  case compactDone =>
    split
    · exact ⟨rfl, selfInbox_completePromises _, by rw [hdata]; exact .of_eq (List.append_nil _)⟩
    · exact ⟨rfl, selfInbox_completePromises _, by
        rw [hdata, blocked_goToRest]; exact .of_eq (List.append_nil _)⟩
  case runGC => exact ⟨rfl, rfl, by rw [hdata]; rfl⟩
  case storePlan plan promise => exact absurd rfl (hplan plan promise)
  case storeApp id version promise => exact hcheck _ _ rfl
  case storePod id version promise => exact hcheck _ _ rfl
  case storeRoot root promise => exact hcheck _ _ rfl
  all_goals exact handles_stay rfl

end State

/-! ## The promises of a run -/

/-- The promises completed, at hand, blocked and in the mailbox are those received, each in
one place; a part of a request is approved when its promise is completed. -/
structure Balanced (s : State) (completed atHand : List Promise) : Prop where
  storeRoots : ∀ message ∈ s.selfInbox, ∃ root promise, message = .storeRoot root promise
  nodup : (completed ++ (atHand ++ s.data.blocked) ++ s.mailbox).Nodup
  received : ∀ p, s.Received p ↔ p ∈ completed ++ (atHand ++ s.data.blocked) ++ s.mailbox
  approved : ∀ p, s.Approved p ↔ p ∈ completed

namespace Balanced

variable {s s' : State} {completed succeeded : List Promise} {config : Config} {message : Message}

theorem handles (h : Balanced s completed message.promise)
    (hs : s.Handles s' message succeeded) : Balanced s' (completed ++ succeeded) [] := by
  have hperm : ((completed ++ succeeded) ++ ([] ++ s'.data.blocked) ++ s'.mailbox).Perm
      (completed ++ (message.promise ++ s.data.blocked) ++ s.mailbox) := by
    rw [List.nil_append, List.append_assoc completed, State.mailbox, hs.selfInbox]
    exact (hs.promises.append_left completed).append_right _
  have hpart : ∀ p, s'.part? p = (s.completePromises succeeded).part? p := by
    intro p
    rw [State.part?, hs.requests]
    rfl
  refine ⟨?_, ?_, ?_, ?_⟩
  · rw [hs.selfInbox]
    exact h.storeRoots
  · exact hperm.nodup_iff.mpr h.nodup
  · intro p
    calc s'.Received p ↔ (s.completePromises succeeded).Received p := by
          rw [State.Received, hpart]
          rfl
      _ ↔ s.Received p := State.received_completePromises succeeded
      _ ↔ p ∈ completed ++ (message.promise ++ s.data.blocked) ++ s.mailbox := h.received p
      _ ↔ p ∈ (completed ++ succeeded) ++ ([] ++ s'.data.blocked) ++ s'.mailbox :=
          hperm.mem_iff.symm
  · intro p
    have hgiven : p ∈ succeeded → s.Received p := by
      intro hp
      have hmem : p ∈ message.promise ++ s.data.blocked :=
        hs.promises.subset (List.mem_append_left _ hp)
      exact (h.received p).mpr (List.mem_append_left _ (List.mem_append_right _ hmem))
    calc s'.Approved p ↔ (s.completePromises succeeded).Approved p := by
          rw [State.Approved, hpart]
          rfl
      _ ↔ s.Approved p ∨ p ∈ succeeded ∧ s.Received p := State.approved_completePromises succeeded
      _ ↔ p ∈ completed ∨ p ∈ succeeded := by
          rw [h.approved, and_iff_left_of_imp hgiven]
      _ ↔ p ∈ completed ++ succeeded := List.mem_append.symm

/-- A plan stored while compacting waits for two promises in place of its own. -/
theorem splits {plan : DeploymentPlan} {i : ℕ} {blocked : BlockedEntities}
    (h : Balanced s completed [⟨i, 0⟩]) (hdata : s.data = .compacting blocked)
    (hrequest : s.requests[i]? = some (.make (.plan plan))) :
    Balanced (s.receive config (.storePlan plan ⟨i, 0⟩)) completed [] := by
  have hreceive : s.receive config (.storePlan plan ⟨i, 0⟩) =
      { s.completeWith ⟨i, 0⟩ plan with
        selfInbox := s.selfInbox ++
          [.storeRoot (StoredGroup.ofGroup plan.original) ⟨i, 0⟩,
            .storeRoot (StoredGroup.ofGroup plan.target) ⟨i, 1⟩] } := by
    rw [State.receive, hdata]
    rfl
  rw [hreceive]
  have hother : ∀ p : Promise, p.request ≠ i → (s.completeWith ⟨i, 0⟩ plan).part? p = s.part? p := by
    intro p hp
    rw [State.part?, State.part?, State.completeWith, List.getElem?_modify_ne _ _ hp.symm]
  have hold : ∀ k, s.part? ⟨i, k⟩ = [⟨(Entity.plan plan).roots, false⟩][k]? := by
    intro k
    rw [State.part?, hrequest]
    rfl
  have hnew : ∀ k, (s.completeWith ⟨i, 0⟩ plan).part? ⟨i, k⟩ =
      [⟨[StoredGroup.ofGroup plan.original], false⟩,
        (⟨[StoredGroup.ofGroup plan.target], false⟩ : Part)][k]? := by
    intro k
    rw [State.part?, State.completeWith, List.getElem?_modify_eq, hrequest]
    rfl
  have hreceived : ∀ p, (s.completeWith ⟨i, 0⟩ plan).Received p ↔ p = ⟨i, 1⟩ ∨ s.Received p := by
    rintro ⟨j, k⟩
    rw [State.Received, State.Received]
    by_cases hj : j = i
    · subst hj
      rw [hold, hnew]
      rcases k with _ | _ | k
      · simp
      · simp
      · simp
    · rw [hother ⟨j, k⟩ hj]
      simp [hj]
  have happroved : ∀ p, (s.completeWith ⟨i, 0⟩ plan).Approved p ↔ s.Approved p := by
    rintro ⟨j, k⟩
    rw [State.Approved, State.Approved]
    by_cases hj : j = i
    · subst hj
      rw [hold, hnew]
      rcases k with _ | _ | k
      · rfl
      · rfl
      · rfl
    · rw [hother ⟨j, k⟩ hj]
  -- the second promise is the only new one
  have hfresh : ¬s.Received ⟨i, 1⟩ := by
    rw [State.Received, hold]
    exact Bool.false_ne_true
  have hperm : @List.Perm Promise
      (completed ++ ([] ++ s.data.blocked) ++ (s.mailbox ++ [⟨i, 0⟩, ⟨i, 1⟩]))
      (⟨i, 1⟩ :: (completed ++ ([⟨i, 0⟩] ++ s.data.blocked) ++ s.mailbox)) := by
    rw [List.perm_iff_count]
    intro p
    simp only [List.count_append, List.count_cons, List.count_nil]
    omega
  have hmailbox : List.flatMap Message.promise
      (s.selfInbox ++ [.storeRoot (StoredGroup.ofGroup plan.original) ⟨i, 0⟩,
        .storeRoot (StoredGroup.ofGroup plan.target) ⟨i, 1⟩]) =
      s.mailbox ++ [⟨i, 0⟩, ⟨i, 1⟩] := List.flatMap_append
  refine ⟨?_, ?_, ?_, ?_⟩
  · intro message hmessage
    rcases List.mem_append.mp hmessage with hmessage | hmessage
    · exact h.storeRoots message hmessage
    · rcases List.mem_pair.mp hmessage with rfl | rfl
      · exact ⟨_, _, rfl⟩
      · exact ⟨_, _, rfl⟩
  · rw [State.mailbox, hmailbox]
    exact hperm.nodup_iff.mpr
      (List.nodup_cons.mpr ⟨fun hmem => hfresh ((h.received _).mpr hmem), h.nodup⟩)
  · intro p
    rw [State.mailbox, hmailbox]
    calc (s.completeWith ⟨i, 0⟩ plan).Received p ↔ p = ⟨i, 1⟩ ∨ s.Received p := hreceived p
      _ ↔ p ∈ (⟨i, 1⟩ : Promise) ::
            (completed ++ ([⟨i, 0⟩] ++ s.data.blocked) ++ s.mailbox) := by
          rw [h.received, List.mem_cons]
      _ ↔ p ∈ completed ++ ([] ++ s.data.blocked) ++ (s.mailbox ++ [⟨i, 0⟩, ⟨i, 1⟩]) :=
          hperm.mem_iff.symm
  · intro p
    exact (happroved p).trans (h.approved p)

theorem addRequest (h : Balanced s completed []) (entity : Entity) :
    Balanced { s with requests := s.requests ++ [.make entity] } completed
      [⟨s.requests.length, 0⟩] := by
  have hpart : ∀ p, State.part? { s with requests := s.requests ++ [.make entity] } p =
      if p.request = s.requests.length then [⟨entity.roots, false⟩][p.part]? else s.part? p := by
    intro p
    rw [State.part?, State.part?]
    split
    · rename_i hp
      rw [hp, List.getElem?_concat_length]
      rfl
    · rename_i hp
      rcases Nat.lt_or_gt_of_ne hp with hlt | hgt
      · rw [List.getElem?_append_left hlt]
      · rw [List.getElem?_eq_none (by simp; omega), List.getElem?_eq_none (by omega)]
  have hreceived : ∀ p, State.Received { s with requests := s.requests ++ [.make entity] } p ↔
      p = ⟨s.requests.length, 0⟩ ∨ s.Received p := by
    rintro ⟨j, k⟩
    rw [State.Received, State.Received, hpart]
    by_cases hj : j = s.requests.length
    · subst hj
      cases k with
      | zero => simp
      | succ k => simp [State.part?]
    · simp [hj]
  have hfresh : ¬s.Received ⟨s.requests.length, 0⟩ := by
    simp [State.Received, State.part?]
  have hperm : @List.Perm Promise
      (completed ++ ([⟨s.requests.length, 0⟩] ++ s.data.blocked) ++ s.mailbox)
      (⟨s.requests.length, 0⟩ :: (completed ++ ([] ++ s.data.blocked) ++ s.mailbox)) := by
    rw [List.perm_iff_count]
    intro p
    simp only [List.count_append, List.count_cons, List.count_nil]
    omega
  refine ⟨h.storeRoots, ?_, ?_, ?_⟩
  · exact hperm.nodup_iff.mpr
      (List.nodup_cons.mpr ⟨fun hmem => hfresh ((h.received _).mpr hmem), h.nodup⟩)
  · intro p
    rw [hreceived, h.received]
    exact (List.mem_cons.symm).trans hperm.mem_iff.symm
  · rintro ⟨j, k⟩
    rw [← h.approved, State.Approved, State.Approved, hpart]
    by_cases hj : j = s.requests.length
    · subst hj
      cases k with
      | zero => simp [State.part?]
      | succ k => simp [State.part?]
    · rw [if_neg hj]

theorem takeMessage {rest : List Message} (h : Balanced s completed [])
    (hinbox : s.selfInbox = message :: rest) :
    Balanced { s with selfInbox := rest } completed message.promise := by
  have hmailbox : s.mailbox = message.promise ++ rest.flatMap Message.promise := by
    rw [State.mailbox, hinbox, List.flatMap_cons]
  have hperm : (completed ++ (message.promise ++ s.data.blocked) ++
      rest.flatMap Message.promise).Perm (completed ++ ([] ++ s.data.blocked) ++ s.mailbox) := by
    rw [List.perm_iff_count, hmailbox]
    intro p
    simp only [List.count_append, List.count_nil]
    omega
  refine ⟨?_, hperm.nodup_iff.mpr h.nodup, ?_, h.approved⟩
  · intro m hm
    exact h.storeRoots m (hinbox ▸ List.mem_cons_of_mem _ hm)
  · intro p
    exact (h.received p).trans hperm.mem_iff.symm

theorem receive (h : Balanced s completed message.promise)
    (hplan : ∀ plan promise, message = .storePlan plan promise →
      promise.part = 0 ∧ s.requests[promise.request]? = some (.make (.plan plan))) :
    Balanced (s.receive config message) (completed ++ s.data.succeeds message) [] := by
  cases hdata : s.data with
  | resting => exact h.handles (hdata ▸ State.handles_rest (.inl hdata))
  | readyForGc => exact h.handles (hdata ▸ State.handles_rest (.inr hdata))
  | scanning updates => exact h.handles (hdata ▸ State.handles_scanning hdata)
  | compacting blocked =>
    by_cases hsplit : ∃ plan promise, message = .storePlan plan promise
    · obtain ⟨plan, ⟨i, k⟩, rfl⟩ := hsplit
      obtain ⟨hk, hrequest⟩ := hplan plan ⟨i, k⟩ rfl
      obtain rfl : k = 0 := hk
      rw [Data.succeeds, List.append_nil]
      exact h.splits hdata hrequest
    · push Not at hsplit
      exact h.handles (hdata ▸ State.handles_compacting hdata hsplit)

end Balanced

namespace Ledger

variable {config : Config} {l l' : Ledger} {e : Arrival}

theorem balanced_init (h : l.Initial config) : Balanced l.state l.completed [] := by
  obtain ⟨⟨hdata, hinbox, _, hrequests, _⟩, hcompleted⟩ := h
  have hblocked : l.state.data.blocked = [] := by
    rw [hdata]
    split <;> rfl
  have hmailbox : l.state.mailbox = [] := by rw [State.mailbox, hinbox, List.flatMap_nil]
  refine ⟨?_, ?_, ?_, ?_⟩
  · rw [hinbox]
    exact fun _ hm => absurd hm List.not_mem_nil
  · rw [hcompleted, hblocked, hmailbox]
    exact List.nodup_nil
  · intro p
    rw [hcompleted, hblocked, hmailbox]
    simp [State.Received, State.part?, hrequests]
  · intro p
    rw [hcompleted]
    simp [State.Approved, State.part?, hrequests]

theorem balanced_handle {message : Message} (h : Balanced l.state l.completed [])
    (hnone : message.promise = []) :
    Balanced (l.handle config message).state (l.handle config message).completed [] := by
  rw [← hnone] at h
  apply h.receive
  rintro plan promise rfl
  cases hnone

theorem balanced_step (h : Balanced l.state l.completed []) (hs : step config l e = some l') :
    Balanced l'.state l'.completed [] := by
  cases e with
  | request entity =>
    cases hs
    have hadd := h.addRequest entity
    have hpromise : (entity.message ⟨l.state.requests.length, 0⟩).promise =
        [⟨l.state.requests.length, 0⟩] := by
      cases entity with
      | runSpec kind => cases kind <;> rfl
      | root => rfl
      | plan => rfl
    rw [← hpromise] at hadd
    apply hadd.receive
    intro plan promise hmessage
    cases entity with
    | runSpec kind => cases kind <;> cases hmessage
    | root => cases hmessage
    | plan => cases hmessage; exact ⟨rfl, List.getElem?_concat_length⟩
  | deliver =>
    simp only [step] at hs
    cases hinbox : l.state.selfInbox with
    | nil => simp [hinbox] at hs
    | cons message rest =>
      rw [hinbox] at hs
      cases hs
      obtain ⟨root, promise, rfl⟩ := h.storeRoots message (hinbox ▸ List.mem_cons_self)
      exact (h.takeMessage hinbox).receive fun _ _ hmessage => nomatch hmessage
  | runGC =>
    cases hs
    exact balanced_handle h rfl
  | wakeUp =>
    cases hs
    exact balanced_handle h rfl
  | scanDone done =>
    cases hs
    exact balanced_handle h rfl
  | compactDone =>
    cases hs
    exact balanced_handle h rfl

theorem balanced (h : (ledger config).Reachable l) : Balanced l.state l.completed [] :=
  h.invariant (I := fun l => Balanced l.state l.completed []) (fun _ => balanced_init)
    fun _ _ _ hb _ => balanced_step hb

theorem blocked_subset_receive {s : State} {message : Message} (h : message ≠ .compactDone) :
    s.data.blocked ⊆ (s.receive config message).data.blocked := by
  cases hdata : s.data with
  | resting => exact List.nil_subset _
  | readyForGc => exact List.nil_subset _
  | scanning updates => exact List.nil_subset _
  | compacting blocked =>
    have hblock : ∀ (check : Bool) (promise : Promise), blocked.promises ⊆
        (if check then { s with data := .compacting (blocked.block promise) }
          else s.completePromise promise).data.blocked := by
      intro check promise
      cases check with
      | true => exact List.subset_cons_self _ _
      | false =>
        rw [if_neg Bool.false_ne_true, State.data_completePromise, hdata]
        exact List.Subset.refl _
    have hstay : (Data.compacting blocked).blocked ⊆ s.data.blocked := by
      rw [hdata]
      exact List.Subset.refl _
    rw [State.receive, hdata]
    cases message with
    | compactDone => exact absurd rfl h
    | runGC => exact List.Subset.refl _
    | wakeUp => exact hstay
    | scanDone done => exact hstay
    | storeApp appId version promise => exact hblock _ promise
    | storePod podId version promise => exact hblock _ promise
    | storeRoot root promise => exact hblock _ promise
    | storePlan plan promise => exact hstay

theorem blocked_subset_step (hbalanced : Balanced l.state l.completed []) (hne : e ≠ .compactDone)
    (hs : step config l e = some l') : l.state.data.blocked ⊆ l'.state.data.blocked := by
  cases e with
  | compactDone => exact absurd rfl hne
  | request entity =>
    cases hs
    have hmessage : entity.message ⟨l.state.requests.length, 0⟩ ≠ .compactDone := by
      cases entity with
      | runSpec kind => cases kind <;> exact Message.noConfusion
      | root => exact Message.noConfusion
      | plan => exact Message.noConfusion
    exact blocked_subset_receive (s := { l.state with requests := l.state.requests ++ [.make entity] })
      hmessage
  | deliver =>
    simp only [step] at hs
    cases hinbox : l.state.selfInbox with
    | nil => simp [hinbox] at hs
    | cons message rest =>
      rw [hinbox] at hs
      cases hs
      obtain ⟨root, promise, rfl⟩ := hbalanced.storeRoots message (hinbox ▸ List.mem_cons_self)
      have hmessage : Message.storeRoot root promise ≠ .compactDone := Message.noConfusion
      exact blocked_subset_receive (s := { l.state with selfInbox := rest }) hmessage
  | runGC =>
    cases hs
    exact blocked_subset_receive fun h : Message.runGC = .compactDone => nomatch h
  | wakeUp =>
    cases hs
    exact blocked_subset_receive fun h : Message.wakeUp = .compactDone => nomatch h
  | scanDone done =>
    cases hs
    exact blocked_subset_receive fun h : Message.scanDone done = .compactDone => nomatch h

theorem blocked_subset_run (h : (ledger config).Reachable l)
    (hrun : ((ledger config).startingAt l).ReachableIf (fun _ e => e ≠ .compactDone) l') :
    l.state.data.blocked ⊆ l'.state.data.blocked := by
  induction hrun with
  | init heq =>
    obtain rfl := heq
    exact List.Subset.refl _
  | step hr hok hs ih =>
    exact List.Subset.trans ih (blocked_subset_step (balanced (h.trans hr.reachable)) hok hs)

theorem compactDone_spec (hs : step config l .compactDone = some l') :
    l.state.data.blocked ⊆ l'.completed ∧ l'.state.data.blocked = [] := by
  cases hs
  cases hdata : l.state.data with
  | resting => simp [handle, State.receive, State.receiveResting, hdata, Data.blocked]
  | readyForGc => simp [handle, State.receive, State.receiveReadyForGc, hdata, Data.blocked]
  | scanning updates => simp [handle, State.receive, State.receiveScanning, hdata, Data.blocked]
  | compacting blocked =>
    refine ⟨?_, ?_⟩
    · rw [handle, hdata]
      exact List.subset_append_right _ _
    · simp only [handle, State.receive, hdata, State.receiveCompacting]
      split
      · rfl
      · exact State.blocked_goToRest _

/-- In every state reached each promise received has been completed, is blocked or is the one
of a self-sent `StoreRoot`, and is so only once; a request is approved when its promises have
been completed; and what is blocked is completed by the next `CompactDone`. -/
theorem approvals_granted (config : Config) {l : Ledger} (h : (ledger config).Reachable l) :
    (∀ p, l.state.Received p → p ∈ l.completed ∨ p ∈ l.state.data.blocked ∨
      ∃ root, .storeRoot root p ∈ l.state.selfInbox) ∧
    (l.completed ++ l.state.data.blocked ++ l.state.mailbox).Nodup ∧
    (∀ i request, l.state.requests[i]? = some request →
      (request.approved ↔ ∀ k < request.parts.length, ⟨i, k⟩ ∈ l.completed)) ∧
    ∀ l₁ l₂, ((ledger config).startingAt l).ReachableIf (fun _ e => e ≠ .compactDone) l₁ →
      (ledger config).step l₁ .compactDone = some l₂ →
      l.state.data.blocked ⊆ l₂.completed ∧ l₂.state.data.blocked = [] := by
  have hb := balanced h
  refine ⟨?_, hb.nodup, ?_, ?_⟩
  · intro p hp
    rcases List.mem_append.mp ((hb.received p).mp hp) with hp | hp
    · exact (List.mem_append.mp hp).imp_right .inl
    · obtain ⟨message, hmessage, hpromise⟩ := List.mem_flatMap.mp hp
      obtain ⟨root, promise, rfl⟩ := hb.storeRoots message hmessage
      obtain rfl := List.mem_singleton.mp hpromise
      exact .inr (.inr ⟨root, hmessage⟩)
  · intro i request hrequest
    have hpart : ∀ k, l.state.part? ⟨i, k⟩ = request.parts[k]? := by
      intro k
      rw [State.part?, hrequest]
      rfl
    calc request.approved ↔ ∀ k, ∀ hk : k < request.parts.length, request.parts[k].approved := by
          rw [Request.approved, List.all_eq_true]
          exact List.forall_mem_iff_getElem
      _ ↔ ∀ k < request.parts.length, ⟨i, k⟩ ∈ l.completed := by
          apply forall_congr'
          intro k
          apply forall_congr'
          intro hk
          rw [← hb.approved, State.Approved, hpart, List.getElem?_eq_getElem hk]
          rfl
  · intro l₁ l₂ hrun hdone
    obtain ⟨hcompleted, hnone⟩ := compactDone_spec hdone
    exact ⟨List.Subset.trans (blocked_subset_run h hrun) hcompleted, hnone⟩

/-- A root is stored during a scan that proposes to delete the first root; a plan that needs
this root is stored during the compaction, and its first half blocked. -/
def halfBlocked : List Arrival :=
  [.runGC, .request (.root (Group.empty .root none ⟨4⟩) true), .scanDone ⟨∅, ∅, ∅, ∅, {⟨1⟩}⟩,
    .request (.plan ⟨"rollback", Group.empty .root none ⟨1⟩, Group.empty .root none ⟨3⟩, ⟨3⟩⟩),
    .deliver]

theorem halfBlocked_granted :
    ∃ l, (ledger Store.twoVersions).run ⟨State.started State.spareStore, []⟩ halfBlocked = some l ∧
      l.completed = [⟨0, 0⟩] ∧ l.state.data.blocked = [⟨1, 0⟩] ∧ l.state.mailbox = [⟨1, 1⟩] ∧
      (l.completed ++ l.state.data.blocked ++ l.state.mailbox).Nodup := by
  have hrun : ((ledger Store.twoVersions).run ⟨State.started State.spareStore, []⟩ halfBlocked).any
      (fun l => decide (l.completed = [⟨0, 0⟩] ∧ l.state.data.blocked = [⟨1, 0⟩] ∧
        l.state.mailbox = [⟨1, 1⟩])) = true := by
    decide +kernel
  obtain ⟨l, hl, htest⟩ := Machine.exists_of_any hrun
  obtain ⟨hcompleted, hblocked, hmailbox⟩ := of_decide_eq_true htest
  have hinit : (ledger Store.twoVersions).Reachable ⟨State.started State.spareStore, []⟩ :=
    .init ⟨State.initial_started State.spareStore, rfl⟩
  refine ⟨l, hl, hcompleted, hblocked, hmailbox, ?_⟩
  exact (approvals_granted Store.twoVersions (Machine.reachableIf_of_runIf _ hinit hl)).2.1

end Ledger

end Marathon.Storage.GcActor
