import Marathon.Election.ElectionService
import Mathlib.Tactic.SplitIfs

/-!
# Leadership without a connection

What the callbacks offer and what the loops read go into one queue. So a loop that has read the
participants before the connection was lost may still say that this instance is the leader. As long
as none does, `ElectedAsLeader` is not enqueued without a connection. The calls of the candidate are
made in turns in any case.
-/

namespace Marathon.Election

open Lib

variable {hostPort : String}

/-! ## What is enqueued -/

variable {state : LeadershipState} {emitted : List LeadershipState} {stopped success : Bool}
  {getParticipants : Option (List Participant)} {history : List CallHappening}

namespace CuratorElectionStream

/-- The participants show this instance as the leader. -/
def showsLeader (hostPort : String) (participants : List Participant) : Prop :=
  (participants.find? (·.isLeader)).map (·.id) = some hostPort

theorem nextState_eq_iff {participants : List Participant} :
    nextState hostPort participants = .electedAsLeader ↔ showsLeader hostPort participants := by
  unfold nextState showsLeader
  cases (participants.find? (·.isLeader)).map (·.id) with
  | none => simp
  | some leader => simp

theorem quiet_enqueued {history : List Happening} (h : Quiet history)
    (hstate : state = .electedAsLeader → disconnected history = false) :
    Quiet (.enqueued state :: history) := by
  cases state with
  | electedAsLeader => exact ⟨hstate rfl, h⟩
  | standby currentLeader => exact h

/-- What a loop is about to offer is from before the loss, if it should not be offered. -/
structure Reliable (hostPort : String) (s : CuratorElectionStream) : Prop where
  quiet : Quiet s.history
  fresh : ∀ loopId participants, s.loop = some (.offering loopId participants) →
    showsLeader hostPort participants → disconnected s.history → lostSinceRead s.history

variable {s s' : CuratorElectionStream}

theorem reliable_start : start.Reliable hostPort := ⟨trivial, nofun⟩

theorem Reliable.of_loop (h : s.Reliable hostPort) (hhistory : s'.history = s.history)
    (hloop : ∀ loopId participants, s'.loop = some (.offering loopId participants) →
      s.loop = some (.offering loopId participants)) : s'.Reliable hostPort where
  quiet := hhistory ▸ h.quiet
  fresh loopId participants hoffering :=
    hhistory ▸ h.fresh loopId participants (hloop loopId participants hoffering)

theorem Reliable.happening (h : s.Reliable hostPort) {happening : Happening}
    (hhistory : s'.history = happening :: s.history)
    (hhappening : happening = .connectionLost ∨ happening = .reconnected) :
    s'.Reliable hostPort where
  quiet := by
    rw [hhistory]
    obtain rfl | rfl := hhappening <;> exact h.quiet
  fresh _ _ _ _ hdisconnected := by
    rw [hhistory] at hdisconnected ⊢
    obtain rfl | rfl := hhappening
    · rfl
    · cases hdisconnected

theorem Reliable.offer (h : s.Reliable hostPort)
    (hstate : state = .electedAsLeader → disconnected s.history = false) :
    (s.offer state).Reliable hostPort := by
  unfold CuratorElectionStream.offer
  split
  · exact ⟨quiet_enqueued h.quiet hstate, h.fresh⟩
  · exact h

theorem history_fail (s : CuratorElectionStream) : s.fail.history = s.history := by
  unfold fail
  split_ifs <;> rfl

theorem loop_fail (s : CuratorElectionStream) : s.fail.loop = s.loop := by
  unfold fail
  split_ifs <;> rfl

theorem Reliable.fail (h : s.Reliable hostPort) : s.fail.Reliable hostPort :=
  h.of_loop (history_fail s) fun _ _ hoffering => loop_fail s ▸ hoffering

theorem Reliable.complete (h : s.Reliable hostPort) : s.complete.Reliable hostPort := by
  unfold CuratorElectionStream.complete
  split_ifs
  · exact h.of_loop rfl fun _ _ => id
  · exact h

theorem Reliable.pull (h : s.Reliable hostPort)
    (hs : s.pull = some (emitted, s')) : s'.Reliable hostPort := by
  obtain ⟨⟨state, t⟩, hnext, heq⟩ := Option.map_eq_some_iff.mp hs
  have ht : t.Reliable hostPort := by
    unfold next at hnext
    split at hnext
    all_goals cases hnext
    all_goals exact h.of_loop rfl fun _ _ => id
  cases heq
  exact ht.of_loop rfl fun _ _ => id

theorem Reliable.checkLoopId (h : s.Reliable hostPort) (hs : s.checkLoopId = some s') :
    s'.Reliable hostPort := by
  unfold CuratorElectionStream.checkLoopId at hs
  split at hs
  · split_ifs at hs
    · cases hs
      exact h.of_loop rfl nofun
    · cases hs
      exact h.of_loop rfl fun _ _ => id
  · cases hs

theorem Reliable.registerWatch (h : s.Reliable hostPort) {result : WatchResult}
    (hs : s.registerWatch result = some s') : s'.Reliable hostPort := by
  have hstopped : ({ s with loop := none } : CuratorElectionStream).Reliable hostPort :=
    h.of_loop rfl nofun
  unfold CuratorElectionStream.registerWatch at hs
  split at hs
  · cases result with
    | registered =>
      cases hs
      exact h.of_loop rfl nofun
    | noNode =>
      simp only at hs
      split_ifs at hs
      · cases hs
        exact h.of_loop rfl nofun
      · cases hs
        exact hstopped.fail
    | connectionLoss =>
      cases hs
      exact hstopped
    | failed =>
      cases hs
      exact hstopped.fail
  · cases hs

theorem Reliable.readParticipants (h : s.Reliable hostPort)
    (hok : disconnected s.history →
      ¬ showsLeader hostPort (if stopped then [] else getParticipants.getD []))
    (hs : s.readParticipants stopped getParticipants = some s') : s'.Reliable hostPort := by
  unfold CuratorElectionStream.readParticipants at hs
  split at hs
  · cases hs
    refine ⟨h.quiet, fun loopId participants hoffering hshows hdisconnected => ?_⟩
    cases Option.some.inj hoffering
    exact absurd hshows (hok hdisconnected)
  · cases hs

theorem Reliable.offerState (h : s.Reliable hostPort)
    (hok : ∀ loopId participants, s.loop = some (.offering loopId participants) →
      showsLeader hostPort participants → lostSinceRead s.history = false)
    (hs : s.offerState hostPort = some s') : s'.Reliable hostPort := by
  have hstopped : ({ s with loop := none } : CuratorElectionStream).Reliable hostPort :=
    h.of_loop rfl nofun
  unfold CuratorElectionStream.offerState at hs
  split at hs
  · rename_i loopId participants hloop
    simp only at hs
    split_ifs at hs
    · cases hs
      exact hstopped.fail
    · cases hs
      refine hstopped.offer fun hnext => ?_
      have hshows := nextState_eq_iff.mp hnext
      have hfresh := h.fresh loopId participants hloop hshows
      rw [hok loopId participants hloop hshows] at hfresh
      exact Bool.eq_false_iff.mpr fun hdisconnected => Bool.false_ne_true (hfresh hdisconnected)
  · cases hs

theorem Reliable.watchEvent (h : s.Reliable hostPort) {loopId : ℕ} {type : EventType}
    (hs : s.watchEvent loopId type = some s') : s'.Reliable hostPort := by
  unfold CuratorElectionStream.watchEvent at hs
  split_ifs at hs
  · cases hs
    exact h
  · cases hs
    exact h.of_loop rfl fun _ _ => id

theorem Reliable.stateChanged (h : s.Reliable hostPort) {state : ConnectionState}
    (hs : s.stateChanged state = some s') : s'.Reliable hostPort := by
  have hlost : ({ s with history := .connectionLost :: s.history } : CuratorElectionStream).Reliable
      hostPort := h.happening rfl (.inl rfl)
  have hreconnected : ({ s with history := .reconnected :: s.history } :
      CuratorElectionStream).Reliable hostPort := h.happening rfl (.inr rfl)
  obtain ⟨-, heq⟩ := Option.ite_none_right_eq_some.mp hs
  cases state with
  | reconnected =>
    simp only at heq
    split_ifs at heq
    · cases heq
      exact hreconnected
    · cases heq
      exact hreconnected.of_loop rfl fun _ _ => id
  | suspended =>
    cases heq
    exact hlost.offer nofun
  | lost =>
    cases heq
    exact hlost.offer nofun
  | connected =>
    cases heq
    exact h
  | readOnly =>
    cases heq
    exact h

theorem Reliable.queueCompleted (h : s.Reliable hostPort) (hs : s.queueCompleted = some s') :
    s'.Reliable hostPort := by
  obtain ⟨-, heq⟩ := Option.ite_none_right_eq_some.mp hs
  cases heq
  exact h.of_loop rfl fun _ _ => id

end CuratorElectionStream

/-! ## The calls of the candidate -/

namespace ElectionServiceImpl

/-- The calls are made in turns, and what was handled is what calls that have completed are followed
by, in their order. -/
structure Orderly (streamFailed : Prop) (s : ElectionServiceImpl) : Prop where
  alternates : Alternates (!s.lastBecameLeader) s.inFlight s.history
  ready : s.leaderAndReady = decide (lastHandled s.history = some .electedAsLeaderAndReady)
  handled : handledTransitions s.history <:+ completedTransitions s.history
  accounted : ¬ streamFailed →
    s.transitions.reverse ++ handledTransitions s.history = completedTransitions s.history

variable {streamFailed streamFailed' : Prop} {s s' : ElectionServiceImpl}

theorem orderly_new : new.Orderly streamFailed := ⟨.nil, rfl, List.suffix_refl _, fun _ => rfl⟩

theorem Orderly.mono (h : s.Orderly streamFailed) (himp : streamFailed → streamFailed') :
    s.Orderly streamFailed' :=
  ⟨h.alternates, h.ready, h.handled, fun hnot => h.accounted fun hfailed => hnot (himp hfailed)⟩

/-- A call is made when what is received differs from what was received last. -/
theorem Orderly.receive (h : s.Orderly streamFailed) (hidle : s.inFlight = none)
    (event : LeadershipState) : (s.receive event).Orderly streamFailed := by
  have halternates := h.alternates
  rw [hidle] at halternates
  have hcall : ∀ becameLeader, s.lastBecameLeader ≠ becameLeader →
      Orderly streamFailed
        (call { s with lastState := event, lastBecameLeader := becameLeader } becameLeader) := by
    intro becameLeader hne
    have hnext : (!s.lastBecameLeader) = becameLeader := by
      revert hne
      cases s.lastBecameLeader <;> cases becameLeader <;> simp
    rw [hnext] at halternates
    exact ⟨halternates.called, h.ready, h.handled, h.accounted⟩
  have hsame : Orderly streamFailed
      { s with lastState := event, lastBecameLeader := s.lastBecameLeader } :=
    ⟨h.alternates, h.ready, h.handled, h.accounted⟩
  unfold ElectionServiceImpl.receive dedup
  cases event with
  | electedAsLeader =>
    simp only
    split_ifs with heq
    · exact hsame
    · exact hcall true heq
  | standby currentLeader =>
    simp only
    split_ifs with heq
    · exact hsame
    · exact hcall false heq

theorem completedTransitions_ended (becameLeader success : Bool) (history : List CallHappening) :
    completedTransitions (.ended becameLeader success :: history) =
      if success then transitionOf becameLeader :: completedTransitions history
      else completedTransitions history := by
  cases success <;> rfl

theorem Orderly.callEnded (h : s.Orderly streamFailed) {failed : Bool}
    (hfailed : failed = true → streamFailed) (hs : s.callEnded success failed = some s') :
    s'.Orderly streamFailed := by
  obtain ⟨becameLeader, hinFlight, rfl⟩ := Option.map_eq_some_iff.mp hs
  have halternates := h.alternates
  rw [hinFlight] at halternates
  have hhandled : handledTransitions (.ended becameLeader success :: s.history) =
      handledTransitions s.history := rfl
  refine ⟨halternates.ended, h.ready, ?_, fun hstream => ?_⟩
  · simp only
    rw [hhandled, completedTransitions_ended]
    split_ifs
    · exact h.handled.trans (List.suffix_cons _ _)
    · exact h.handled
  · have hnot : ¬ failed = true := fun hf => hstream (hfailed hf)
    simp only
    rw [hhandled, completedTransitions_ended, ← h.accounted hstream]
    cases success with
    | true => simp [hnot]
    | false => simp

theorem Orderly.handle (h : s.Orderly streamFailed) (hstream : ¬ streamFailed)
    (hs : s.handle = some s') : s'.Orderly streamFailed := by
  have haccounted := h.accounted hstream
  unfold ElectionServiceImpl.handle at hs
  cases htransitions : s.transitions with
  | nil =>
    rw [htransitions] at hs
    cases hs
  | cons transition transitions =>
    rw [htransitions] at hs haccounted
    cases hs
    have hhandled : handledTransitions (.handled transition :: s.history) =
        transition :: handledTransitions s.history := rfl
    have hcompleted : completedTransitions (.handled transition :: s.history) =
        completedTransitions s.history := rfl
    have heq : transitions.reverse ++ transition :: handledTransitions s.history =
        completedTransitions s.history := by
      rw [← haccounted]
      simp
    refine ⟨h.alternates.handled, ?_, ?_, fun _ => ?_⟩
    · cases transition <;> rfl
    · simp only
      rw [hhandled, hcompleted, ← heq]
      exact List.suffix_append _ _
    · simp only
      rw [hhandled, hcompleted, heq]

theorem mem_handledTransitions_of_lastHandled
    {transition : LeadershipTransition} (h : lastHandled history = some transition) :
    transition ∈ handledTransitions history := by
  induction history with
  | nil => cases h
  | cons happening history ih =>
    cases happening with
    | handled transition' =>
      cases h
      exact List.mem_cons_self
    | called becameLeader => exact ih h
    | ended becameLeader success => exact ih h

theorem ended_mem_of_completedTransitions
    (h : .electedAsLeaderAndReady ∈ completedTransitions history) : .ended true true ∈ history := by
  obtain ⟨happening, hmem, hsome⟩ := List.mem_filterMap.mp h
  cases happening with
  | called becameLeader => cases hsome
  | handled transition => cases hsome
  | ended becameLeader success =>
    cases success with
    | false => cases hsome
    | true =>
      cases becameLeader with
      | false => cases hsome
      | true => exact hmem

theorem Orderly.ended_mem (h : s.Orderly streamFailed) (hleader : s.isLeader = true) :
    .ended true true ∈ s.history := by
  rw [isLeader, h.ready] at hleader
  have hlast := mem_handledTransitions_of_lastHandled (of_decide_eq_true hleader)
  exact ended_mem_of_completedTransitions (h.handled.subset hlast)

end ElectionServiceImpl

/-! ## The stream and the service -/

namespace CuratorElectionStream

variable {s s' : CuratorElectionStream}

theorem phase_offer (s : CuratorElectionStream) (state : LeadershipState) :
    (s.offer state).phase = s.phase := by
  unfold offer
  split <;> rfl

theorem failed_fail (h : s.phase = .failed) : s.fail.phase = .failed := by
  unfold fail
  split_ifs
  · exact h
  · rfl

theorem failed_stateChanged {state : ConnectionState} (h : s.phase = .failed)
    (hs : s.stateChanged state = some s') : s'.phase = .failed := by
  obtain ⟨-, heq⟩ := Option.ite_none_right_eq_some.mp hs
  cases state with
  | reconnected =>
    simp only at heq
    split_ifs at heq <;> cases heq <;> exact h
  | suspended =>
    cases heq
    exact (phase_offer _ _).trans h
  | lost =>
    cases heq
    exact (phase_offer _ _).trans h
  | connected =>
    cases heq
    exact h
  | readOnly =>
    cases heq
    exact h

theorem failed_watchEvent {loopId : ℕ} {type : EventType} (h : s.phase = .failed)
    (hs : s.watchEvent loopId type = some s') : s'.phase = .failed := by
  unfold watchEvent at hs
  split_ifs at hs <;> cases hs <;> exact h

theorem failed_checkLoopId (h : s.phase = .failed) (hs : s.checkLoopId = some s') :
    s'.phase = .failed := by
  unfold checkLoopId at hs
  split at hs
  · split_ifs at hs <;> cases hs <;> exact h
  · cases hs

theorem failed_registerWatch {result : WatchResult} (h : s.phase = .failed)
    (hs : s.registerWatch result = some s') : s'.phase = .failed := by
  unfold registerWatch at hs
  split at hs
  · cases result with
    | registered =>
      cases hs
      exact h
    | noNode =>
      simp only at hs
      split_ifs at hs
      · cases hs
        exact h
      · cases hs
        exact failed_fail h
    | connectionLoss =>
      cases hs
      exact h
    | failed =>
      cases hs
      exact failed_fail h
  · cases hs

theorem failed_readParticipants
    (h : s.phase = .failed) (hs : s.readParticipants stopped getParticipants = some s') :
    s'.phase = .failed := by
  unfold readParticipants at hs
  split at hs
  · cases hs
    exact h
  · cases hs

theorem failed_offerState (h : s.phase = .failed) (hs : s.offerState hostPort = some s') :
    s'.phase = .failed := by
  unfold offerState at hs
  split at hs
  · simp only at hs
    split_ifs at hs
    · cases hs
      exact failed_fail h
    · cases hs
      exact (phase_offer _ _).trans h
  · cases hs

theorem failed_complete (h : s.phase = .failed) : s.complete.phase = .failed := by
  unfold complete
  split_ifs
  · rename_i hrunning
    cases h.symm.trans hrunning
  · exact h

theorem failed_queueCompleted (h : s.phase = .failed) (hs : s.queueCompleted = some s') :
    s'.phase = .failed := by
  obtain ⟨-, heq⟩ := Option.ite_none_right_eq_some.mp hs
  cases heq
  exact h

theorem phase_pull (hs : s.pull = some (emitted, s')) :
    s.phase ≠ .failed ∧ s'.phase ≠ .failed ∧ emitted.length ≤ 1 := by
  obtain ⟨⟨state, t⟩, hnext, heq⟩ := Option.map_eq_some_iff.mp hs
  cases heq
  have hphase : s.phase ≠ .failed ∧ t.phase ≠ .failed := by
    unfold next at hnext
    split at hnext <;> cases hnext <;> simp_all
  refine ⟨hphase.1, hphase.2, ?_⟩
  show (dedup t.lastElement state).2.length ≤ 1
  unfold dedup
  split_ifs <;> simp

end CuratorElectionStream

namespace Candidacy

open CuratorElectionStream

/-- No loop offers that this instance is the leader if the connection has been lost since it read the
participants, and nothing that is read without a connection shows this instance as the leader. -/
def Undisturbed (hostPort : String) (s : Candidacy) : Event → Prop
  | .readParticipants stopped getParticipants => disconnected s.stream.history →
    ¬ showsLeader hostPort (if stopped then [] else getParticipants.getD [])
  | .offerState => ∀ loopId participants,
    s.stream.loop = some (.offering loopId participants) → showsLeader hostPort participants →
      lostSinceRead s.stream.history = false
  | _ => True

/-- The invariant of the service, whatever the stream enqueues. -/
def Orderly (s : Candidacy) : Prop := s.service.Orderly (s.stream.phase = .failed)

variable {s s' : Candidacy}

theorem orderly_stream (h : s.Orderly) {stream : CuratorElectionStream}
    (hfailed : s.stream.phase = .failed → stream.phase = .failed) :
    Orderly { s with stream := stream } := h.mono hfailed

theorem orderly_pull (h : s.Orderly) (hs : s.pull = some s') : s'.Orderly := by
  obtain ⟨hidle, heq⟩ := Option.ite_none_right_eq_some.mp hs
  obtain ⟨⟨emitted, stream⟩, hpull, rfl⟩ := Option.map_eq_some_iff.mp heq
  obtain ⟨hnot, -, hlength⟩ := phase_pull hpull
  have hsame : s.service.Orderly (stream.phase = .failed) := h.mono fun hf => absurd hf hnot
  match emitted, hlength with
  | [], _ => exact hsame
  | [event], _ => exact hsame.receive hidle event

theorem orderly_callEnded (h : s.Orderly) (hs : s.callEnded success = some s') : s'.Orderly := by
  obtain ⟨service, hservice, rfl⟩ := Option.map_eq_some_iff.mp hs
  have hended := ElectionServiceImpl.Orderly.callEnded h of_decide_eq_true hservice
  cases success with
  | true => exact hended
  | false => exact hended.mono failed_fail

theorem orderly_step {e : Event} (h : s.Orderly) (hs : s.step hostPort e = some s') :
    s'.Orderly := by
  cases e with
  | stateChanged state =>
    obtain ⟨stream, hstream, rfl⟩ := Option.map_eq_some_iff.mp hs
    exact orderly_stream h fun hf => failed_stateChanged hf hstream
  | watchEvent loopId type =>
    obtain ⟨stream, hstream, rfl⟩ := Option.map_eq_some_iff.mp hs
    exact orderly_stream h fun hf => failed_watchEvent hf hstream
  | checkLoopId =>
    obtain ⟨stream, hstream, rfl⟩ := Option.map_eq_some_iff.mp hs
    exact orderly_stream h fun hf => failed_checkLoopId hf hstream
  | registerWatch result =>
    obtain ⟨stream, hstream, rfl⟩ := Option.map_eq_some_iff.mp hs
    exact orderly_stream h fun hf => failed_registerWatch hf hstream
  | readParticipants stopped getParticipants =>
    obtain ⟨stream, hstream, rfl⟩ := Option.map_eq_some_iff.mp hs
    exact orderly_stream h fun hf => failed_readParticipants hf hstream
  | offerState =>
    obtain ⟨stream, hstream, rfl⟩ := Option.map_eq_some_iff.mp hs
    exact orderly_stream h fun hf => failed_offerState hf hstream
  | close =>
    cases hs
    exact orderly_stream h failed_complete
  | queueCompleted =>
    obtain ⟨stream, hstream, rfl⟩ := Option.map_eq_some_iff.mp hs
    exact orderly_stream h fun hf => failed_queueCompleted hf hstream
  | fail =>
    cases hs
    exact orderly_stream h failed_fail
  | pull => exact orderly_pull h hs
  | callEnded success => exact orderly_callEnded h hs
  | handle =>
    obtain ⟨hstream, heq⟩ := Option.ite_none_left_eq_some.mp hs
    obtain ⟨service, hservice, rfl⟩ := Option.map_eq_some_iff.mp heq
    exact ElectionServiceImpl.Orderly.handle h hstream hservice

theorem reliable_step {e : Event} (h : s.stream.Reliable hostPort) (hok : s.Undisturbed hostPort e)
    (hs : s.step hostPort e = some s') : s'.stream.Reliable hostPort := by
  cases e with
  | stateChanged state =>
    obtain ⟨stream, hstream, rfl⟩ := Option.map_eq_some_iff.mp hs
    exact h.stateChanged hstream
  | watchEvent loopId type =>
    obtain ⟨stream, hstream, rfl⟩ := Option.map_eq_some_iff.mp hs
    exact h.watchEvent hstream
  | checkLoopId =>
    obtain ⟨stream, hstream, rfl⟩ := Option.map_eq_some_iff.mp hs
    exact h.checkLoopId hstream
  | registerWatch result =>
    obtain ⟨stream, hstream, rfl⟩ := Option.map_eq_some_iff.mp hs
    exact h.registerWatch hstream
  | readParticipants stopped getParticipants =>
    obtain ⟨stream, hstream, rfl⟩ := Option.map_eq_some_iff.mp hs
    exact h.readParticipants hok hstream
  | offerState =>
    obtain ⟨stream, hstream, rfl⟩ := Option.map_eq_some_iff.mp hs
    exact h.offerState hok hstream
  | close =>
    cases hs
    exact h.complete
  | queueCompleted =>
    obtain ⟨stream, hstream, rfl⟩ := Option.map_eq_some_iff.mp hs
    exact h.queueCompleted hstream
  | fail =>
    cases hs
    exact h.fail
  | pull =>
    obtain ⟨-, heq⟩ := Option.ite_none_right_eq_some.mp hs
    obtain ⟨⟨emitted, stream⟩, hpull, rfl⟩ := Option.map_eq_some_iff.mp heq
    exact h.pull hpull
  | callEnded success =>
    obtain ⟨service, -, rfl⟩ := Option.map_eq_some_iff.mp hs
    cases success with
    | true => exact h
    | false => exact h.fail
  | handle =>
    obtain ⟨-, heq⟩ := Option.ite_none_left_eq_some.mp hs
    obtain ⟨service, -, rfl⟩ := Option.map_eq_some_iff.mp heq
    exact h

/-! ### Runs -/

/-- This instance is not said to lead while it has no connection; the leadership is started and
stopped in turns, one call at a time; and the instance takes itself for the leader when it has
started the leadership, until the next `Standby` is handled. -/
structure Sound (s : Candidacy) : Prop where
  quiet : Quiet s.stream.history
  alternates : ∃ next running, ElectionServiceImpl.Alternates next running s.service.history
  started : s.service.isLeader = true → .ended true true ∈ s.service.history
  standby : ElectionServiceImpl.lastHandled s.service.history = some .standby →
    s.service.isLeader = false

theorem sound_of_undisturbed
    (h : (election hostPort).ReachableIf (Undisturbed hostPort) s) : s.Sound := by
  have hreliable : s.stream.Reliable hostPort := by
    refine Machine.ReachableIf.invariant (I := fun s => s.stream.Reliable hostPort) ?_ ?_ h
    · rintro _ rfl
      exact reliable_start
    · exact fun _ _ _ hI hok hs => reliable_step hI hok hs
  have horderly : s.Orderly := by
    refine Machine.ReachableIf.invariant (I := Orderly) ?_ ?_ h
    · rintro _ rfl
      exact ElectionServiceImpl.orderly_new
    · exact fun _ _ _ hI _ hs => orderly_step hI hs
  exact {
    quiet := hreliable.quiet
    alternates := ⟨_, _, horderly.alternates⟩
    started := horderly.ended_mem
    standby := fun hlast => by
      rw [ElectionServiceImpl.isLeader, horderly.ready, hlast]
      rfl }

/-! ### A late offer -/

namespace Late

def elected : List Participant := [⟨"here", true⟩]

/-- A loop reads the participants of the election. -/
def reading : List Event :=
  [.checkLoopId, .registerWatch .registered, .readParticipants false (some elected)]

theorem sound_leader : ∃ s : Candidacy, s.service.isLeader = true ∧ s.Sound := by
  have hinit : (election "here").ReachableIf (Undisturbed "here") ⟨.start, .new⟩ := .init rfl
  have hchecked := hinit.step (e := Event.checkLoopId) trivial rfl
  have hwatched := hchecked.step (e := Event.registerWatch .registered) trivial rfl
  have hread := hwatched.step (e := Event.readParticipants false (some elected)) nofun rfl
  have hoffered := hread.step (e := Event.offerState) (fun _ _ _ _ => rfl) rfl
  have hpulled := hoffered.step (e := Event.pull) trivial rfl
  have hended := hpulled.step (e := Event.callEnded true) trivial rfl
  have hhandled := hended.step (e := Event.handle) trivial rfl
  exact ⟨_, rfl, sound_of_undisturbed hhandled⟩

theorem not_forall_quiet :
    ¬ ∀ s : Candidacy, (election "here").Reachable s → Quiet s.stream.history := by
  intro h
  obtain ⟨s, hrun, hhistory⟩ : ∃ s, (election "here").run ⟨.start, .new⟩
      (reading ++ [.stateChanged .suspended, .offerState]) = some s ∧ s.stream.history =
        [.enqueued .electedAsLeader, .enqueued (.standby none), .connectionLost,
          .participantsRead] := ⟨_, rfl, rfl⟩
  have hquiet := h s (Machine.reachableIf_of_runIf _ (.init rfl) hrun)
  rw [hhistory] at hquiet
  exact Bool.noConfusion hquiet.1

end Late

end Candidacy

end Marathon.Election
